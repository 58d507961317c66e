import HighlightBundle.Proofs.WrittenCollections

/-!
# Written trees

A tree whose doubles read back is read back from its text, by the reader of any value
(`reads_readTree`) and, where it has the expected shape, by the readers of what is expected.
-/

namespace HighlightBundle.Json

/-! ### Values of any kind -/

theorem readTree_eq_readScalar {c : Char} {text : Text} (hspace : isSpace (.char c) = false)
    (harray : c ≠ '[') (hobject : c ≠ '\x7b') (depth : Nat) :
    readTree depth (.char c :: text) = readScalar (.char c :: text) := by
  cases depth <;> rw [readTree, skipSpaces_cons hspace] <;> split <;> simp_all

theorem reads_of_readScalar {t : Tree} {c : Char} {cs : List Char} (hnesting : t.nesting = 0)
    (hwrite : t.write = c :: cs) (hspace : isSpace (.char c) = false) (harray : c ≠ '[')
    (hobject : c ≠ '\x7b')
    (hread : ∀ rest, Ends rest → readScalar (t.write.map .char ++ rest) = .ok (t, rest)) :
    Reads readTree t t := by
  intro depth rest hrest
  refine OkIff.of_ok (hnesting ▸ Nat.zero_le depth) ?_
  rw [← hread rest hrest, hwrite]
  exact readTree_eq_readScalar hspace harray hobject depth

theorem reads_number {n : Number} (h : n.ReadsBack) : Reads readTree (.number n) (.number n) := by
  obtain ⟨c, cs, htext, hc⟩ := Tree.exists_cons_text h
  refine reads_of_readScalar (t := .number n) rfl htext (Tree.isSpace_of_number hc)
    (Tree.ne_of_number hc (by decide)) (Tree.ne_of_number hc (by decide)) fun rest hrest ↦ ?_
  have hread : readNumber (n.text.map .char ++ rest) = .ok (n, rest) :=
    readNumber_undisturbed hrest h
  rw [Tree.write, htext, List.map_cons, List.cons_append]
  rw [htext, List.map_cons, List.cons_append] at hread
  rw [readScalar, if_neg (Tree.ne_of_number hc (by decide)), if_pos hc, hread]
  rfl

theorem reads_string (s : String) : Reads readTree (.string s) (.string s) := by
  refine reads_of_readScalar rfl rfl rfl (by decide) (by decide) fun rest _ ↦ ?_
  rw [Tree.write, map_char_writeString_append, readScalar, if_pos rfl, readStringBody_written]
  rfl

/-- Behind the opening bracket of a list. -/
theorem readTree_array (depth : Nat) (text : Text) :
    readTree (depth + 1) (.char '[' :: text) = do
      let (items, rest) ← itemsOf (readTree depth) text
      return (.array items, rest) := by
  rw [readTree, skipSpaces_cons rfl]
  rfl

/-- Behind the opening brace of an object. -/
theorem readTree_object (depth : Nat) (text : Text) :
    readTree (depth + 1) (.char '\x7b' :: text) = do
      let (members, rest) ← membersOf (treeMember (readTree depth)) [] text
      return (.object members, rest) := by
  rw [readTree, skipSpaces_cons rfl]
  rfl

theorem takes_treeMember {m : String × Tree} (h : Reads readTree m.2 m.2)
    (done : List (String × Tree)) :
    Takes (fun depth ↦ treeMember (readTree depth)) done m (done ++ [m]) :=
  fun depth rest hrest ↦ (h depth rest hrest).bind_ok rfl

theorem reads_array {items : List Tree} (h : ∀ t ∈ items, Reads readTree t t)
    (hlegible : ∀ t ∈ items, t.Legible) : Reads readTree (.array items) (.array items) := by
  intro depth rest hrest
  cases depth with
  | zero => exact OkIff.of_error (Nat.not_succ_le_zero _) rfl
  | succ depth =>
    have hitems := itemsOf_written (w := id) h hlegible depth rest
    rw [List.map_id] at hitems
    rw [Tree.write, List.cons_append, List.map_cons, List.cons_append, readTree_array]
    refine OkIff.congr (hitems.bind_ok ?_) Tree.nesting_array_le_iff.symm
    rfl

theorem reads_object {members : List (String × Tree)}
    (h : ∀ m ∈ members, Reads readTree m.2 m.2) :
    Reads readTree (.object members) (.object members) := by
  intro depth rest hrest
  cases depth with
  | zero => exact OkIff.of_error (Nat.not_succ_le_zero _) rfl
  | succ depth =>
    have htakes := TakesAll.of_concat (f := id) [] fun done m hm ↦
      takes_treeMember (h m hm) done
    have hmembers := membersOf_written htakes depth rest
    rw [Tree.write, List.cons_append, List.map_cons, List.cons_append, readTree_object]
    refine OkIff.congr (hmembers.bind_ok ?_) Tree.nesting_object_le_iff.symm
    rfl

mutual

/-- **A written tree reads back** within the limit on open brackets, and not beyond it. -/
theorem reads_readTree : (t : Tree) → t.Legible → Reads readTree t t
  | .null, _ => reads_of_readScalar rfl rfl rfl (by decide) (by decide) fun _ _ ↦ rfl
  | .boolean true, _ => reads_of_readScalar rfl rfl rfl (by decide) (by decide) fun _ _ ↦ rfl
  | .boolean false, _ => reads_of_readScalar rfl rfl rfl (by decide) (by decide) fun _ _ ↦ rfl
  | .number _, h => reads_number h.readsBack
  | .string s, _ => reads_string s
  | .array items, h => by
    rw [Tree.legible_array_iff] at h
    exact reads_array (reads_items items h) h
  | .object members, h => reads_object (reads_members members (Tree.legible_object_iff.1 h))

theorem reads_items : (items : List Tree) → (∀ t ∈ items, t.Legible) →
    ∀ t ∈ items, Reads readTree t t
  | [], _ => nofun
  | t :: rest, h =>
    List.forall_mem_cons.2 ⟨reads_readTree t (h t List.mem_cons_self),
      reads_items rest fun s hs ↦ h s (List.mem_cons_of_mem t hs)⟩

theorem reads_members : (members : List (String × Tree)) → (∀ m ∈ members, m.2.Legible) →
    ∀ m ∈ members, Reads readTree m.2 m.2
  | [], _ => nofun
  | (k, t) :: rest, h =>
    List.forall_mem_cons.2 ⟨reads_readTree t (h (k, t) List.mem_cons_self),
      reads_members rest fun m hm ↦ h m (List.mem_cons_of_mem (k, t) hm)⟩

end

/-! ### Values that are expected -/

section Expected

variable {α σ : Type} {item : Nat → Reader α} {w : α → Tree} {xs : List α} {x : α} {start after : σ}
  {member : Nat → σ → String → Reader σ} {members : List (String × Tree)}
  {finish : σ → Except Cause α} {expected : Expected}

theorem reads_readString (s : String) : Reads (fun _ ↦ readString) (.string s) s := by
  intro depth rest _
  refine OkIff.of_ok (Nat.zero_le depth) ?_
  rw [Tree.write, map_char_writeString_append]
  exact readStringBody_written s rest

theorem reads_readOptionalString (s : String) :
    Reads (fun _ ↦ readOptionalString) (.string s) (some s) := by
  intro depth rest _
  refine OkIff.of_ok (Nat.zero_le depth) ?_
  rw [Tree.write, map_char_writeString_append]
  have hread : readString (.char '"' :: _) = _ := readStringBody_written s rest
  change (readString _ >>= fun r ↦ pure (some r.1, r.2)) = _
  rw [hread]
  rfl

theorem reads_readList (h : ∀ x ∈ xs, Reads item (w x) x) (hlegible : ∀ x ∈ xs, (w x).Legible) :
    Reads (readList item) (.array (xs.map w)) xs := by
  intro depth rest hrest
  rw [Tree.write, List.cons_append, List.map_cons, List.cons_append, readList, skipSpaces_cons rfl]
  cases depth with
  | zero => exact OkIff.of_error (Nat.not_succ_le_zero _) rfl
  | succ depth =>
    refine OkIff.congr (itemsOf_written h hlegible depth rest) ?_
    rw [Tree.nesting_array_le_iff, List.forall_mem_map]

theorem reads_readStrings (ss : List String) :
    Reads readStrings (.array (ss.map .string)) ss :=
  reads_readList (fun s _ ↦ reads_readString s) fun _ _ ↦ nofun

theorem reads_readObject (h : TakesAll member start members after)
    (hfinish : finish after = .ok x) :
    Reads (readObject expected start member finish) (.object members) x := by
  intro depth rest hrest
  rw [Tree.write, List.cons_append, List.map_cons, List.cons_append, readObject,
    skipSpaces_cons rfl]
  cases depth with
  | zero => exact OkIff.of_error (Nat.not_succ_le_zero _) rfl
  | succ depth =>
    refine OkIff.congr ((membersOf_written h depth rest).bind_ok ?_)
      Tree.nesting_object_le_iff.symm
    simp only [hfinish]
    rfl

/-- A field that has not occurred before. -/
theorem reads_setOnce {reader : Nat → Reader α} {t : Tree} (name : String) (h : Reads reader t x)
    {depth : Nat} {rest : Text} (hrest : Ends rest) : OkIff (t.nesting ≤ depth)
      (setOnce name none (reader depth) (.char ':' :: (t.write.map .char ++ rest))) (x, rest) :=
  h depth rest hrest

/-- A member whose value goes to a field that has not occurred before. -/
theorem takes_field {before : σ} {key : String} {t : Tree} {value : Nat → Reader α} {f : α → σ}
    (hread : Reads value t x) (hmember : ∀ depth text, member depth before key text = do
      let (x, rest) ← setOnce key none (value depth) text
      return (f x, rest)) :
    Takes member before (key, t) (f x) := by
  intro depth rest hrest
  rw [hmember]
  exact (reads_setOnce key hread hrest).bind_ok rfl

/-- **A whole text** is read if the tree that was written keeps to the limit. -/
theorem readWhole_written {reader : Nat → Reader α} {t : Tree} (h : Reads reader t x)
    (depth : Nat) : OkIff (t.nesting ≤ depth) (readWhole (reader depth) (t.write.map .char)) x := by
  have hread := h depth [] fun _ ↦ nofun
  rw [List.append_nil] at hread
  exact hread.bind_ok rfl

end Expected

end HighlightBundle.Json
