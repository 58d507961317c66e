import HighlightBundle.Bundle.Dump
import HighlightBundle.Proofs.WrittenNumbers
import HighlightBundle.Proofs.WrittenStrings

/-!
# Written lists and objects

A reader is told how many brackets it may open, and a written tree opens as many as it nests
(`Tree.nesting`). `Reads` says how the two go together: whatever follows the text of a tree, the
reader gives the value if the tree keeps to the limit, and a fault if it does not. The second half
is there because a limit that is never noticed would prove nothing about what is beyond it.

A reading is a computation that may fail, and `OkIff` says of one such computation when it
succeeds. It goes through a sequence of them (`OkIff.bind`), so a list is read if each of its items
is, and an object if each of its members is: `itemsOf_written` and `membersOf_written`, over any
reader of items and over anything that members may do to a state. For the latter `TakesAll` keeps
the states apart, since a member that is welcome in one state may be refused in the next.
-/

namespace HighlightBundle.Json

/-! ### What can be read of a tree -/

namespace Tree

mutual

/-- How many brackets the text of the tree has open at once. -/
def nesting : Tree → Nat
  | array items => itemsNesting items + 1
  | object members => membersNesting members + 1
  | _ => 0

/-- The deepest of the items. -/
def itemsNesting : List Tree → Nat
  | [] => 0
  | t :: rest => max t.nesting (itemsNesting rest)

/-- The deepest of the values of the members. -/
def membersNesting : List (String × Tree) → Nat
  | [] => 0
  | (_, t) :: rest => max t.nesting (membersNesting rest)

end

mutual

/-- The doubles in the tree. -/
def doubles : Tree → List Binary64
  | number (.double x) => [x]
  | array items => itemsDoubles items
  | object members => membersDoubles members
  | _ => []

/-- The doubles in the items. -/
def itemsDoubles : List Tree → List Binary64
  | [] => []
  | t :: rest => t.doubles ++ itemsDoubles rest

/-- The doubles in the values of the members. -/
def membersDoubles : List (String × Tree) → List Binary64
  | [] => []
  | (_, t) :: rest => t.doubles ++ membersDoubles rest

end

/-- Every double in the tree reads back. -/
def Legible (t : Tree) : Prop :=
  ∀ x ∈ t.doubles, (Number.double x).ReadsBack

instance (t : Tree) : Decidable t.Legible :=
  inferInstanceAs (Decidable (∀ x ∈ t.doubles, (Number.double x).ReadsBack))

variable {items : List Tree} {members : List (String × Tree)} {depth : Nat} {t : Tree}
  {rest : Text}

theorem itemsNesting_le_iff : itemsNesting items ≤ depth ↔ ∀ t ∈ items, t.nesting ≤ depth := by
  induction items with
  | nil => simp [itemsNesting]
  | cons t rest ih => rw [itemsNesting, Nat.max_le, List.forall_mem_cons, ih]

theorem membersNesting_le_iff :
    membersNesting members ≤ depth ↔ ∀ m ∈ members, m.2.nesting ≤ depth := by
  induction members with
  | nil => simp [membersNesting]
  | cons m rest ih => rw [membersNesting, Nat.max_le, List.forall_mem_cons, ih]

theorem nesting_array_le_iff :
    (array items).nesting ≤ depth + 1 ↔ ∀ t ∈ items, t.nesting ≤ depth := by
  rw [nesting, Nat.add_le_add_iff_right, itemsNesting_le_iff]

theorem nesting_object_le_iff :
    (object members).nesting ≤ depth + 1 ↔ ∀ m ∈ members, m.2.nesting ≤ depth := by
  rw [nesting, Nat.add_le_add_iff_right, membersNesting_le_iff]

theorem legible_array_iff : (array items).Legible ↔ ∀ t ∈ items, t.Legible := by
  rw [Legible, doubles]
  induction items with
  | nil => simp [itemsDoubles]
  | cons t rest ih => rw [itemsDoubles, List.forall_mem_append, List.forall_mem_cons, ih, Legible]

theorem legible_object_iff : (object members).Legible ↔ ∀ m ∈ members, m.2.Legible := by
  rw [Legible, doubles]
  induction members with
  | nil => simp [membersDoubles]
  | cons m rest ih => rw [membersDoubles, List.forall_mem_append, List.forall_mem_cons, ih, Legible]

theorem Legible.readsBack {n : Number} (h : (number n).Legible) : n.ReadsBack := by
  cases n with
  | integer n fits => exact readsBack_integer n fits
  | double x => exact h x (List.mem_singleton.2 rfl)

/-- The text of a number that reads back begins with its sign or with a digit. -/
theorem exists_cons_text {n : Number} (h : n.ReadsBack) :
    ∃ c cs, n.text = c :: cs ∧ (c = '-' ∨ ('0' ≤ c ∧ c ≤ '9')) := by
  obtain ⟨c, tail, hmap, hc⟩ := exists_of_readNumber_eq_ok h
  obtain ⟨c', cs, htext, heq, -⟩ := List.map_eq_cons_iff.1 hmap
  exact ⟨c', cs, htext, Symbol.char.inj heq ▸ hc⟩

theorem ne_of_number {c d : Char} (hc : c = '-' ∨ ('0' ≤ c ∧ c ≤ '9'))
    (hd : ¬(d = '-' ∨ ('0' ≤ d ∧ d ≤ '9'))) : c ≠ d :=
  fun heq ↦ hd (heq ▸ hc)

theorem isSpace_of_number {c : Char} (hc : c = '-' ∨ ('0' ≤ c ∧ c ≤ '9')) :
    isSpace (.char c) = false := by
  have hspace : c ≠ ' ' := ne_of_number hc (by decide)
  have htab : c ≠ '\t' := ne_of_number hc (by decide)
  have hnewline : c ≠ '\n' := ne_of_number hc (by decide)
  have hreturn : c ≠ '\r' := ne_of_number hc (by decide)
  simp [isSpace, hspace, htab, hnewline, hreturn]

/-- The text begins with what may be the first symbol of an item. -/
def StartsItem (text : Text) : Prop :=
  ∃ s tail, text = s :: tail ∧ isSpace s = false ∧ s ≠ .char ']'

theorem Legible.startsItem (h : t.Legible) : StartsItem (t.write.map .char ++ rest) := by
  have hhead : ∃ c cs, t.write = c :: cs ∧ isSpace (.char c) = false ∧ c ≠ ']' := by
    cases t with
    | null => exact ⟨_, _, rfl, by decide, by decide⟩
    | boolean b => cases b <;> exact ⟨_, _, rfl, by decide, by decide⟩
    | number n =>
      obtain ⟨c, cs, htext, hc⟩ := exists_cons_text h.readsBack
      exact ⟨c, cs, htext, isSpace_of_number hc, ne_of_number hc (by decide)⟩
    | string s => exact ⟨_, _, rfl, by decide, by decide⟩
    | array items => exact ⟨_, _, rfl, by decide, by decide⟩
    | object members => exact ⟨_, _, rfl, by decide, by decide⟩
  obtain ⟨c, cs, hwrite, hspace, hclose⟩ := hhead
  rw [hwrite]
  exact ⟨.char c, _, rfl, hspace, fun h ↦ hclose (Symbol.char.inj h)⟩

end Tree

/-- The result is the value if the condition holds, and a fault if not. -/
def OkIff {α : Type} (condition : Prop) (result : Except Fault α) (x : α) : Prop :=
  (condition → result = .ok x) ∧ (¬condition → ∃ fault, result = .error fault)

namespace OkIff

variable {α β : Type} {p q : Prop} {result : Except Fault α} {x : α} {y : β}

theorem of_ok (hp : p) (h : result = .ok x) : OkIff p result x :=
  ⟨fun _ ↦ h, fun hnot ↦ absurd hp hnot⟩

theorem of_error (hp : ¬p) {fault : Fault} (h : result = .error fault) : OkIff p result x :=
  ⟨fun hp' ↦ absurd hp' hp, fun _ ↦ ⟨fault, h⟩⟩

theorem congr (h : OkIff p result x) (hpq : p ↔ q) : OkIff q result x :=
  ⟨fun hq ↦ h.1 (hpq.2 hq), fun hq ↦ h.2 fun hp ↦ hq (hpq.1 hp)⟩

/-- One reading after the other: both have to succeed. -/
theorem bind {next : α → Except Fault β} (h : OkIff p result x) (hnext : OkIff q (next x) y) :
    OkIff (p ∧ q) (result >>= next) y := by
  by_cases hp : p
  · rw [h.1 hp]
    exact hnext.congr (by simp [hp])
  · obtain ⟨fault, hfault⟩ := h.2 hp
    rw [hfault]
    exact of_error (fun hpq ↦ hp hpq.1) rfl

/-- What follows a reading and does not fail. -/
theorem bind_ok {next : α → Except Fault β} (h : OkIff p result x) (hnext : next x = .ok y) :
    OkIff p (result >>= next) y :=
  (h.bind (q := True) (of_ok trivial hnext)).congr (and_iff_left trivial)

end OkIff

/-- With a limit on the brackets that may be open, the reader reads the value off the text of the
tree, whatever follows it, if the tree keeps to the limit; if not it fails. -/
def Reads {α : Type} (reader : Nat → Reader α) (t : Tree) (x : α) : Prop :=
  ∀ (depth : Nat) (rest : Text), Ends rest →
    OkIff (t.nesting ≤ depth) (reader depth (t.write.map .char ++ rest)) (x, rest)

/-! ### Lists -/

section Lists

variable {α : Type} {item : Nat → Reader α} {first : Bool} {fuel depth : Nat} {rest text : Text}
  {w : α → Tree} {xs : List α}

theorem skipSpaces_cons {s : Symbol} (h : isSpace s = false) (text : Text) :
    skipSpaces (s :: text) = s :: text :=
  List.dropWhile_cons_of_neg (by simp [h])

theorem skipSpaces_skipSpaces (text : Text) : skipSpaces (skipSpaces text) = skipSpaces text := by
  induction text with
  | nil => rfl
  | cons s text ih =>
    rcases hspace : isSpace s with - | -
    · rw [skipSpaces_cons hspace, skipSpaces_cons hspace]
    · have hskip : skipSpaces (s :: text) = skipSpaces text := List.dropWhile_cons_of_pos hspace
      rw [hskip, ih]

theorem readItems_close {item : Reader α} :
    readItems item (fuel + 1) first (.char ']' :: rest) = .ok ([], rest) := by
  rw [readItems, skipSpaces_cons rfl]
  exact if_pos rfl

/-- An item and the items behind it. -/
def readFurther (item : Reader α) (fuel : Nat) : Reader (List α) := fun text ↦ do
  let (x, rest) ← item text
  let (xs, rest) ← readItems item fuel false rest
  return (x :: xs, rest)

/-- What is read depends on the text from the first symbol that is no space. -/
theorem readItems_congr {item : Reader α} {text' : Text} (h : skipSpaces text = skipSpaces text') :
    readItems item fuel first text = readItems item fuel first text' := by
  cases fuel <;> rw [readItems, readItems]
  rw [h]

theorem Tree.StartsItem.skipSpaces_eq (h : Tree.StartsItem text) : skipSpaces text = text := by
  obtain ⟨s, tail, rfl, hspace, -⟩ := h
  exact skipSpaces_cons hspace tail

theorem readItems_first {item : Reader α} (h : Tree.StartsItem text) :
    readItems item (fuel + 1) true text = readFurther item fuel text := by
  obtain ⟨s, tail, rfl, hspace, hclose⟩ := h
  rw [readItems, skipSpaces_cons hspace]
  dsimp only
  rw [if_neg hclose, if_pos rfl]
  rfl

theorem readItems_next_of_startsItem {item : Reader α} (h : Tree.StartsItem (skipSpaces text)) :
    readItems item (fuel + 1) false (.char ',' :: text) =
      readFurther item fuel (skipSpaces text) := by
  obtain ⟨s, tail, htext, hspace, hclose⟩ := h
  rw [readItems, skipSpaces_cons rfl]
  dsimp only
  rw [if_neg (by decide), if_neg (by decide), if_pos rfl, htext]
  dsimp only
  rw [if_neg hclose]
  rfl

theorem readItems_next {item : Reader α} (h : Tree.StartsItem text) :
    readItems item (fuel + 1) false (.char ',' :: text) = readFurther item fuel text := by
  have hskip := h.skipSpaces_eq
  rw [readItems_next_of_startsItem (by rwa [hskip]), hskip]

theorem commas_cons (part : List Char) (parts : List (List Char)) :
    Tree.commas (part :: parts) = part ++ parts.flatMap fun p ↦ ',' :: p := by
  induction parts generalizing part with
  | nil => rw [Tree.commas, List.flatMap_nil, List.append_nil]
  | cons next rest ih =>
    rw [Tree.commas, ih, List.flatMap_cons, List.cons_append]
    exact List.cons_ne_nil _ _

theorem writeItems_eq_map (items : List Tree) : Tree.writeItems items = items.map Tree.write := by
  induction items with
  | nil => rfl
  | cons t rest ih => rw [Tree.writeItems, ih, List.map_cons]

/-- The items behind the first one, up to the closing bracket and what follows it. -/
def itemsBehind (items : List Tree) (rest : Text) : Text :=
  (items.flatMap fun t ↦ ',' :: t.write).map .char ++ .char ']' :: rest

theorem itemsBehind_cons (t : Tree) (items : List Tree) (rest : Text) :
    itemsBehind (t :: items) rest = .char ',' :: (t.write.map .char ++ itemsBehind items rest) := by
  simp [itemsBehind]

theorem ends_itemsBehind (items : List Tree) (rest : Text) : Ends (itemsBehind items rest) := by
  rcases items with - | ⟨t, items⟩
  · exact ends_cons (by decide)
  · rw [itemsBehind_cons]
    exact ends_cons (by decide)

theorem length_lt_length_itemsBehind (items : List Tree) (rest : Text) :
    items.length < (itemsBehind items rest).length := by
  induction items with
  | nil => simp [itemsBehind]
  | cons t items ih =>
    rw [itemsBehind_cons, List.length_cons, List.length_cons, List.length_append]
    omega

theorem readFurther_written {x : α} (hx : Reads item (w x) x)
    (hxs : OkIff (∀ x ∈ xs, (w x).nesting ≤ depth)
      (readItems (item depth) fuel false (itemsBehind (xs.map w) rest)) (xs, rest)) :
    OkIff (∀ y ∈ x :: xs, (w y).nesting ≤ depth) (readFurther (item depth) fuel
      ((w x).write.map .char ++ itemsBehind (xs.map w) rest)) (x :: xs, rest) := by
  rw [readFurther]
  refine OkIff.congr ((hx _ _ (ends_itemsBehind _ _)).bind (hxs.bind_ok rfl)) ?_
  exact (List.forall_mem_cons (p := fun y ↦ (w y).nesting ≤ depth)).symm

/-- The items behind the first one, each behind its comma. -/
theorem readItems_written (hread : ∀ x ∈ xs, Reads item (w x) x)
    (hlegible : ∀ x ∈ xs, (w x).Legible) (hfuel : xs.length < fuel) :
    OkIff (∀ x ∈ xs, (w x).nesting ≤ depth)
      (readItems (item depth) fuel false (itemsBehind (xs.map w) rest)) (xs, rest) := by
  obtain ⟨fuel, rfl⟩ := Nat.exists_eq_add_one_of_ne_zero (Nat.ne_zero_of_lt hfuel)
  induction xs generalizing fuel with
  | nil => exact OkIff.of_ok nofun readItems_close
  | cons x xs ih =>
    have hlt : xs.length < fuel := Nat.lt_of_succ_lt_succ hfuel
    obtain ⟨fuel, rfl⟩ := Nat.exists_eq_add_one_of_ne_zero (Nat.ne_zero_of_lt hlt)
    obtain ⟨hx, hxs⟩ := List.forall_mem_cons.1 hread
    obtain ⟨hstart, hstarts⟩ := List.forall_mem_cons.1 hlegible
    rw [List.map_cons, itemsBehind_cons, readItems_next hstart.startsItem]
    exact readFurther_written hx (ih hxs hstarts fuel hlt)

/-- The items of a list, behind the opening bracket. -/
theorem itemsOf_written (hread : ∀ x ∈ xs, Reads item (w x) x)
    (hlegible : ∀ x ∈ xs, (w x).Legible) (depth : Nat) (rest : Text) :
    OkIff (∀ x ∈ xs, (w x).nesting ≤ depth)
      (itemsOf (item depth) ((Tree.commas (Tree.writeItems (xs.map w)) ++ [']']).map .char ++ rest))
      (xs, rest) := by
  rcases xs with - | ⟨x, xs⟩
  · exact OkIff.of_ok nofun readItems_close
  · obtain ⟨hx, hxs⟩ := List.forall_mem_cons.1 hread
    obtain ⟨hstart, hstarts⟩ := List.forall_mem_cons.1 hlegible
    have htext : (Tree.commas (Tree.writeItems ((x :: xs).map w)) ++ [']']).map Symbol.char ++
        rest = (w x).write.map .char ++ itemsBehind (xs.map w) rest := by
      simp [writeItems_eq_map, commas_cons, itemsBehind, List.flatMap_map]
    rw [htext, itemsOf, readItems_first hstart.startsItem]
    refine readFurther_written hx (readItems_written hxs hstarts ?_)
    have hlength := length_lt_length_itemsBehind (xs.map w) rest
    rw [List.length_map] at hlength
    rw [List.length_append]
    omega

end Lists

/-! ### Objects -/

section Objects

variable {σ : Type} {member : Nat → σ → String → Reader σ} {first : Bool} {fuel depth : Nat}
  {rest text : Text} {before between after : σ} {m : String × Tree}
  {members : List (String × Tree)} {key : String} {value : Tree}

/-- With a limit on the brackets that may be open, the member takes the state before it to the one
after it, if its value keeps to the limit; if not it fails. Its key has been read already. -/
def Takes (member : Nat → σ → String → Reader σ) (before : σ) (m : String × Tree) (after : σ) :
    Prop :=
  ∀ (depth : Nat) (rest : Text), Ends rest → OkIff (m.2.nesting ≤ depth)
    (member depth before m.1 (.char ':' :: (m.2.write.map .char ++ rest))) (after, rest)

/-- The members take the state before them to the one after them, one by one. -/
inductive TakesAll (member : Nat → σ → String → Reader σ) : σ → List (String × Tree) → σ → Prop
  | nil {state : σ} : TakesAll member state [] state
  | cons {before between after : σ} {m : String × Tree} {members : List (String × Tree)} :
      Takes member before m between → TakesAll member between members after →
      TakesAll member before (m :: members) after

/-- Members that are kept as they are, each behind those that are done. -/
theorem TakesAll.of_concat {f : List (String × Tree) → σ} (done : List (String × Tree))
    (h : ∀ done, ∀ m ∈ members, Takes member (f done) m (f (done ++ [m]))) :
    TakesAll member (f done) members (f (done ++ members)) := by
  induction members generalizing done with
  | nil =>
    rw [List.append_nil]
    exact .nil
  | cons m rest ih =>
    have hrest := ih (done ++ [m]) fun done n hn ↦ h done n (List.mem_cons_of_mem m hn)
    rw [List.append_assoc, List.singleton_append] at hrest
    exact .cons (h done m List.mem_cons_self) hrest

theorem readMembers_close {member : σ → String → Reader σ} :
    readMembers member (fuel + 1) first before (.char '\x7d' :: rest) = .ok (before, rest) := by
  rw [readMembers, skipSpaces_cons rfl]
  exact if_pos rfl

/-- A member, whose opening quote has been taken, and the members behind it. -/
def readFurtherMembers (member : σ → String → Reader σ) (fuel : Nat) (state : σ) :
    Reader σ := fun text ↦ do
  let (key, rest) ← readStringBody text
  let (state, rest) ← member state key rest
  readMembers member fuel false state rest

theorem readMembers_first_of_skipSpaces {member : σ → String → Reader σ} {body : Text}
    (h : skipSpaces text = .char '"' :: body) : readMembers member (fuel + 1) true before text =
      readFurtherMembers member fuel before body := by
  rw [readMembers, h]
  rfl

theorem readMembers_first {member : σ → String → Reader σ} :
    readMembers member (fuel + 1) true before (.char '"' :: text) =
      readFurtherMembers member fuel before text :=
  readMembers_first_of_skipSpaces (skipSpaces_cons rfl text)

theorem readMembers_next_of_skipSpaces {member : σ → String → Reader σ} {tail body : Text}
    (h : skipSpaces text = .char ',' :: tail) (hbody : skipSpaces tail = .char '"' :: body) :
    readMembers member (fuel + 1) false before text =
      readFurtherMembers member fuel before body := by
  rw [readMembers, h]
  dsimp only
  rw [if_neg (by decide), if_neg (by decide), if_pos rfl, hbody]
  rfl

theorem readMembers_next {member : σ → String → Reader σ} :
    readMembers member (fuel + 1) false before (.char ',' :: .char '"' :: text) =
      readFurtherMembers member fuel before text :=
  readMembers_next_of_skipSpaces (skipSpaces_cons rfl _) (skipSpaces_cons rfl text)

theorem writeMembers_eq_map (members : List (String × Tree)) : Tree.writeMembers members =
    members.map fun m ↦ writeString m.1 ++ ':' :: m.2.write := by
  induction members with
  | nil => rfl
  | cons m rest ih => rw [Tree.writeMembers, ih, List.map_cons]

/-- A member without the opening quote of its key, and what follows it. -/
def memberThen (m : String × Tree) (rest : Text) : Text :=
  (m.1.toList.flatMap writtenChar).map .char ++ .char '"' :: .char ':' ::
    (m.2.write.map .char ++ rest)

/-- The members behind the first one, up to the closing brace and what follows it. -/
def membersBehind : List (String × Tree) → Text → Text
  | [], rest => .char '\x7d' :: rest
  | m :: members, rest => .char ',' :: .char '"' :: memberThen m (membersBehind members rest)

theorem ends_membersBehind (members : List (String × Tree)) (rest : Text) :
    Ends (membersBehind members rest) := by
  rcases members with - | ⟨m, members⟩
  · exact ends_cons (by decide)
  · exact ends_cons (by decide)

theorem length_lt_length_membersBehind (members : List (String × Tree)) (rest : Text) :
    members.length < (membersBehind members rest).length := by
  induction members with
  | nil => simp [membersBehind]
  | cons m members ih =>
    simp only [membersBehind, memberThen, List.length_cons, List.length_append]
    omega

theorem readFurtherMembers_written (hm : Takes member before m between)
    (hmembers : OkIff (∀ m ∈ members, m.2.nesting ≤ depth)
      (readMembers (member depth) fuel false between (membersBehind members rest)) (after, rest)) :
    OkIff (∀ n ∈ m :: members, n.2.nesting ≤ depth) (readFurtherMembers (member depth) fuel before
      (memberThen m (membersBehind members rest))) (after, rest) := by
  rw [readFurtherMembers, memberThen, readStringBody_written]
  refine OkIff.congr ((hm _ _ (ends_membersBehind _ _)).bind hmembers) ?_
  exact (List.forall_mem_cons (p := fun n : String × Tree ↦ n.2.nesting ≤ depth)).symm

/-- The members behind the first one, each behind its comma. -/
theorem readMembers_written (h : TakesAll member before members after)
    (hfuel : members.length < fuel) : OkIff (∀ m ∈ members, m.2.nesting ≤ depth)
      (readMembers (member depth) fuel false before (membersBehind members rest))
      (after, rest) := by
  obtain ⟨fuel, rfl⟩ := Nat.exists_eq_add_one_of_ne_zero (Nat.ne_zero_of_lt hfuel)
  induction h generalizing fuel with
  | nil => exact OkIff.of_ok nofun readMembers_close
  | cons hm _ ih =>
    have hlt := Nat.lt_of_succ_lt_succ hfuel
    obtain ⟨fuel, rfl⟩ := Nat.exists_eq_add_one_of_ne_zero (Nat.ne_zero_of_lt hlt)
    rw [membersBehind, readMembers_next]
    exact readFurtherMembers_written hm (ih fuel hlt)

/-- The members of an object, behind the opening brace. -/
theorem membersOf_written (h : TakesAll member before members after) (depth : Nat)
    (rest : Text) :
    OkIff (∀ m ∈ members, m.2.nesting ≤ depth)
      (membersOf (member depth) before
        ((Tree.commas (Tree.writeMembers members) ++ ['\x7d']).map .char ++ rest))
      (after, rest) := by
  rcases h with - | ⟨hm, hmembers⟩
  · exact OkIff.of_ok nofun readMembers_close
  · rename_i between m members
    have hbehind : ∀ members : List (String × Tree), membersBehind members rest =
        ((members.flatMap fun m ↦ ',' :: (writeString m.1 ++ ':' :: m.2.write)) ++ ['\x7d']).map
          .char ++ rest := by
      intro members
      induction members with
      | nil => rfl
      | cons m members ih => simp [membersBehind, memberThen, writeString, ih]
    have htext : (Tree.commas (Tree.writeMembers (m :: members)) ++ ['\x7d']).map Symbol.char ++
        rest = .char '"' :: memberThen m (membersBehind members rest) := by
      simp [writeMembers_eq_map, commas_cons, memberThen, hbehind, List.flatMap_map, writeString]
    rw [htext, membersOf, readMembers_first]
    refine readFurtherMembers_written hm (readMembers_written hmembers ?_)
    have hlength := length_lt_length_membersBehind members rest
    simp only [memberThen, List.length_cons, List.length_append]
    omega

end Objects

end HighlightBundle.Json
