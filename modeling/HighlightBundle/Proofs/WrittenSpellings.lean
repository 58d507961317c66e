import HighlightBundle.Proofs.SpelledTexts

/-!
# What is written is spelled

Writing picks one of the spellings that a tree has. So whatever is shown of all texts that spell a
tree holds of the text that is written of it, and reading what is written is a special case of
reading what is spelled. `spells_write` says so of every tree without doubles; which text of a
double is picked is a matter of rounding, and not of the grammar.
-/

namespace HighlightBundle.Json

/-! ### Strings -/

theorem isHexDigit_digitChar {n : Nat} (h : n < 16) : IsHexDigit (Nat.digitChar n) n :=
  ⟨h, Or.inl rfl⟩

/-- **A written character is spelled**: as it stands, by a letter, or by its code unit. -/
theorem spellsChar_writtenChar (c : Char) : SpellsChar (writtenChar c) c := by
  unfold writtenChar
  split
  · exact .escape (by decide)
  · exact .escape (by decide)
  · exact .escape (by decide)
  · exact .escape (by decide)
  · exact .escape (by decide)
  · exact .escape (by decide)
  · exact .escape (by decide)
  · rename_i hquote hback _ _ _ _ _
    split
    · rename_i hcontrol
      have hlow : c.toNat < 32 := of_decide_eq_true hcontrol
      have hzero : IsHexDigit '0' 0 := isHexDigit_digitChar (by decide)
      have hunit := IsUnit.mk hzero hzero (isHexDigit_digitChar (by omega : c.toNat / 16 < 16))
        (isHexDigit_digitChar (by omega : c.toNat % 16 < 16))
      have hvalue : ((0 * 16 + 0) * 16 + c.toNat / 16) * 16 + c.toNat % 16 = c.toNat := by omega
      rw [hvalue] at hunit
      have hspells := SpellsChar.unit hunit (Or.inl (by omega))
      rwa [Char.ofNat_toNat] at hspells
    · rename_i hcontrol
      have hhigh : ¬c.toNat < 32 := fun h ↦ hcontrol (decide_eq_true h)
      exact .plain hquote hback (by omega)

theorem spellsChars_written (cs : List Char) : SpellsChars (cs.flatMap writtenChar) cs := by
  induction cs with
  | nil => exact .nil
  | cons c cs ih => exact .cons (spellsChar_writtenChar c) ih

theorem spells_writeString (s : String) : Spells (.value (.string s)) (writeString s) :=
  .string (spellsChars_written s.toList)

/-! ### Integers -/

theorem areDigits_decimalDigits (n : Nat) : AreDigits (decimalDigits n) := by
  refine ⟨fun hnil ↦ digitValues_ne_nil n (by rw [digitValues, hnil]; rfl), fun c hc ↦ ?_⟩
  have hdigit : c.isDigit = true := Nat.isDigit_of_mem_toDigits (by decide) (by decide) hc
  simpa [Char.isDigit, Char.le_def] using hdigit

/-- Of the numbers only zero is written with a zero in front. -/
theorem decimalDigits_of_head?_eq_zero {n : Nat} (h : (decimalDigits n).head? = some '0') :
    decimalDigits n = ['0'] := by
  rcases Nat.eq_zero_or_pos n with rfl | hpos
  · rfl
  · refine absurd ?_ (head?_digitValues_ne_zero hpos)
    rw [digitValues, List.head?_map, h]
    rfl

theorem isNumeral_decimalText (n : Int) : IsNumeral (decimalText n) := by
  have hdigits : ∀ {sign : List Char} (m : Nat), sign = [] ∨ sign = ['-'] →
      IsNumeral (sign ++ (decimalDigits m ++ ([] ++ []))) := fun m hsign ↦
    .mk hsign (areDigits_decimalDigits m) decimalDigits_of_head?_eq_zero (Or.inl rfl) (Or.inl rfl)
  simp only [List.append_nil] at hdigits
  rcases n with m | m
  · exact hdigits m (Or.inl rfl)
  · exact hdigits (m + 1) (Or.inr rfl)

section Integers

-- powers of numbers are those of the core library, whatever else is in scope
attribute [local instance (2000)] instPowNat

/-- **A written integer is spelled.** -/
theorem spells_integer (n : Int) (fits : -2 ^ (63 : Nat) ≤ n ∧ n < 2 ^ (64 : Nat)) :
    Spells (.value (.number (.integer n fits))) (decimalText n) := by
  refine .number (isNumeral_decimalText n) ?_
  have hread : readNumber ((decimalText n).map .char) = _ := readsBack_integer n fits
  rw [numeral?, hread]
  rfl

end Integers

/-! ### Trees -/

variable {items : List Tree} {members : List (String × Tree)}

theorem spells_items (t : Tree) (h : ∀ s ∈ t :: items, Spells (.value s) s.write) :
    Spells (.items (t :: items)) (Tree.commas (Tree.writeItems (t :: items))) := by
  induction items generalizing t with
  | nil => exact .lastItem (spells_item (h t List.mem_cons_self))
  | cons next items ih =>
    obtain ⟨ht, h⟩ := List.forall_mem_cons.1 h
    exact .moreItems (spells_item ht) (ih next h)

theorem spells_members (m : String × Tree) (h : ∀ n ∈ m :: members, Spells (.value n.2) n.2.write) :
    Spells (.members (m :: members)) (Tree.commas (Tree.writeMembers (m :: members))) := by
  have hmember : ∀ {m : String × Tree}, Spells (.value m.2) m.2.write →
      Spells (.member m) (writeString m.1 ++ ':' :: m.2.write) := by
    intro m hm
    have hspells : Spells (.member (m.1, m.2)) _ := @Spells.member [] _ [] _ _ _ nofun
      (spellsChars_written m.1.toList) nofun (spells_item hm)
    simpa [writeString] using hspells
  induction members generalizing m with
  | nil => exact .lastMember (hmember (h m List.mem_cons_self))
  | cons next members ih =>
    obtain ⟨hm, h⟩ := List.forall_mem_cons.1 h
    exact .moreMembers (hmember hm) (ih next h)

theorem spells_writeArray (h : ∀ t ∈ items, Spells (.value t) t.write) :
    Spells (.value (.array items)) (Tree.array items).write := by
  rcases items with - | ⟨t, items⟩
  · exact @Spells.emptyArray [] nofun
  · exact .array (spells_items t h)

theorem spells_writeObject (h : ∀ m ∈ members, Spells (.value m.2) m.2.write) :
    Spells (.value (.object members)) (Tree.object members).write := by
  rcases members with - | ⟨m, members⟩
  · exact @Spells.emptyObject [] nofun
  · exact .object (spells_members m h)

mutual

/-- **A tree without doubles is spelled by the text that is written of it.** -/
theorem spells_write : (t : Tree) → t.doubles = [] → Spells (.value t) t.write
  | .null, _ => .null
  | .boolean true, _ => .isTrue
  | .boolean false, _ => .isFalse
  | .number (.integer n fits), _ => spells_integer n fits
  | .number (.double x), h => absurd h (List.cons_ne_nil x [])
  | .string s, _ => spells_writeString s
  | .array items, h => spells_writeArray (spells_writeItems items h)
  | .object members, h => spells_writeObject (spells_writeMembers members h)

theorem spells_writeItems : (items : List Tree) → Tree.itemsDoubles items = [] →
    ∀ t ∈ items, Spells (.value t) t.write
  | [], _ => nofun
  | t :: rest, h =>
    List.forall_mem_cons.2 ⟨spells_write t (List.append_eq_nil_iff.1 h).1,
      spells_writeItems rest (List.append_eq_nil_iff.1 h).2⟩

theorem spells_writeMembers : (members : List (String × Tree)) → Tree.membersDoubles members = [] →
    ∀ m ∈ members, Spells (.value m.2) m.2.write
  | [], _ => nofun
  | (_, t) :: rest, h =>
    List.forall_mem_cons.2 ⟨spells_write t (List.append_eq_nil_iff.1 h).1,
      spells_writeMembers rest (List.append_eq_nil_iff.1 h).2⟩

end

end HighlightBundle.Json
