import HighlightBundle.Json.Strings

/-!
# Written strings read back

A string is written character by character, and each character is read in one of three ways: as it
stands, behind a backslash, or as a code unit of four digits (`readCharacters_writtenChar`). A unit
is only written for a control character, so it is never half of a pair. What is said so far goes in
front of what is said of the rest (`thenSaid`), so the string follows by induction on its
characters.
-/

namespace HighlightBundle.Json

variable {c e : Char} {s₁ s₂ s₃ s₄ : Symbol} {n : Nat} {text : Text}

/-! ### One character -/

/-- Four hexadecimal digits, the first two of them zero, are read as the number below 256. -/
theorem hexUnit?_digitChar (h : n < 256) :
    hexUnit? (.char '0') (.char '0') (.char (Nat.digitChar (n / 16)))
      (.char (Nat.digitChar (n % 16))) = some n := by
  have hvalue : ∀ d < 16, Symbol.hexValue? (.char (Nat.digitChar d)) = some d := by decide
  have hzero : Symbol.hexValue? (.char '0') = some 0 := by decide
  rw [hexUnit?, hzero, hvalue (n / 16) (by omega), hvalue (n % 16) (by omega)]
  have hsum : 4096 * 0 + 256 * 0 + 16 * (n / 16) + n % 16 = n := by omega
  exact congrArg some hsum

/-- What is said when a symbol has been read and the reading goes on. -/
def thenSaid (s : Symbol) (more : Except Fault (Text × Text)) : Except Fault (Text × Text) :=
  more.map fun r ↦ (s :: r.1, r.2)

theorem bind_eq_thenSaid (s : Symbol) (more : Except Fault (Text × Text)) :
    (do let (said, rest) ← more; return (s :: said, rest)) = thenSaid s more := by
  cases more <;> rfl

theorem readCharacters_plain (hquote : c ≠ '"') (hback : c ≠ '\\')
    (hcontrol : isControl c = false) :
    readCharacters (.char c :: text) = thenSaid (.char c) (readCharacters text) := by
  rw [readCharacters.eq_def]
  simp only [if_neg hquote, if_neg hback, hcontrol]
  exact bind_eq_thenSaid _ _

theorem readCharacters_escape (hu : e ≠ 'u') (h : escaped? e = some c) :
    readCharacters (.char '\\' :: .char e :: text) = thenSaid (.char c) (readCharacters text) := by
  rw [readCharacters.eq_def]
  simp only [if_neg hu, h]
  exact bind_eq_thenSaid _ _

theorem readCharacters_unit (text : Text) (h : hexUnit? s₁ s₂ s₃ s₄ = some n)
    (hscalar : n < 0xD800 ∨ 0xDFFF < n) :
    readCharacters (.char '\\' :: .char 'u' :: s₁ :: s₂ :: s₃ :: s₄ :: text) =
      thenSaid (.char (Char.ofNat n)) (readCharacters text) := by
  have htrailing : isTrailing n = false := by simp [isTrailing]; omega
  have hleading : isLeading n = false := by simp [isLeading]; omega
  rw [readCharacters.eq_def]
  simp only [h, htrailing, hleading]
  exact bind_eq_thenSaid _ _

/-- **A written character says what it is.** -/
theorem readCharacters_writtenChar (c : Char) (text : Text) :
    readCharacters ((writtenChar c).map .char ++ text) =
      thenSaid (.char c) (readCharacters text) := by
  unfold writtenChar
  split
  · exact readCharacters_escape (by decide) rfl
  · exact readCharacters_escape (by decide) rfl
  · exact readCharacters_escape (by decide) rfl
  · exact readCharacters_escape (by decide) rfl
  · exact readCharacters_escape (by decide) rfl
  · exact readCharacters_escape (by decide) rfl
  · exact readCharacters_escape (by decide) rfl
  · rename_i hquote hback _ _ _ _ _
    split
    · rename_i hcontrol
      have hlow : c.toNat < 32 := of_decide_eq_true hcontrol
      have hunit := hexUnit?_digitChar (n := c.toNat) (by omega)
      have hread := readCharacters_unit text hunit (Or.inl (by omega))
      rw [Char.ofNat_toNat] at hread
      exact hread
    · rename_i hcontrol
      exact readCharacters_plain hquote hback (Bool.eq_false_iff.2 hcontrol)

/-! ### Strings -/

/-- **A written string says what the string is**, up to its closing quote. -/
theorem readCharacters_written (cs : List Char) (text : Text) :
    readCharacters ((cs.flatMap writtenChar).map .char ++ .char '"' :: text) =
      .ok (cs.map .char, text) := by
  induction cs with
  | nil => rw [List.flatMap_nil, List.map_nil, List.nil_append, readCharacters.eq_def]; rfl
  | cons c rest ih =>
    rw [List.flatMap_cons, List.map_append, List.append_assoc, readCharacters_writtenChar, ih]
    rfl

theorem characters?_map_char (cs : List Char) : characters? (cs.map .char) = some cs := by
  induction cs with
  | nil => rfl
  | cons c rest ih => rw [List.map_cons, characters?, ih, Option.map_some]

/-- **A written string reads back**, whatever follows its closing quote. -/
theorem readStringBody_written (s : String) (text : Text) :
    readStringBody ((s.toList.flatMap writtenChar).map .char ++ .char '"' :: text) =
      .ok (s, text) := by
  rw [readStringBody, readCharacters_written]
  simp only [bind, Except.bind, characters?_map_char, String.ofList_toList]
  rfl

/-- A written string in front of a text: the opening quote, and what a reader finds behind it. -/
theorem map_char_writeString_append (s : String) (text : Text) :
    (writeString s).map .char ++ text =
      .char '"' :: ((s.toList.flatMap writtenChar).map .char ++ .char '"' :: text) := by
  simp [writeString]

end HighlightBundle.Json
