import HighlightBundle.Proofs.SpelledTexts

/-!
# Which number a numeral is

The grammar takes the number of a numeral from the reader (`numeral?`). Here it is told by the
digits of the numeral, with `Nat.ofDigitChars` for the number that digits are.

* Without a point and an exponent it is the integer of its digits, if this fits in sixty-four bits
  (`numeral?_natural`, `numeral?_negative`). `-0` does not, which is a double of its own.
* With a point or an exponent it is the double of a decimal (`numeral?_decimal`). The significand
  are all digits as if there were no point, and the exponent is the written one less the number of
  digits behind the point.

Both are for digits that can be taken up as they are: a significand below `2 ^ 64` and an exponent
below `2 ^ 31`. Rounding the decimal is left to `Binary64.ofDecimal?`.
-/

namespace HighlightBundle.Json

-- powers of numbers are those of the core library, whatever else is in scope
attribute [local instance (2000)] instPowNat

/-- The sign in front of a numeral. -/
def signOf (negative : Bool) : List Char :=
  if negative then ['-'] else []

/-- What stands behind the whole part of a numeral, for the digits behind the point. -/
def IsFraction (fraction digits : List Char) : Prop :=
  (fraction = [] ∧ digits = []) ∨ (fraction = '.' :: digits ∧ AreDigits digits)

/-- An exponent and its value. -/
inductive HasScale : List Char → Int → Prop
  | nothing : HasScale [] 0
  | up {mark : Char} {sign digits : List Char} (hmark : mark = 'e' ∨ mark = 'E')
      (hsign : sign = [] ∨ sign = ['+']) (hdigits : AreDigits digits) :
      HasScale (mark :: (sign ++ digits)) (Nat.ofDigitChars 10 digits 0)
  | down {mark : Char} {digits : List Char} (hmark : mark = 'e' ∨ mark = 'E')
      (hdigits : AreDigits digits) :
      HasScale (mark :: '-' :: digits) (-(Nat.ofDigitChars 10 digits 0))

variable {negative : Bool} {limit significand n : Nat} {exponent power : Int} {text : Text}
  {whole digits fraction scale : List Char}

/-! ### Digits -/

theorem le_ofDigitChars (digits : List Char) (n : Nat) : n ≤ Nat.ofDigitChars 10 digits n := by
  rw [Nat.ofDigitChars_eq_ofDigitChars_zero]
  exact Nat.le_trans (Nat.le_mul_of_pos_left n (Nat.pow_pos (by decide))) (Nat.le_add_right _ _)

/-- Digits of a number within the limit are all taken up. -/
theorem absorb_digits (h : Nat.ofDigitChars 10 digits n ≤ limit) :
    absorb limit n (digits.map fun c ↦ c.toNat - '0'.toNat) = (Nat.ofDigitChars 10 digits n, []) := by
  induction digits generalizing n with
  | nil => rfl
  | cons c digits ih =>
    rw [Nat.ofDigitChars_cons] at h ⊢
    rw [List.map_cons, absorb, if_pos (Nat.le_trans (le_ofDigitChars digits _) h), ih h]

/-! ### The parts of a decimal -/

/-- The number that is read off a decimal, if it is in range. -/
theorem value_readDecimal : (readDecimal negative significand exponent text).toOption.map Prod.fst =
    (Binary64.ofDecimal? negative significand exponent).map .double := by
  -- opened as a function of its arguments: with them in place the arithmetic would be unfolded
  generalize hread : readDecimal = read
  delta readDecimal at hread
  subst hread
  dsimp only
  generalize Binary64.ofDecimal? negative significand exponent = y
  rcases y with - | y <;> rfl

theorem readPower_of_le {down : Bool} (h : Nat.ofDigitChars 10 digits 0 ≤ maxExponent) :
    readPower negative significand exponent down (digits.map fun c ↦ c.toNat - '0'.toNat) text =
      readDecimal negative significand
        (if down then exponent - Nat.ofDigitChars 10 digits 0
          else exponent + Nat.ofDigitChars 10 digits 0) text := by
  rw [readPower, absorb_digits h]

/-- A written exponent is added to the one that there is. -/
theorem readExponent_of_areDigits {sign : List Char}
    (hsign : sign = [] ∨ sign = ['+'] ∨ sign = ['-']) (hdigits : AreDigits digits)
    (hlimit : Nat.ofDigitChars 10 digits 0 ≤ maxExponent) :
    readExponent negative significand exponent ((sign ++ digits).map .char) =
      readDecimal negative significand
        (if sign = ['-'] then exponent - Nat.ofDigitChars 10 digits 0
          else exponent + Nat.ofDigitChars 10 digits 0) [] := by
  have htake := takeSign_of_areDigits hsign hdigits []
  rw [List.append_nil] at htake
  rw [readExponent_eq, htake]
  dsimp only
  rw [readDigits_of_areDigits _ hdigits (by simp), readPower_of_le hlimit]
  simp only [decide_eq_true_eq]

theorem HasScale.isScale (h : HasScale scale power) : IsScale scale := by
  cases h with
  | nothing => exact Or.inl rfl
  | @up mark sign digits hmark hsign hdigits =>
    exact Or.inr ⟨mark, sign, digits, rfl, hmark, hsign.imp_right Or.inl, hdigits⟩
  | @down mark digits hmark hdigits =>
    exact Or.inr ⟨mark, ['-'], digits, rfl, hmark, Or.inr (Or.inr rfl), hdigits⟩

/-- An exponent that is there begins with its letter, and its value is added. -/
theorem HasScale.exists_mark (h : HasScale scale power) (hsome : scale ≠ [])
    (hlimit : power.natAbs ≤ maxExponent) (negative : Bool) (significand : Nat) (exponent : Int) :
    ∃ mark rest, scale = mark :: rest ∧ IsScaleMark (.char mark) ∧
      readExponent negative significand exponent (rest.map .char) =
        readDecimal negative significand (exponent + power) [] := by
  cases h with
  | nothing => exact absurd rfl hsome
  | @up mark sign digits hmark hsign hdigits =>
    refine ⟨mark, _, rfl, isScaleMark_char hmark, ?_⟩
    rw [readExponent_of_areDigits (hsign.imp_right Or.inl) hdigits hlimit, if_neg]
    rcases hsign with rfl | rfl <;> simp
  | @down mark digits hmark hdigits =>
    rw [Int.natAbs_neg] at hlimit
    have hread : readExponent negative significand exponent ((['-'] ++ digits).map .char) = _ :=
      readExponent_of_areDigits (Or.inr (Or.inr rfl)) hdigits hlimit
    rw [if_pos rfl] at hread
    exact ⟨mark, _, rfl, isScaleMark_char hmark, hread⟩

theorem readScale_of_hasScale (hscale : HasScale scale power)
    (hlimit : power.natAbs ≤ maxExponent) :
    readScale negative significand exponent (scale.map .char) =
      readDecimal negative significand (exponent + power) [] := by
  by_cases hsome : scale = []
  · subst hsome
    cases hscale
    rw [List.map_nil, readScale_of_not_mark (by simp), Int.add_zero]
  · obtain ⟨mark, rest, rfl, hmark, hread⟩ :=
      hscale.exists_mark hsome hlimit negative significand exponent
    rw [List.map_cons, readScale_of_mark hmark, hread]

/-- The digits behind the point go on with the significand, and each of them lowers the exponent. -/
theorem readFraction_of_areDigits (hdigits : AreDigits digits) (hscale : HasScale scale power)
    (hlimit : power.natAbs ≤ maxExponent)
    (hsignificand : Nat.ofDigitChars 10 digits significand ≤ maxSignificand) :
    readFraction negative significand 0 ((digits ++ scale).map .char) =
      readDecimal negative (Nat.ofDigitChars 10 digits significand) (power - digits.length) [] := by
  have hexponent : (0 : Int) - (digits.length - ([] : List Nat).length) + power =
      power - digits.length := by
    rw [List.length_nil]
    omega
  rw [readFraction_eq, List.map_append,
    readDigits_of_areDigits _ hdigits (not_digit_of_isScale hscale.isScale),
    absorb_digits hsignificand]
  dsimp only
  rw [List.length_map, readScale_of_hasScale hscale hlimit, hexponent]

/-- What follows the whole part makes a decimal of it. -/
theorem readAfterInteger_of_hasScale (hfraction : IsFraction fraction digits)
    (hscale : HasScale scale power) (hsome : fraction ++ scale ≠ [])
    (hlimit : power.natAbs ≤ maxExponent)
    (hsignificand : Nat.ofDigitChars 10 digits significand ≤ maxSignificand) :
    readAfterInteger negative significand 0 ((fraction ++ scale).map .char) =
      readDecimal negative (Nat.ofDigitChars 10 digits significand) (power - digits.length) [] := by
  rcases hfraction with ⟨rfl, rfl⟩ | ⟨rfl, hdigits⟩
  · obtain ⟨mark, rest, rfl, hmark, hread⟩ :=
      hscale.exists_mark hsome hlimit negative significand 0
    have hexponent : (0 : Int) + power = power - ([] : List Char).length := by
      rw [List.length_nil]
      omega
    rw [List.nil_append, List.map_cons, readAfterInteger_of_mark hmark, Nat.ofDigitChars_nil,
      ← hexponent]
    exact hread
  · exact readFraction_of_areDigits hdigits hscale hlimit hsignificand

/-! ### Numerals -/

theorem IsFraction.of_eq (h : IsFraction fraction digits) :
    fraction = [] ∨ ∃ digits, fraction = '.' :: digits ∧ AreDigits digits :=
  h.imp And.left fun h ↦ ⟨digits, h⟩

/-- The sign is taken, and the whole part is taken up. -/
theorem readNumber_signed (negative : Bool) (hwhole : AreDigits whole)
    (hlead : whole.head? = some '0' → whole = ['0'])
    (hlimit : Nat.ofDigitChars 10 whole 0 ≤ maxSignificand)
    (htext : ∀ s ∈ text.head?, Symbol.digit? s = none) :
    readNumber ((signOf negative).map .char ++ (whole.map .char ++ text)) =
      readAfterInteger negative (Nat.ofDigitChars 10 whole 0) 0 text := by
  have hunsigned : readUnsigned negative (whole.map .char ++ text) =
      readAfterInteger negative (Nat.ofDigitChars 10 whole 0) 0 text := by
    rw [readUnsigned_eq, readDigits_of_areDigits _ hwhole htext]
    dsimp only
    split
    · next hvalues => exact absurd hvalues (digits_ne_zero_cons hwhole hlead)
    · rw [absorb_digits hlimit]
      rfl
  rcases negative with - | -
  · show readNumber (whole.map .char ++ text) = _
    rw [readNumber_of_not_minus fun s hs ↦ (not_sign_of_areDigits hwhole text s hs).2, hunsigned]
  · exact hunsigned

/-- **A numeral with a point or an exponent is a decimal.** -/
theorem numeral?_decimal (hwhole : AreDigits whole)
    (hlead : whole.head? = some '0' → whole = ['0']) (hfraction : IsFraction fraction digits)
    (hscale : HasScale scale power) (hsome : fraction ++ scale ≠ [])
    (hsignificand : Nat.ofDigitChars 10 (whole ++ digits) 0 < 2 ^ (64 : Nat))
    (hpower : power.natAbs < 2 ^ (31 : Nat)) :
    numeral? (signOf negative ++ (whole ++ (fraction ++ scale))) =
      (Binary64.ofDecimal? negative (Nat.ofDigitChars 10 (whole ++ digits) 0)
        (power - digits.length)).map .double := by
  have hlimit : Nat.ofDigitChars 10 (whole ++ digits) 0 ≤ maxSignificand :=
    Nat.le_sub_one_of_lt hsignificand
  rw [Nat.ofDigitChars_append] at hlimit ⊢
  rw [numeral?, List.map_append, List.map_append,
    readNumber_signed negative hwhole hlead (Nat.le_trans (le_ofDigitChars digits _) hlimit)
      (not_digit_of_isFraction hfraction.of_eq hscale.isScale),
    readAfterInteger_of_hasScale hfraction hscale hsome (Nat.le_sub_one_of_lt hpower) hlimit,
    value_readDecimal]

/-- Zeros at the end count, and so does the sign of the exponent. -/
example : numeral? "-12.50e-3".toList = (Binary64.ofDecimal? true 1250 (-5)).map .double := by
  decide +kernel

/-- The number of the whole part alone. -/
theorem value_readAfterInteger : (readAfterInteger negative significand 0 []).toOption.map Prod.fst =
    integerOf negative significand := by
  refine Option.ext fun x ↦ ?_
  have hread (left : Text) : readAfterInteger negative significand 0 [] = .ok (x, left) ↔
      integerOf negative significand = some x ∧ left = [] := by
    rw [readAfterInteger_eq_ok_iff (by simp) (by simp), if_pos rfl]
  simp only [Option.map_eq_some_iff, toOption_eq_some_iff, Prod.exists, exists_and_right,
    exists_eq_right, hread, exists_eq_right]

/-- Without a point and an exponent it is an integer, or what becomes of one that does not fit. -/
theorem numeral?_whole (negative : Bool) (hwhole : AreDigits whole)
    (hlead : whole.head? = some '0' → whole = ['0'])
    (hfits : Nat.ofDigitChars 10 whole 0 < 2 ^ (64 : Nat)) :
    numeral? (signOf negative ++ whole) = integerOf negative (Nat.ofDigitChars 10 whole 0) := by
  have hnothing : ∀ s ∈ ([] : Text).head?, Symbol.digit? s = none := nofun
  have hread := readNumber_signed negative hwhole hlead (Nat.le_sub_one_of_lt hfits) hnothing
  rw [List.append_nil, ← List.map_append] at hread
  rw [numeral?, hread, value_readAfterInteger]

/-- **A natural number is the number of its digits.** -/
theorem numeral?_natural (hwhole : AreDigits whole)
    (hlead : whole.head? = some '0' → whole = ['0'])
    (hfits : Nat.ofDigitChars 10 whole 0 < 2 ^ (64 : Nat)) :
    numeral? whole =
      some (.integer (Nat.ofDigitChars 10 whole 0) ⟨by omega, by omega⟩) := by
  have hwhole := numeral?_whole false hwhole hlead hfits
  rw [integerOf, dif_pos ⟨rfl, hfits⟩] at hwhole
  exact hwhole

/-- **A negative integer is the number of its digits with its sign.** -/
theorem numeral?_negative (hwhole : AreDigits whole)
    (hlead : whole.head? = some '0' → whole = ['0'])
    (hpos : 0 < Nat.ofDigitChars 10 whole 0)
    (hfits : Nat.ofDigitChars 10 whole 0 ≤ 2 ^ (63 : Nat)) :
    numeral? ('-' :: whole) =
      some (.integer (-(Nat.ofDigitChars 10 whole 0)) ⟨by omega, by omega⟩) := by
  have hwhole := numeral?_whole true hwhole hlead (by omega)
  rw [integerOf, dif_neg (by simp), dif_pos ⟨rfl, hpos, hfits⟩] at hwhole
  exact hwhole

end HighlightBundle.Json
