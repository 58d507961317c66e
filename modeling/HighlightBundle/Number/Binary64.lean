/-!
# Finite binary floating point with 53 bits

A number of a definition that is not an integer is kept as the double that stands for it.
`Binary64` holds the finite ones as a sign, a significand and a scale, and counts in *units* of
`2 ^ -1074`, the distance between the smallest ones: the magnitude is `significand * 2 ^ scale`
units. One pair stands for each magnitude, because a scale above zero goes with a significand of
full length; the sign of zero is kept.

Arithmetic is exact arithmetic of natural numbers followed by one rounding, `nearest?`: to the
nearest double, a tie to the even significand, and no answer beyond the largest one.

## A decimal is read in two roundings

`ofDecimal?` makes a double of `significand * 10 ^ exponent` the quick way: the significand is
rounded first, then multiplied or divided by a power of ten which is itself rounded. That is
exact when the significand has at most 53 bits and the power at most 22 zeros, and can be off by
one unit in the last place otherwise. A power of ten below the smallest one that a double holds
is divided by in two steps, and whatever is smaller than that is zero.
-/

namespace HighlightBundle

-- powers of numbers are those of the core library, whatever else is in scope
attribute [local instance (2000)] instPowNat

/-- A finite double: `significand * 2 ^ scale` units of `2 ^ -1074`, with a sign. -/
structure Binary64 where
  negative : Bool
  significand : Nat
  scale : Nat
  significand_lt : significand < 2 ^ (53 : Nat)
  scale_le : scale ≤ 2045
  full_or_zero : scale = 0 ∨ 2 ^ (52 : Nat) ≤ significand
deriving DecidableEq

/-- The quotient rounded to the nearest natural number, a tie to the even one. -/
def roundQuotient (num den : Nat) : Nat :=
  let low := num / den
  let rest := num % den
  if 2 * rest < den ∨ (2 * rest = den ∧ low % 2 = 0) then low else low + 1

theorem le_roundQuotient (num den : Nat) : num / den ≤ roundQuotient num den := by
  simp only [roundQuotient]
  split <;> omega

namespace Binary64

/-- How many units the number is away from zero. -/
def magnitude (x : Binary64) : Nat :=
  x.significand * 2 ^ x.scale

/-- Zero, with a sign. -/
def zero (negative : Bool) : Binary64 :=
  ⟨negative, 0, 0, by decide, by decide, .inl rfl⟩

/-- Both zeros are zero. -/
def isZero (x : Binary64) : Bool :=
  x.significand == 0

/-- The number with the sign given. -/
def withSign (negative : Bool) (x : Binary64) : Binary64 :=
  { x with negative := negative }

/-- The scale at which a magnitude of that many whole units has 53 bits, or zero. -/
def scaleOf (units : Nat) : Nat :=
  units.log2 - 52

theorem full_or_zero_of_scaleOf (num den : Nat) :
    scaleOf (num / den) = 0 ∨
      2 ^ (52 : Nat) ≤ roundQuotient num (den * 2 ^ scaleOf (num / den)) := by
  by_cases h : scaleOf (num / den) = 0
  · exact .inl h
  · right
    have hlog : (num / den).log2 = scaleOf (num / den) + 52 := by
      unfold scaleOf at h ⊢
      omega
    have hne : num / den ≠ 0 := by
      intro h0
      rw [h0] at hlog
      simp at hlog
    have hle := Nat.log2_self_le hne
    rw [hlog, Nat.pow_add, Nat.mul_comm] at hle
    calc 2 ^ (52 : Nat) ≤ num / den / 2 ^ scaleOf (num / den) :=
          (Nat.le_div_iff_mul_le (Nat.two_pow_pos _)).2 hle
      _ = num / (den * 2 ^ scaleOf (num / den)) := Nat.div_div_eq_div_mul ..
      _ ≤ _ := le_roundQuotient _ _

/-- The double nearest to `num / den` units, a tie going to the even significand; none when that
is beyond the largest double. -/
def nearest? (negative : Bool) (num den : Nat) : Option Binary64 :=
  let scale := scaleOf (num / den)
  let significand := roundQuotient num (den * 2 ^ scale)
  if hs : significand < 2 ^ (53 : Nat) then
    if hc : scale ≤ 2045 then
      some ⟨negative, significand, scale, hs, hc, full_or_zero_of_scaleOf num den⟩
    else none
  else if hc : scale + 1 ≤ 2045 then
    some ⟨negative, 2 ^ (52 : Nat), scale + 1, by decide, hc, .inr (Nat.le_refl _)⟩
  else none

/-- The double nearest to a natural number. -/
def ofNat? (n : Nat) : Option Binary64 :=
  nearest? false (n * 2 ^ (1074 : Nat)) 1

/-- The product, rounded once. -/
def mul? (x y : Binary64) : Option Binary64 :=
  nearest? (x.negative != y.negative) (x.magnitude * y.magnitude) (2 ^ (1074 : Nat))

/-- The quotient, rounded once; none for division by zero. -/
def div? (x y : Binary64) : Option Binary64 :=
  if y.isZero then none
  else nearest? (x.negative != y.negative) (x.magnitude * 2 ^ (1074 : Nat)) y.magnitude

/-- The double nearest to a power of ten. -/
def powerOfTen? (k : Nat) : Option Binary64 :=
  ofNat? (10 ^ k)

/-- The largest exponent whose power of ten is a double. -/
def maxPowerOfTen : Nat := 308

/-- `x / 10 ^ k`, by at most two divisions by a power of ten that is a double; zero when those
are not enough. -/
def divPowerOfTen? (x : Binary64) (k : Nat) : Option Binary64 := do
  if k ≤ maxPowerOfTen then
    x.div? (← powerOfTen? k)
  else if k ≤ 2 * maxPowerOfTen then
    let small ← x.div? (← powerOfTen? maxPowerOfTen)
    small.div? (← powerOfTen? (k - maxPowerOfTen))
  else
    some (zero x.negative)

/-- `x * 10 ^ k`; none beyond the largest double. -/
def mulPowerOfTen? (x : Binary64) (k : Nat) : Option Binary64 := do
  if k ≤ maxPowerOfTen then
    x.mul? (← powerOfTen? k)
  else if x.isZero then
    some x
  else
    none

/-- The double read for a decimal: the significand is rounded, then scaled by a rounded power of
ten. None when that is beyond the largest double. -/
def ofDecimal? (negative : Bool) (significand : Nat) (exponent : Int) : Option Binary64 := do
  let x ← ofNat? significand
  let scaled ← match exponent with
    | .ofNat k => x.mulPowerOfTen? k
    | .negSucc k => x.divPowerOfTen? (k + 1)
  return scaled.withSign negative

/-- Equality of numbers: the two zeros are one number. -/
def agrees (x y : Binary64) : Bool :=
  (x.isZero && y.isZero) || x == y

end Binary64

end HighlightBundle
