import HighlightBundle.Number.Binary64

/-!
# The shortest decimal that reads back

A double is written with the fewest digits whose nearest double it is again. For a count of
digits there is a decimal grid, and of the points of that grid only the two neighbours of the
number can be nearest to it; the nearer one is tried first, and of two equally near ones the even
one. The first grid with a hit wins. Seventeen digits are always enough; should none of them be,
the exact value is written, so that what is written always reads back.

How the digits are laid out is a second decision, kept apart in `layout`: positional notation for
`1e-5 ≤ |x| < 1e16`, always with a point, and otherwise an exponent that always has a sign when it
is below zero or not, `1e-7` and `1e+16`. Zero keeps its sign.
-/

namespace HighlightBundle

-- powers of numbers are those of the core library, whatever else is in scope
attribute [local instance (2000)] instPowNat

/-- A decimal with the value `significand * 10 ^ exponent`. -/
structure Decimal where
  significand : Nat
  exponent : Int
deriving DecidableEq

/-- The decimal digits of a natural number. -/
def decimalDigits (n : Nat) : List Char :=
  Nat.toDigits 10 n

/-- The decimal text of an integer. -/
def decimalText (n : Int) : List Char :=
  match n with
  | .ofNat n => decimalDigits n
  | .negSucc n => '-' :: decimalDigits (n + 1)

namespace Decimal

/-- The decimal as a fraction: numerator and denominator. -/
def fraction (d : Decimal) : Nat × Nat :=
  match d.exponent with
  | .ofNat k => (d.significand * 10 ^ k, 1)
  | .negSucc k => (d.significand, 10 ^ (k + 1))

/-- The double nearest to the decimal. -/
def nearest? (d : Decimal) : Option Binary64 :=
  Binary64.nearest? false (d.fraction.1 * 2 ^ (1074 : Nat)) d.fraction.2

/-- The same value without zeros at the end of the significand, of which there are at most
`fuel`. -/
def strip : Nat → Decimal → Decimal
  | 0, d => d
  | fuel + 1, d =>
    if d.significand % 10 = 0 then strip fuel ⟨d.significand / 10, d.exponent + 1⟩ else d

/-- Positional notation for numbers from `1e-5` up to below `1e16`, an exponent for all others. -/
def layout (d : Decimal) : List Char :=
  let digits := decimalDigits d.significand
  let count := digits.length
  -- the point stands behind that many digits of the number
  let point := d.exponent + count
  if 0 ≤ d.exponent ∧ point ≤ 16 then
    digits ++ List.replicate d.exponent.toNat '0' ++ ".0".toList
  else if 0 < point ∧ point ≤ 16 then
    digits.take point.toNat ++ '.' :: digits.drop point.toNat
  else if -5 < point ∧ point ≤ 0 then
    "0.".toList ++ List.replicate (-point).toNat '0' ++ digits
  else
    let power := point - 1
    let fractional := if count ≤ 1 then [] else '.' :: digits.drop 1
    let sign := if 0 ≤ power then ['+'] else []
    digits.take 1 ++ fractional ++ 'e' :: sign ++ decimalText power

end Decimal

namespace Binary64

/-- The exponent of the leading decimal digit of `num / den`, which is above zero. -/
def leadingExponent (num den : Nat) : Int :=
  if den ≤ num then (decimalDigits (num / den)).length - 1
  else -(decimalDigits ((den + num - 1) / num - 1)).length

/-- The neighbours of `num / den` on the grid of the decimals with that exponent, the nearer one
first, the even one first of two equally near ones. -/
def neighbours (num den : Nat) (exponent : Int) : List Decimal :=
  let (n, d) := match exponent with
    | .ofNat k => (num, den * 10 ^ k)
    | .negSucc k => (num * 10 ^ (k + 1), den)
  let low := n / d
  if roundQuotient n d = low then [⟨low, exponent⟩, ⟨low + 1, exponent⟩]
  else [⟨low + 1, exponent⟩, ⟨low, exponent⟩]

/-- The decimal that has the exact value: a unit is `5 ^ 1074 * 10 ^ -1074`. -/
def exactDecimal (x : Binary64) : Decimal :=
  ⟨x.magnitude * 5 ^ (1074 : Nat), -1074⟩

/-- The decimal with the fewest digits whose nearest double is `x` without its sign. -/
def shortest (x : Binary64) : Decimal :=
  let num := x.magnitude
  let den := 2 ^ (1074 : Nat)
  let leading := leadingExponent num den
  let reads (d : Decimal) : Bool := d.nearest? == some (x.withSign false)
  let found := (List.range 17).findSome? fun (extra : Nat) ↦
    (neighbours num den (leading - extra)).find? reads
  (found.getD x.exactDecimal).strip 1200

/-- The text of a double. -/
def text (x : Binary64) : List Char :=
  let sign := if x.negative then ['-'] else []
  sign ++ if x.isZero then "0.0".toList else x.shortest.layout

/-! ### Where the notation changes -/

example : (ofDecimal? false 1 15).map text = some "1000000000000000.0".toList := by decide +kernel

example : (ofDecimal? false 1 16).map text = some "1e+16".toList := by decide +kernel

example : (ofDecimal? false 1 (-5)).map text = some "0.00001".toList := by decide +kernel

example : (ofDecimal? false 12 (-7)).map text = some "1.2e-6".toList := by decide +kernel

example : (ofDecimal? true 0 0).map text = some "-0.0".toList := by decide +kernel

example : (ofDecimal? false 5 (-324)).map text = some "5e-324".toList := by decide +kernel

end Binary64

end HighlightBundle
