import HighlightBundle.Json.Fault
import HighlightBundle.Json.Tree

/-!
# Numbers of JSON

A number is a sign, digits without a leading zero, and possibly a point with digits and an
exponent with digits. Without point and exponent it is an integer as long as it fits in sixty-four
bits; `-0` and everything else is a double.

The significand of a double is a natural number below `2 ^ 64`, which takes up digits as long as
it can (`absorb`). A digit of the integer part that it cannot take up any more counts as a zero,
which is a step of the exponent, and so do all integer digits after it; in the fractional part
the digits that it cannot take up are dropped.

The exponent takes up digits below `2 ^ 31`. One that is larger means zero or a number out of
range, and the latter is noticed at once, not at the end of the number.

A number that nobody wants is passed over by the grammar alone; its value is never out of range.
-/

namespace HighlightBundle.Json

-- powers of numbers are those of the core library, whatever else is in scope
attribute [local instance (2000)] instPowNat

/-- The value of a decimal digit. -/
def Symbol.digit? : Symbol → Option Nat
  | .char c => if '0' ≤ c ∧ c ≤ '9' then some (c.toNat - '0'.toNat) else none
  | .stray => none

/-- The digits at the front of a text and the text behind them. -/
def takeDigits : Text → List Nat × Text
  | [] => ([], [])
  | s :: rest =>
    match Symbol.digit? s with
    | some d => (d :: (takeDigits rest).1, (takeDigits rest).2)
    | none => ([], s :: rest)

/-- Takes up digits as long as the number stays within the limit; also gives the digits left. -/
def absorb (limit n : Nat) : List Nat → Nat × List Nat
  | [] => (n, [])
  | d :: ds => if 10 * n + d ≤ limit then absorb limit (10 * n + d) ds else (n, d :: ds)

/-- The largest significand. -/
def maxSignificand : Nat := 2 ^ (64 : Nat) - 1

/-- The largest exponent. -/
def maxExponent : Nat := 2 ^ (31 : Nat) - 1

/-- The double of a significand and an exponent, read off the text before `rest`. -/
def readDecimal (negative : Bool) (significand : Nat) (exponent : Int) :
    Reader Number := fun rest ↦
  match Binary64.ofDecimal? negative significand exponent with
  | some x => .ok (.double x, rest)
  | none => .error (.behindNumber .numberOutOfRange rest)

/-- The exponent behind its letter, for a significand that has an exponent already. -/
def readExponent (negative : Bool) (significand : Nat) (exponent : Int) :
    Reader Number := fun text ↦
  let (down, text) := match text with
    | .char '+' :: rest => (false, rest)
    | .char '-' :: rest => (true, rest)
    | _ => (false, text)
  match takeDigits text with
  | ([], []) => .error (.here .endInValue [])
  | ([], _ :: rest) => .error (.here .malformedNumber rest)
  | (digits, rest) =>
    match absorb maxExponent 0 digits with
    | (e, []) => readDecimal negative significand (if down then exponent - e else exponent + e) rest
    | (_, _ :: _) =>
      if significand ≠ 0 ∧ ¬down then .error (.here .numberOutOfRange rest)
      else .ok (.double (.zero negative), rest)

/-- The exponent, if there is one. -/
def readScale (negative : Bool) (significand : Nat) (exponent : Int) : Reader Number := fun text ↦
  match text with
  | .char 'e' :: rest | .char 'E' :: rest => readExponent negative significand exponent rest
  | _ => readDecimal negative significand exponent text

/-- The fractional part behind the point, for a significand that has an exponent already. -/
def readFraction (negative : Bool) (significand : Nat) (exponent : Int) :
    Reader Number := fun text ↦
  match takeDigits text with
  | ([], []) => .error (.here .endInValue [])
  | ([], _ :: rest) => .error (.here .malformedNumber rest)
  | (digits, rest) =>
    let (significand, dropped) := absorb maxSignificand significand digits
    readScale negative significand (exponent - (digits.length - dropped.length)) rest

/-- The integer of a sign and a significand; a double for `-0` and for what does not fit. -/
def integerOf (negative : Bool) (significand : Nat) : Option Number :=
  if h : negative = false ∧ significand < 2 ^ (64 : Nat) then
    some (.integer significand ⟨by omega, by omega⟩)
  else if h : negative = true ∧ 0 < significand ∧ significand ≤ 2 ^ (63 : Nat) then
    some (.integer (-significand) ⟨by omega, by omega⟩)
  else
    (Binary64.ofDecimal? negative significand 0).map .double

/-- What follows the digits of the integer part, of which `extra` were too many. -/
def readAfterInteger (negative : Bool) (significand extra : Nat) : Reader Number := fun text ↦
  match text with
  | .char '.' :: rest => readFraction negative significand extra rest
  | .char 'e' :: rest | .char 'E' :: rest => readExponent negative significand extra rest
  | _ =>
    if extra = 0 then
      match integerOf negative significand with
      | some n => .ok (n, text)
      | none => .error (.behindNumber .numberOutOfRange text)
    else readDecimal negative significand extra text

/-- The number behind its sign. -/
def readUnsigned (negative : Bool) : Reader Number := fun text ↦
  match takeDigits text with
  | ([], []) => .error (.here .endInValue [])
  | ([], _ :: rest) => .error (.here .malformedNumber rest)
  | (0 :: _ :: _, rest) => .error (.here .malformedNumber rest)
  | (digits, rest) =>
    let (significand, extra) := absorb maxSignificand 0 digits
    readAfterInteger negative significand extra.length rest

/-- A number. -/
def readNumber : Reader Number := fun text ↦
  match text with
  | .char '-' :: rest => readUnsigned true rest
  | _ => readUnsigned false text

/-! ## Passing over -/

/-- The text behind at least one digit; the fault is noticed at what stands there instead. -/
def skipDigits (text : Text) : Except Fault Text :=
  match takeDigits text with
  | ([], _) => .error (.next .malformedNumber text)
  | (_, rest) => .ok rest

/-- The text behind an exponent whose letter has been taken. -/
def skipExponent (text : Text) : Except Fault Text :=
  match text with
  | .char '+' :: rest | .char '-' :: rest => skipDigits rest
  | _ => skipDigits text

/-- The text behind a number that is passed over. -/
def skipNumber (text : Text) : Except Fault Text := do
  let text := match text with
    | .char '-' :: rest => rest
    | _ => text
  match takeDigits text with
  | ([], _) => .error (.next .malformedNumber text)
  | (0 :: _ :: _, rest) => .error (.here .malformedNumber rest)
  | (_, .char '.' :: rest) =>
    match ← skipDigits rest with
    | .char 'e' :: rest | .char 'E' :: rest => skipExponent rest
    | rest => return rest
  | (_, .char 'e' :: rest) | (_, .char 'E' :: rest) => skipExponent rest
  | (_, rest) => return rest

end HighlightBundle.Json
