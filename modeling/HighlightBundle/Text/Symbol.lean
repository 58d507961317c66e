/-!
# Texts as they come from files

A file holds bytes, and nothing promises that they are UTF-8. A `Text` is what a reader sees of
them: characters, and one `stray` for every byte that belongs to no character. Nothing is lost
in between that a reader of text can tell apart: strays have one byte each, and the bytes of a
character are those of its encoding, so counts of bytes and of lines are kept.

`Text.ofBytes` follows the definition of UTF-8: the shortest encodings only, no surrogates,
nothing above U+10FFFF. A byte that starts no such encoding is a stray, and reading goes on with
the byte after it.
-/

namespace HighlightBundle

/-- A character, or a byte that is part of none. -/
inductive Symbol where
  | char (c : Char)
  | stray
deriving DecidableEq, Repr

/-- A text, some bytes of which may be no characters. -/
abbrev Text := List Symbol

namespace Symbol

/-- How many bytes the symbol stands for. -/
def width : Symbol → Nat
  | .char c => c.utf8Size
  | .stray => 1

end Symbol

namespace Text

/-- The characters of a string. -/
def ofString (s : String) : Text :=
  s.toList.map Symbol.char

/-- How many newlines the text has. -/
def newlines (text : Text) : Nat :=
  text.count (.char '\n')

/-- How many bytes the text stands for. -/
def byteCount (text : Text) : Nat :=
  text.foldr (fun s count ↦ s.width + count) 0

/-- The text without the symbols that begin within its first `n` bytes. -/
def dropBytes (n : Nat) : Text → Text
  | [] => []
  | s :: rest => if n = 0 then s :: rest else dropBytes (n - s.width) rest

/-- A byte that continues an encoding. -/
def isTail (b : UInt8) : Bool :=
  b &&& 0xC0 == 0x80

/-- The six bits that a continuing byte holds. -/
def tailBits (b : UInt8) : Nat :=
  b.toNat % 64

/-- The character of a two-byte encoding. -/
def decodeTwo? (a b : UInt8) : Option Char :=
  if 0xC2 ≤ a && a ≤ 0xDF && isTail b then
    some (Char.ofNat (a.toNat % 32 * 64 + tailBits b))
  else none

/-- The character of a three-byte encoding: not one that two bytes could hold, no surrogate. -/
def decodeThree? (a b c : UInt8) : Option Char :=
  let n := a.toNat % 16 * 4096 + tailBits b * 64 + tailBits c
  if 0xE0 ≤ a && a ≤ 0xEF && isTail b && isTail c && 0x800 ≤ n && !(0xD800 ≤ n && n ≤ 0xDFFF) then
    some (Char.ofNat n)
  else none

/-- The character of a four-byte encoding: not one that three bytes could hold, within Unicode. -/
def decodeFour? (a b c d : UInt8) : Option Char :=
  let n := a.toNat % 8 * 262144 + tailBits b * 4096 + tailBits c * 64 + tailBits d
  if 0xF0 ≤ a && a ≤ 0xF4 && isTail b && isTail c && isTail d && 0x10000 ≤ n && n ≤ 0x10FFFF then
    some (Char.ofNat n)
  else none

/-- The character at the front of the bytes, with how many bytes its encoding has. -/
def decodeFront? : List UInt8 → Option (Char × Nat)
  | [] => none
  | a :: rest =>
    if a < 0x80 then some (Char.ofNat a.toNat, 1)
    else match rest with
      | b :: c :: d :: _ =>
        ((decodeTwo? a b).map (·, 2)) <|> ((decodeThree? a b c).map (·, 3))
          <|> ((decodeFour? a b c d).map (·, 4))
      | [b, c] => ((decodeTwo? a b).map (·, 2)) <|> ((decodeThree? a b c).map (·, 3))
      | [b] => (decodeTwo? a b).map (·, 2)
      | [] => none

/-- Reads the bytes, the first of which are already part of the last symbol. -/
def ofBytesAfter : Nat → List UInt8 → Text
  | _, [] => []
  | skipped + 1, _ :: rest => ofBytesAfter skipped rest
  | 0, b :: rest =>
    match decodeFront? (b :: rest) with
    | some (c, size) => .char c :: ofBytesAfter (size - 1) rest
    | none => .stray :: ofBytesAfter 0 rest

/-- The text that the bytes stand for. -/
def ofBytes (bytes : List UInt8) : Text :=
  ofBytesAfter 0 bytes

/-- Two characters, a surrogate in three bytes, and a byte that continues nothing. -/
example : ofBytes [0xC3, 0xA9, 0x41, 0xED, 0xA0, 0x80, 0xBF] =
    [.char 'é', .char 'A', .stray, .stray, .stray, .stray] := by decide

end Text

end HighlightBundle
