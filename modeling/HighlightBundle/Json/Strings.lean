import HighlightBundle.Json.Fault

/-!
# Strings of JSON

Reading starts behind the opening quote and ends behind the closing one. Between them stand
characters as they are, and escapes: a backslash with one of eight letters, or `\u` with four
hexadecimal digits, two of which in a row stand for one character when they are a leading and a
trailing surrogate. A character below the space has to be escaped.

What is read is a `Text` first, because a byte that belongs to no character is found out only when
the string is complete: every other fault in the string comes before it.

A string that nobody wants is passed over by the same rules, only that neither surrogates nor
stray bytes matter there, and that the fault of an unescaped control is noticed before it.

Writing escapes the quote, the backslash and the controls, and nothing else.
-/

namespace HighlightBundle.Json

/-- A character that has to be escaped. -/
def isControl (c : Char) : Bool :=
  c.toNat < 0x20

/-- The value of a hexadecimal digit. -/
def hexValue? (c : Char) : Option Nat :=
  if '0' ≤ c ∧ c ≤ '9' then some (c.toNat - '0'.toNat)
  else if 'a' ≤ c ∧ c ≤ 'f' then some (c.toNat - 'a'.toNat + 10)
  else if 'A' ≤ c ∧ c ≤ 'F' then some (c.toNat - 'A'.toNat + 10)
  else none

/-- The value of a hexadecimal digit. -/
def Symbol.hexValue? : Symbol → Option Nat
  | .char c => Json.hexValue? c
  | .stray => none

/-- The sixteen bits that four hexadecimal digits stand for. -/
def hexUnit? (a b c d : Symbol) : Option Nat := do
  return 4096 * (← Symbol.hexValue? a) + 256 * (← Symbol.hexValue? b)
    + 16 * (← Symbol.hexValue? c) + (← Symbol.hexValue? d)

/-- The first half of a pair of surrogates. -/
def isLeading (unit : Nat) : Bool :=
  0xD800 ≤ unit && unit ≤ 0xDBFF

/-- The second half of a pair of surrogates. -/
def isTrailing (unit : Nat) : Bool :=
  0xDC00 ≤ unit && unit ≤ 0xDFFF

/-- The character that a pair of surrogates stands for. -/
def ofSurrogates (leading trailing : Nat) : Char :=
  Char.ofNat ((leading - 0xD800) * 1024 + (trailing - 0xDC00) + 0x10000)

/-- The character that a letter behind a backslash stands for. -/
def escaped? : Char → Option Char
  | '"' => some '"'
  | '\\' => some '\\'
  | '/' => some '/'
  | 'b' => some '\x08'
  | 'f' => some '\x0c'
  | 'n' => some '\n'
  | 'r' => some '\r'
  | 't' => some '\t'
  | _ => none

/-- The fault of what should be four hexadecimal digits: four bytes are taken, or the text ends. -/
def hexFault (text : Text) : Fault :=
  if text.byteCount < 4 then .here .endInString []
  else .here .unknownEscape (text.dropBytes 4)

/-! ## Reading -/

/-- What a string says, up to its closing quote, and the text behind it. -/
def readCharacters : Text → Except Fault (Text × Text)
  | [] => .error (.here .endInString [])
  | .stray :: rest => do
    let (more, rest) ← readCharacters rest
    return (.stray :: more, rest)
  | .char c :: rest =>
    if c = '"' then .ok ([], rest)
    else if c = '\\' then
      match rest with
      | [] => .error (.here .endInString [])
      | .stray :: rest => .error (.here .unknownEscape rest)
      | .char e :: rest =>
        if e = 'u' then
          match rest with
          | a :: b :: c :: d :: rest =>
            match hexUnit? a b c d with
            | none => .error (hexFault (a :: b :: c :: d :: rest))
            | some unit =>
              if isTrailing unit then .error (.here .surrogateAlone rest)
              else if isLeading unit then
                match rest with
                | [] => .error (.here .endInString [])
                | s :: rest =>
                  if s = .char '\\' then
                    match rest with
                    | [] => .error (.here .endInString [])
                    | s :: rest =>
                      if s = .char 'u' then
                        match rest with
                        | a :: b :: c :: d :: rest =>
                          match hexUnit? a b c d with
                          | none => .error (hexFault (a :: b :: c :: d :: rest))
                          | some second =>
                            if isTrailing second then do
                              let (more, rest) ← readCharacters rest
                              return (.char (ofSurrogates unit second) :: more, rest)
                            else .error (.here .surrogateAlone rest)
                        | short => .error (hexFault short)
                      else .error (.here .surrogateUnpaired rest)
                  else .error (.here .surrogateUnpaired rest)
              else do
                let (more, rest) ← readCharacters rest
                return (.char (Char.ofNat unit) :: more, rest)
          | short => .error (hexFault short)
        else
          match escaped? e with
          | none => .error (.here .unknownEscape rest)
          | some e => do
            let (more, rest) ← readCharacters rest
            return (.char e :: more, rest)
    else if isControl c then .error (.here .controlInString rest)
    else do
      let (more, rest) ← readCharacters rest
      return (.char c :: more, rest)

/-- The characters of a text without strays. -/
def characters? : Text → Option (List Char)
  | [] => some []
  | .char c :: rest => (characters? rest).map (c :: ·)
  | .stray :: _ => none

/-- The string whose opening quote has been taken. -/
def readStringBody : Reader String := fun text ↦ do
  let (said, rest) ← readCharacters text
  match characters? said with
  | some cs => return (String.ofList cs, rest)
  | none => .error (.here .stringNotUnicode rest)

/-- The text behind a string that is passed over, whose opening quote has been taken. -/
def skipStringBody : Text → Except Fault Text
  | [] => .error (.here .endInString [])
  | .stray :: rest => skipStringBody rest
  | .char c :: rest =>
    if c = '"' then .ok rest
    else if c = '\\' then
      match rest with
      | [] => .error (.here .endInString [])
      | .stray :: rest => .error (.here .unknownEscape rest)
      | .char e :: rest =>
        if e = 'u' then
          match rest with
          | a :: b :: c :: d :: rest =>
            match hexUnit? a b c d with
            | none => .error (hexFault (a :: b :: c :: d :: rest))
            | some _ => skipStringBody rest
          | short => .error (hexFault short)
        else
          match escaped? e with
          | none => .error (.here .unknownEscape rest)
          | some _ => skipStringBody rest
    else if isControl c then .error (.here .controlInString (.char c :: rest))
    else skipStringBody rest

/-! ## Writing -/

/-- How a character is written inside a string. -/
def writtenChar (c : Char) : List Char :=
  match c with
  | '"' => ['\\', '"']
  | '\\' => ['\\', '\\']
  | '\x08' => ['\\', 'b']
  | '\x0c' => ['\\', 'f']
  | '\n' => ['\\', 'n']
  | '\r' => ['\\', 'r']
  | '\t' => ['\\', 't']
  | c =>
    if isControl c then
      ['\\', 'u', '0', '0'] ++ [Nat.digitChar (c.toNat / 16), Nat.digitChar (c.toNat % 16)]
    else [c]

/-- The string between quotes. -/
def writeString (s : String) : List Char :=
  '"' :: s.toList.flatMap writtenChar ++ ['"']

end HighlightBundle.Json
