import HighlightBundle.Json.Numerals
import HighlightBundle.Json.Strings

/-!
# Lists and objects of JSON

The shape of lists and objects is the same whatever is read from them, so it is written once, over
the reader of an item (`readItems`) or over what a member does to a state (`readMembers`). Both
start behind the opening bracket and end behind the closing one.

A member is given its key only, and takes the colon itself: a key that must not occur twice is
refused before the colon is looked for.

Each round of these loops takes at least one symbol, so the length of the text bounds their
number; `fuel` is that bound, and `itemsOf` and `membersOf` provide it.
-/

namespace HighlightBundle.Json

/-- Space, tab, newline and carriage return may stand between tokens. -/
def isSpace : Symbol → Bool
  | .char c => c == ' ' || c == '\t' || c == '\n' || c == '\r'
  | .stray => false

/-- The text from the first symbol that is no space. -/
def skipSpaces (text : Text) : Text :=
  text.dropWhile isSpace

/-- The text behind the rest of a word whose first letter has been taken. -/
def readWord : List Char → Text → Except Fault Text
  | [], text => .ok text
  | _ :: _, [] => .error (.here .endInValue [])
  | c :: cs, s :: rest =>
    if s = .char c then readWord cs rest else .error (.here .identExpected rest)

/-- The text behind a colon. -/
def readColon (text : Text) : Except Fault Text :=
  match skipSpaces text with
  | [] => .error (.here .endInObject [])
  | s :: rest => if s = .char ':' then .ok rest else .error (.here .colonExpected rest)

/-! ## Lists -/

/-- Items up to the closing bracket. The first one has no comma before it. -/
def readItems {α : Type} (item : Reader α) : (fuel : Nat) → (first : Bool) → Reader (List α)
  | 0, _, _ => .error (.here .endInList [])
  | fuel + 1, first, text =>
    match skipSpaces text with
    | [] => .error (.here .endInList [])
    | s :: rest =>
      if s = .char ']' then .ok ([], rest)
      else if first then do
        let (x, rest) ← item (s :: rest)
        let (xs, rest) ← readItems item fuel false rest
        return (x :: xs, rest)
      else if s = .char ',' then
        match skipSpaces rest with
        | [] => .error (.here .endInValue [])
        | s :: rest =>
          if s = .char ']' then .error (.here .trailingComma rest)
          else do
            let (x, rest) ← item (s :: rest)
            let (xs, rest) ← readItems item fuel false rest
            return (x :: xs, rest)
      else .error (.here .commaOrBracketExpected rest)

/-- The items of a list whose opening bracket has been taken. -/
def itemsOf {α : Type} (item : Reader α) : Reader (List α) := fun text ↦
  readItems item (text.length + 1) true text

/-! ## Objects -/

/-- Members up to the closing brace, each changing the state. -/
def readMembers {σ : Type} (member : σ → String → Reader σ) :
    (fuel : Nat) → (first : Bool) → σ → Reader σ
  | 0, _, _, _ => .error (.here .endInObject [])
  | fuel + 1, first, state, text =>
    match skipSpaces text with
    | [] => .error (.here .endInObject [])
    | s :: rest =>
      if s = .char '\x7d' then .ok (state, rest)
      else if first then
        if s = .char '"' then do
          let (key, rest) ← readStringBody rest
          let (state, rest) ← member state key rest
          readMembers member fuel false state rest
        else .error (.here .keyExpected rest)
      else if s = .char ',' then
        match skipSpaces rest with
        | [] => .error (.here .endInValue [])
        | s :: rest =>
          if s = .char '"' then do
            let (key, rest) ← readStringBody rest
            let (state, rest) ← member state key rest
            readMembers member fuel false state rest
          else if s = .char '\x7d' then .error (.here .trailingComma rest)
          else .error (.here .keyExpected rest)
      else .error (.here .commaOrBraceExpected rest)

/-- The state after the members of an object whose opening brace has been taken. -/
def membersOf {σ : Type} (member : σ → String → Reader σ) (state : σ) : Reader σ := fun text ↦
  readMembers member (text.length + 1) true state text

/-! ## Whole texts -/

/-- Reads a whole text, behind which only spaces may stand. -/
def readWhole {α : Type} (reader : Reader α) (text : Text) : Except Fault α := do
  let (x, rest) ← reader text
  match skipSpaces rest with
  | [] => return x
  | _ :: rest => .error (.here .trailingCharacters rest)

end HighlightBundle.Json
