import HighlightBundle.Json.Brackets

/-!
# Reading any value

`readTree` reads whatever stands there, with all its members in the order of the text. The number
of brackets that may be open at once is limited, and the reader is told how many more it may open;
a whole text may open `depthLimit` of them.
-/

namespace HighlightBundle.Json

/-- How many brackets a text may have open at once. -/
def depthLimit : Nat := 127

/-- A member of any value, added behind the ones before it. -/
def treeMember (value : Reader Tree) (done : List (String × Tree)) (key : String) :
    Reader (List (String × Tree)) := fun text ↦ do
  let text ← readColon text
  let (t, rest) ← value text
  return (done ++ [(key, t)], rest)

/-- A value that opens no bracket, from its first symbol on. -/
def readScalar : Reader Tree := fun text ↦
  match text with
  | [] => .error (.here .endInValue [])
  | .stray :: rest => .error (.here .valueExpected rest)
  | .char c :: rest =>
    if c = '"' then do
      let (s, rest) ← readStringBody rest
      return (.string s, rest)
    else if c = '-' ∨ ('0' ≤ c ∧ c ≤ '9') then do
      let (n, rest) ← readNumber (.char c :: rest)
      return (.number n, rest)
    else if c = 'n' then do
      let rest ← readWord ['u', 'l', 'l'] rest
      return (.null, rest)
    else if c = 't' then do
      let rest ← readWord ['r', 'u', 'e'] rest
      return (.boolean true, rest)
    else if c = 'f' then do
      let rest ← readWord ['a', 'l', 's', 'e'] rest
      return (.boolean false, rest)
    else .error (.here .valueExpected rest)

/-- A value, with at most `depth` brackets open at once. -/
def readTree : (depth : Nat) → Reader Tree
  | 0, text =>
    match skipSpaces text with
    | .char '[' :: rest | .char '\x7b' :: rest => .error (.here .tooDeep rest)
    | text => readScalar text
  | depth + 1, text =>
    match skipSpaces text with
    | .char '[' :: rest => do
      let (items, rest) ← itemsOf (readTree depth) rest
      return (.array items, rest)
    | .char '\x7b' :: rest => do
      let (members, rest) ← membersOf (treeMember (readTree depth)) [] rest
      return (.object members, rest)
    | text => readScalar text

/-- The tree that a whole text says. -/
def readDocument (text : Text) : Except Fault Tree :=
  readWhole (readTree depthLimit) text

/-! ## Passing over a value -/

/-- The text behind the items of a list that is passed over. A comma is followed by a value, not
by the closing bracket. -/
def skipItems (item : Text → Except Fault Text) : (fuel : Nat) → (first : Bool) → Text →
    Except Fault Text
  | 0, _, _ => .error (.here .endInList [])
  | fuel + 1, first, text =>
    match skipSpaces text with
    | [] => .error (.here .endInList [])
    | s :: rest =>
      if s = .char ']' then .ok rest
      else if first then do skipItems item fuel false (← item (s :: rest))
      else if s = .char ',' then do skipItems item fuel false (← item rest)
      else .error (.here .commaOrBracketExpected rest)

/-- The text behind a member that is passed over: a key, a colon and a value. -/
def skipMember (value : Text → Except Fault Text) (text : Text) : Except Fault Text :=
  match skipSpaces text with
  | [] => .error (.here .endInObject [])
  | s :: rest =>
    if s = .char '"' then do
      let rest ← skipStringBody rest
      let rest ← readColon rest
      value rest
    else .error (.here .keyExpected rest)

/-- The text behind the members of an object that is passed over. -/
def skipMembers (value : Text → Except Fault Text) : (fuel : Nat) → (first : Bool) → Text →
    Except Fault Text
  | 0, _, _ => .error (.here .endInObject [])
  | fuel + 1, first, text =>
    match skipSpaces text with
    | [] => .error (.here .endInObject [])
    | s :: rest =>
      if s = .char '\x7d' then .ok rest
      else if first then do skipMembers value fuel false (← skipMember value (s :: rest))
      else if s = .char ',' then do skipMembers value fuel false (← skipMember value rest)
      else .error (.here .commaOrBraceExpected rest)

/-- The text behind a value that opens no bracket and is passed over, from its first symbol on. -/
def skipScalar (text : Text) : Except Fault Text :=
  match text with
  | [] => .error (.here .endInValue [])
  | .stray :: rest => .error (.here .valueExpected rest)
  | .char c :: rest =>
    if c = '"' then skipStringBody rest
    else if c = '-' ∨ ('0' ≤ c ∧ c ≤ '9') then skipNumber (.char c :: rest)
    else if c = 'n' then readWord ['u', 'l', 'l'] rest
    else if c = 't' then readWord ['r', 'u', 'e'] rest
    else if c = 'f' then readWord ['a', 'l', 's', 'e'] rest
    else .error (.here .valueExpected rest)

/-- The text behind a value that is passed over, with at most `depth` brackets open at once. -/
def skipNested : (depth : Nat) → Text → Except Fault Text
  | 0, text => skipScalar (skipSpaces text)
  | depth + 1, text =>
    match skipSpaces text with
    | .char '[' :: rest => skipItems (skipNested depth) (rest.length + 1) true rest
    | .char '\x7b' :: rest => skipMembers (skipNested depth) (rest.length + 1) true rest
    | text => skipScalar text

/-- The text behind a value that is passed over. Brackets may be open to any depth: a text cannot
open more of them than it has symbols. -/
def skipTree (text : Text) : Except Fault Text :=
  skipNested text.length text

end HighlightBundle.Json
