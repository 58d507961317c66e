import HighlightBundle.Json.Fields

/-!
# Records written as lists

A record with a fixed number of fields may also be written as the list of their values, in the
order in which the fields are declared. Such a list has to be complete, and nothing may follow its
last value; a record of the other form may have members that belong to no field, which are passed
over.
-/

namespace HighlightBundle.Json

/-- A record whose fields are read as a list of values. -/
structure Listed where
  /-- The name that messages use. -/
  name : String
  /-- How many fields it has. -/
  size : Nat

namespace Listed

/-- The value of the field number `index`, with the comma before it unless it is the first. -/
def readField {α : Type} (record : Listed) (index : Nat) (value : Reader α) :
    Reader α := fun text ↦
  match skipSpaces text with
  | [] => .error (.here .endInList [])
  | s :: rest =>
    if s = .char ']' then .error (.here (.wrongLength index record.name record.size) rest)
    else if index = 0 then value (s :: rest)
    else if s = .char ',' then
      match skipSpaces rest with
      | [] => .error (.here .endInValue [])
      | s :: rest =>
        if s = .char ']' then .error (.here .trailingComma rest) else value (s :: rest)
    else .error (.here .commaOrBracketExpected rest)

/-- The text behind the closing bracket, when all fields have been read. -/
def readClosing (text : Text) : Except Fault Text :=
  match skipSpaces text with
  | [] => .error (.here .endInList [])
  | s :: rest =>
    if s = .char ']' then .ok rest
    else if s = .char ',' then
      match skipSpaces rest with
      | [] => .error (.here .trailingCharacters [])
      | s :: rest =>
        .error (.here (if s = .char ']' then .trailingComma else .trailingCharacters) rest)
    else .error (.here .trailingCharacters rest)

end Listed

/-- A record: a list of its values, read by `values`, or an object, read by `members`. -/
def readRecord {α : Type} (values : Nat → Reader α) (members : Nat → Reader α) (depth : Nat) :
    Reader α := fun text ↦
  match skipSpaces text with
  | .char '[' :: rest =>
    match depth with
    | 0 => .error (.here .tooDeep rest)
    | depth + 1 => do
      let (x, rest) ← values depth rest
      return (x, ← Listed.readClosing rest)
  | text => members depth text

/-- A member that belongs to no field: the state stays as it is. -/
def skippedMember {σ : Type} (state : σ) : Reader σ := fun text ↦ do
  let text ← readColon text
  return (state, ← skipTree text)

end HighlightBundle.Json
