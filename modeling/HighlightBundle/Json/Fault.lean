import HighlightBundle.Number.Shortest
import HighlightBundle.Text.Quoted
import HighlightBundle.Text.Symbol

/-!
# What is wrong with a text

A text is read from left to right into the type it should have, and the first thing that does not
fit is reported. A `Fault` is a cause and the place where it was noticed; the place is kept as
what is left of the text, so the line is known only when the whole text is put beside it
(`Fault.line`). Reading itself never counts lines.

## Places

The place of a fault is behind the symbol that shows it. A fault that shows only in what comes
*next*, because the end of a number has been looked for, has that next symbol marked as looked at:
a source that is read as a stream has taken it already, and when it is a newline the line after it
is reported. A text held in memory is where the number ends.

## Causes

Three categories: the text ends too early, the text is no JSON, or it is JSON that does not fit.
The wording of each cause is part of the answers, and `Cause.message` holds all of it.
-/

namespace HighlightBundle.Json

/-- What stands where something else was expected. -/
inductive Found where
  | null
  | boolean (b : Bool)
  | integer (n : Int)
  | double (x : Binary64)
  | string (s : String)
  | sequence
  | map
deriving DecidableEq

/-- What was expected. -/
inductive Expected where
  | string
  | sequence
  | map
  | unit
  /-- An integer of eight bits without sign. -/
  | byte
  /-- An integer of sixty-four bits without sign. -/
  | word
  /-- An object with the fields of the type of that name. -/
  | record (name : String)
deriving DecidableEq

/-- Why a text cannot be read. -/
inductive Cause where
  | endInValue
  | endInObject
  | endInList
  | endInString
  | valueExpected
  | identExpected
  | colonExpected
  | commaOrBraceExpected
  | commaOrBracketExpected
  | keyExpected
  | trailingComma
  | trailingCharacters
  | malformedNumber
  | numberOutOfRange
  | unknownEscape
  | surrogateUnpaired
  | surrogateAlone
  | controlInString
  | stringNotUnicode
  | tooDeep
  | missingField (name : String)
  | duplicateField (name : String)
  | wrongType (found : Found) (expected : Expected)
  | wrongInteger (n : Int) (expected : Expected)
  | unknownVariant (name : String) (known : List String)
  | wrongLength (n : Nat) (record : String) (size : Nat)
deriving DecidableEq

/-- The kinds of causes. -/
inductive Category where
  | syntactic
  | eof
  | data
deriving DecidableEq

namespace Found

/-- How a message names what it met. -/
def text : Found → String
  | null => "null"
  | boolean b => s!"boolean `{b}`"
  | integer n => s!"integer `{String.ofList (decimalText n)}`"
  | double x => s!"floating point `{String.ofList x.text}`"
  | string s => s!"string {quoted s}"
  | sequence => "sequence"
  | map => "map"

end Found

namespace Expected

/-- How a message names what it wants. -/
def text : Expected → String
  | string => "a string"
  | sequence => "a sequence"
  | map => "a map"
  | unit => "unit"
  | byte => "u8"
  | word => "usize"
  | record name => s!"struct {name}"

end Expected

namespace Cause

/-- The names, each between grave accents, with `or` between them. -/
def alternatives (names : List String) : String :=
  " or ".intercalate (names.map fun name ↦ s!"`{name}`")

/-- The wording of a cause. -/
def message : Cause → String
  | endInValue => "EOF while parsing a value"
  | endInObject => "EOF while parsing an object"
  | endInList => "EOF while parsing a list"
  | endInString => "EOF while parsing a string"
  | valueExpected => "expected value"
  | identExpected => "expected ident"
  | colonExpected => "expected `:`"
  | commaOrBraceExpected => "expected `,` or `\x7d`"
  | commaOrBracketExpected => "expected `,` or `]`"
  | keyExpected => "key must be a string"
  | trailingComma => "trailing comma"
  | trailingCharacters => "trailing characters"
  | malformedNumber => "invalid number"
  | numberOutOfRange => "number out of range"
  | unknownEscape => "invalid escape"
  | surrogateUnpaired => "unexpected end of hex escape"
  | surrogateAlone => "lone leading surrogate in hex escape"
  | controlInString => "control character (\\u0000-\\u001F) found while parsing a string"
  | stringNotUnicode => "invalid unicode code point"
  | tooDeep => "recursion limit exceeded"
  | missingField name => s!"missing field `{name}`"
  | duplicateField name => s!"duplicate field `{name}`"
  | wrongType found expected => s!"invalid type: {found.text}, expected {expected.text}"
  | wrongInteger n expected =>
    s!"invalid value: {(Found.integer n).text}, expected {expected.text}"
  | unknownVariant name known => s!"unknown variant `{name}`, expected {alternatives known}"
  | wrongLength n record size =>
    s!"invalid length {n}, expected struct {record} with {size} elements"

/-- The kind of a cause. -/
def category : Cause → Category
  | endInValue | endInObject | endInList | endInString => .eof
  | missingField _ | duplicateField _ | wrongType _ _ | wrongInteger _ _ | unknownVariant _ _
  | wrongLength _ _ _ => .data
  | _ => .syntactic

end Cause

/-- A cause and the place where it was noticed. -/
structure Fault where
  cause : Cause
  /-- The text behind the place. -/
  rest : Text
  /-- The next symbol has been looked at to find the end of a number. -/
  ahead : Bool
deriving DecidableEq

namespace Fault

/-- A fault that shows at the place before `rest`. -/
def here (cause : Cause) (rest : Text) : Fault := ⟨cause, rest, false⟩

/-- A fault that the next symbol shows. -/
def next (cause : Cause) (rest : Text) : Fault := ⟨cause, rest.drop 1, false⟩

/-- A fault found behind a number, whose end has been looked for. -/
def behindNumber (cause : Cause) (rest : Text) : Fault := ⟨cause, rest, true⟩

/-- What a reader of a stream has not yet taken when the fault is noticed. -/
def unread (fault : Fault) (streamed : Bool) : Text :=
  if streamed && fault.ahead then fault.rest.drop 1 else fault.rest

/-- The line of a fault in the whole text, counted from one. -/
def line (fault : Fault) (streamed : Bool) (whole : Text) : Nat :=
  1 + (whole.newlines - (fault.unread streamed).newlines)

end Fault

/-- A reader takes a value from the front of a text and leaves the rest. -/
abbrev Reader (α : Type) := Text → Except Fault (α × Text)

end HighlightBundle.Json
