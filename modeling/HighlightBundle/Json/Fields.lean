import HighlightBundle.Json.Untyped

/-!
# Reading what is expected

A field has a type, and its value is read into that type directly. What does not fit is reported
at once: at the opening bracket for a list or an object, and for anything else after the value has
been read, since a malformed value is reported as malformed (`mismatch`).

`setOnce` reads the value of a field that may occur only once: the second occurrence is refused as
soon as its key is read, at the next symbol that is no space.
-/

namespace HighlightBundle.Json

/-- The fault of finding something else than what was expected, from its first symbol on. -/
def mismatch (expected : Expected) (text : Text) : Fault :=
  match text with
  | .char '[' :: _ => .here (.wrongType .sequence expected) text
  | .char '\x7b' :: _ => .here (.wrongType .map expected) text
  | _ =>
    match readScalar text with
    | .error fault => fault
    | .ok (.null, rest) => .here (.wrongType .null expected) rest
    | .ok (.boolean b, rest) => .here (.wrongType (.boolean b) expected) rest
    | .ok (.number (.integer n _), rest) => .behindNumber (.wrongType (.integer n) expected) rest
    | .ok (.number (.double x), rest) => .behindNumber (.wrongType (.double x) expected) rest
    | .ok (.string s, rest) => .here (.wrongType (.string s) expected) rest
    | .ok (.array _, rest) | .ok (.object _, rest) => .here .valueExpected rest

/-- A string. -/
def readString : Reader String := fun text ↦
  match skipSpaces text with
  | .char '"' :: rest => readStringBody rest
  | text => .error (mismatch .string text)

/-- A string, or null for none. -/
def readOptionalString : Reader (Option String) := fun text ↦
  match skipSpaces text with
  | .char 'n' :: rest => do
    let rest ← readWord ['u', 'l', 'l'] rest
    return (none, rest)
  | text => do
    let (s, rest) ← readString text
    return (some s, rest)

/-- Null. -/
def readNull : Reader Unit := fun text ↦
  match skipSpaces text with
  | .char 'n' :: rest => do
    let rest ← readWord ['u', 'l', 'l'] rest
    return ((), rest)
  | text => .error (mismatch .unit text)

/-- A list, with at most `depth` brackets open at once. Its items are read one level deeper. -/
def readList {α : Type} (item : Nat → Reader α) (depth : Nat) : Reader (List α) := fun text ↦
  match skipSpaces text with
  | .char '[' :: rest =>
    match depth with
    | 0 => .error (.here .tooDeep rest)
    | depth + 1 => itemsOf (item depth) rest
  | text => .error (mismatch .sequence text)

/-- A list of strings. -/
def readStrings (depth : Nat) : Reader (List String) :=
  readList (fun _ ↦ readString) depth

/-- An object whose members change a state, which `finish` turns into a value when the closing
brace has been taken. -/
def readObject {σ α : Type} (expected : Expected) (start : σ) (member : Nat → σ → String → Reader σ)
    (finish : σ → Except Cause α) (depth : Nat) : Reader α := fun text ↦
  match skipSpaces text with
  | .char '\x7b' :: rest =>
    match depth with
    | 0 => .error (.here .tooDeep rest)
    | depth + 1 => do
      let (state, rest) ← membersOf (member depth) start rest
      match finish state with
      | .ok x => return (x, rest)
      | .error cause => .error (.here cause rest)
  | text => .error (mismatch expected text)

/-- An integer without sign up to a largest one. -/
def readNatural (expected : Expected) (largest : Nat) : Reader Nat := fun text ↦
  match skipSpaces text with
  | .char c :: rest =>
    if c = '-' ∨ ('0' ≤ c ∧ c ≤ '9') then do
      let (n, rest) ← readNumber (.char c :: rest)
      match n with
      | .double x => .error (.behindNumber (.wrongType (.double x) expected) rest)
      | .integer n _ =>
        if 0 ≤ n ∧ n ≤ largest then return (n.toNat, rest)
        else .error (.behindNumber (.wrongInteger n expected) rest)
    else .error (mismatch expected (.char c :: rest))
  | text => .error (mismatch expected text)

/-- The value of a field that has not occurred before. -/
def setOnce {α : Type} (name : String) (before : Option α) (value : Reader α) :
    Reader α := fun text ↦
  match before with
  | some _ => .error (.here (.duplicateField name) (skipSpaces text))
  | none => do
    let text ← readColon text
    value text

/-- The value of a field that has to be there. -/
def required {α : Type} (name : String) : Option α → Except Cause α
  | some x => .ok x
  | none => .error (.missingField name)

end HighlightBundle.Json
