import HighlightBundle.Json.Fields
import HighlightBundle.Json.Printer

/-!
# Themes

A theme definition has a name and a kind, the background it is meant for, and a body that is handed
to the engine untouched.

## The written form

An object with the members `name`, `displayName` and `type`, each at most once and the first one
required; all others are the body. The kind is `dark` when it is not given. It is written as its
name, or as an object with that name as the key of its only member, whose value is null.
-/

namespace HighlightBundle

open Json

/-- The background that a theme is meant for. -/
inductive ThemeKind where
  | light
  | dark
deriving DecidableEq

namespace ThemeKind

/-- The written name. -/
def name : ThemeKind → String
  | light => "light"
  | dark => "dark"

/-- The kind with that name. -/
def ofName? (name : String) : Option ThemeKind :=
  if name = light.name then some light
  else if name = dark.name then some dark
  else none

/-- The kind with the name just read, behind which `rest` follows. -/
def named (name : String) : Reader ThemeKind := fun rest ↦
  match ofName? name with
  | some kind => .ok (kind, rest)
  | none => .error (.here (.unknownVariant name [light.name, dark.name]) rest)

/-- The kind with the name that is the key of an object, behind its opening brace. -/
def readKey : Reader ThemeKind := fun text ↦
  match skipSpaces text with
  | [] => .error (.here .endInObject [])
  | s :: rest =>
    if s = .char '"' then do
      let (name, rest) ← readStringBody rest
      named name rest
    else .error (.here (if s = .char '\x7d' then .valueExpected else .keyExpected) rest)

/-- A kind. -/
def read (depth : Nat) : Reader ThemeKind := fun text ↦
  match skipSpaces text with
  | [] => .error (.here .endInValue [])
  | .char '"' :: rest => do
    let (name, rest) ← readStringBody rest
    named name rest
  | .char '\x7b' :: rest =>
    if depth = 0 then .error (.here .tooDeep rest)
    else do
      let (kind, rest) ← readKey rest
      let rest ← readColon rest
      let (_, rest) ← readNull rest
      match skipSpaces rest with
      | [] => .error (.here .endInObject [])
      | s :: rest =>
        if s = .char '\x7d' then .ok (kind, rest) else .error (.here .valueExpected rest)
  | _ :: rest => .error (.here .valueExpected rest)

end ThemeKind

/-- A theme definition. -/
structure Theme where
  name : String
  displayName : Option String
  kind : ThemeKind
  /-- Everything else. -/
  body : Table Value
deriving DecidableEq

namespace Theme

/-! ## Reading -/

/-- What has been read of a definition. -/
structure Draft where
  name : Option String
  displayName : Option (Option String)
  kind : Option ThemeKind
  body : List (String × Tree)

namespace Draft

/-- Nothing has been read. -/
def empty : Draft := ⟨none, none, none, []⟩

/-- Reads the member with that key. -/
def member (depth : Nat) (draft : Draft) (key : String) : Reader Draft := fun text ↦
  if key = "name" then do
    let (x, rest) ← setOnce key draft.name readString text
    return ({ draft with name := some x }, rest)
  else if key = "displayName" then do
    let (x, rest) ← setOnce key draft.displayName readOptionalString text
    return ({ draft with displayName := some x }, rest)
  else if key = "type" then do
    let (x, rest) ← setOnce key draft.kind (ThemeKind.read depth) text
    return ({ draft with kind := some x }, rest)
  else do
    let (body, rest) ← treeMember (readTree depth) draft.body key text
    return ({ draft with body := body }, rest)

/-- The definition, if its name has been read. -/
def finish (draft : Draft) : Except Cause Theme := do
  let name ← required "name" draft.name
  return {
    name
    displayName := draft.displayName.getD none
    kind := draft.kind.getD .dark
    body := Value.tableOf draft.body }

end Draft

/-- A theme definition. -/
def read (depth : Nat) : Reader Theme :=
  readObject (.record "ThemeRegistration") Draft.empty Draft.member Draft.finish depth

/-- The theme definition that a whole text is. -/
def ofText (text : Text) : Except Fault Theme :=
  readWhole (read depthLimit) text

/-! ## Writing -/

/-- The written form. The body comes last, in the order of its keys. -/
def tree (theme : Theme) : Tree :=
  .object <|
    ("name", .string theme.name) :: Tree.optionalMember "displayName" theme.displayName
      ++ ("type", .string theme.kind.name) :: Value.membersOf theme.body

/-- Equality of what is meant: the numbers of the bodies are compared as numbers. -/
def agrees (a b : Theme) : Bool :=
  a.name == b.name && a.displayName == b.displayName && a.kind == b.kind
    && a.body.agrees Value.agrees b.body

/-- The colour that the theme gives to code in general. -/
def foreground? (theme : Theme) : Option String := do
  let colors ← theme.body.get? "colors"
  let color ← colors.tree.member? "editor.foreground"
  color.string?

end Theme

end HighlightBundle
