import HighlightBundle.Engine.Basic
import HighlightBundle.Engine.Markup
import HighlightBundle.Text.Pieces
import HighlightBundle.Token

/-!
# Rendering

An engine renders with what is loaded. It knows nothing of bundles and ids: languages and themes
are named by the keys of its tables, and only plain text needs no entry. The language is looked up
before the themes, and the first name without an entry is the failure.

There is no highlighting in it: a line of code is one token, in the colour that the theme gives to
code in general. The lines are what is between newlines, an empty line has no token, and the offset
of a token counts the bytes of the code before it.
-/

namespace HighlightBundle.Engine

/-- The name of the language with that key. -/
def languageName (engine : Engine) (key : String) : Except EngineFailure String :=
  if isPlaintext key then .ok plaintextName
  else match engine.languages.get? key with
    | some language => .ok language.name
    | none => .error (.notLoaded .language key)

/-- The theme with that name. -/
def theme (engine : Engine) (name : String) : Except EngineFailure Theme :=
  match engine.themes.get? name with
  | some theme => .ok theme
  | none => .error (.notLoaded .theme name)

/-- The code as markup with one theme. -/
def html (engine : Engine) (code language theme : String) : Except EngineFailure String := do
  let language ← engine.languageName language
  let theme ← engine.theme theme
  return Markup.element engine.className
    [("data-lang", language), ("data-theme", theme.name)] code

/-- The name of the theme with that name, for every role, in the order of the roles. -/
def roleNames (engine : Engine) (roles : List (String × String)) :
    Except EngineFailure (List (String × String)) :=
  roles.mapM fun e ↦ do
    let theme ← engine.theme e.2
    return (e.1, theme.name)

/-- The code as markup with a theme for each role. -/
def htmlThemes (engine : Engine) (code language : String) (themes : Table String)
    (defaultColor : Option String) : Except EngineFailure String := do
  let language ← engine.languageName language
  let names ← engine.roleNames themes.toList
  let fallback := match defaultColor with
    | some color => [("data-default", color)]
    | none => []
  return Markup.element engine.className
    ([("data-lang", language), ("data-themes", Markup.roleList (Table.ofList names))] ++ fallback)
    code

/-- The tokens of the lines, the first of which starts at the offset. -/
def lineTokens (color : Option String) : (offset : Nat) → List (List Char) → List (List Token)
  | _, [] => []
  | offset, line :: rest =>
    let content := String.ofList line
    let tokens : List Token := if line.isEmpty then [] else
      [{ content, offset, color, background := none, style := .none }]
    tokens :: lineTokens color (offset + content.utf8ByteSize + 1) rest

/-- The tokens of each line of the code. -/
def tokens (engine : Engine) (code language theme : String) :
    Except EngineFailure (List (List Token)) := do
  let _ ← engine.languageName language
  let theme ← engine.theme theme
  return lineTokens theme.foreground? 0 (pieces '\n' code.toList)

end HighlightBundle.Engine
