import HighlightBundle.Bundle.Resolve
import HighlightBundle.Engine.Basic

/-!
# What can be seen from outside

Besides its answer, an operation can be seen to do two things: it writes notes to a log, and it
calls an engine. Both are data here. Next to an operation stands a function that gives its
activity, and neither computes the other; a call of the engine is an event when it is made, also
if it then fails.
-/

namespace HighlightBundle

/-- A line of the log. -/
inductive Note where
  | embeddedMissing (embedded language : String)
  | resolving (kind : AssetKind) (id : String)
  | creatingEngine (themes languages : Nat)
  | loading (kind : AssetKind) (count : Nat)
  | creatingShared
deriving DecidableEq

namespace Note

/-- How important the line is. -/
def level : Note → String
  | resolving _ _ | loading _ _ => "TRACE"
  | embeddedMissing _ _ | creatingEngine _ _ | creatingShared => "DEBUG"

/-- The line without its level. -/
def message : Note → String
  | embeddedMissing embedded language =>
    s!"Embedded language `{embedded}` of `{language}` is not in the bundle, skipping it"
  | resolving kind id => s!"Resolving bundled {kind.noun} `{id}`"
  | creatingEngine themes languages =>
    s!"Creating engine with {themes} theme(s) and {languages} language(s)"
  | loading kind count => s!"Loading {count} {kind.noun}(s)"
  | creatingShared => "Creating the shared highlighter"

end Note

/-- A call of an engine. -/
inductive Call where
  | create (assets : Assets) (className : Option String)
  | loadThemes (themes : List Theme)
  | loadLanguages (packs : List LanguagePack)
deriving DecidableEq

/-- Something that can be seen from outside. -/
inductive Event where
  | note (note : Note)
  | call (call : Call)
deriving DecidableEq

namespace Event

/-- The notes among the events. -/
def notes (events : List Event) : List Note :=
  events.filterMap fun
    | note n => some n
    | call _ => none

/-- The calls among the events. -/
def calls (events : List Event) : List Call :=
  events.filterMap fun
    | note _ => none
    | call c => some c

end Event

namespace Bundle

/-- The activity of adding a language: a note for each embedded language that is missing. -/
def addLanguageEvents (bundle : Bundle) (language : Language) : List Event :=
  (bundle.missingEmbedded language).map fun name ↦ .note (.embeddedMissing name language.name)

/-- The activity of resolving a language: a note when the table is looked into. -/
def languageEvents : LanguageReference → List Event
  | .bundled id => if isPlaintext id then [] else [.note (.resolving .language id)]
  | _ => []

/-- The activity of resolving a theme: a note when the table is looked into. -/
def themeEvents : ThemeReference → List Event
  | .bundled id => [.note (.resolving .theme id)]
  | .inline _ => []

/-- The activity of resolving one after the other, up to the first that fails. -/
def eventsUntilFailure {ρ α : Type} (events : ρ → List Event) (resolve : ρ → Except Failure α) :
    List ρ → List Event
  | [] => []
  | r :: rest =>
    events r ++ match resolve r with
      | .ok _ => eventsUntilFailure events resolve rest
      | .error _ => []

/-- The activity of resolving languages. -/
def languagesEvents (bundle : Bundle) (references : List LanguageReference) : List Event :=
  eventsUntilFailure languageEvents bundle.resolveLanguage references

/-- The activity of resolving themes. -/
def themesEvents (bundle : Bundle) (references : List ThemeReference) : List Event :=
  eventsUntilFailure themeEvents bundle.resolveTheme (references.filter fun r ↦ !r.isBlank)

/-- The activity of resolving a request. -/
def resolveEvents (bundle : Bundle) (request : Request) : List Event :=
  bundle.themesEvents request.themes ++ match bundle.resolveThemes request.themes with
    | .ok _ => bundle.languagesEvents request.languages
    | .error _ => []

end Bundle

end HighlightBundle
