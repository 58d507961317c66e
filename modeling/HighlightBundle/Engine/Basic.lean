import HighlightBundle.Failure
import HighlightBundle.Reference

/-!
# Engines

An engine holds what has been loaded into it: a table of languages, with an entry for every alias
and for the name of each definition, and a table of themes by name. Loading adds to the tables and
replaces what has the same key, so both only ever grow, and what a key stands for is the last
definition with it. The engine counts its loads, not what was loaded.

A theme without a name cannot be registered. It is left out and makes the whole load fail in the
end; the other themes of the load are registered all the same.

A `Loader` is what engines are created with, and what is shared between them: it counts the
creations that were asked for and knows how many of the next ones are to fail.
-/

namespace HighlightBundle

/-- What engines are created with. -/
structure Loader where
  /-- How many creations were asked for, the failed ones included. -/
  creations : Nat
  /-- How many of the next creations fail. -/
  failures : Nat
deriving DecidableEq

namespace Loader

/-- A loader that nothing was asked of. -/
def fresh : Loader := ⟨0, 0⟩

/-- The loader after a creation has been asked for. -/
def asked (loader : Loader) : Loader := { loader with creations := loader.creations + 1 }

/-- Makes the next creations fail, as many as given. -/
def failNext (loader : Loader) (count : Nat) : Loader := { loader with failures := count }

end Loader

/-- An engine and what is loaded into it. -/
structure Engine where
  /-- The number of the creation that made it, which tells engines apart. -/
  serial : Nat
  /-- Names and aliases, with the definitions they stand for. -/
  languages : Table Language
  themes : Table Theme
  themeLoads : Nat
  languageLoads : Nat
  /-- The class that its markup is given. -/
  className : Option String
deriving DecidableEq

namespace Engine

/-- An engine with nothing loaded. -/
def blank (serial : Nat) (className : Option String) : Engine :=
  ⟨serial, .empty, .empty, 0, 0, className⟩

/-! ## Registering -/

/-- The entries of a list of packs: every definition under its aliases, then under its name. -/
def languageEntries (packs : List LanguagePack) : List (String × Language) :=
  packs.flatMap fun pack ↦ pack.languages.flatMap fun language ↦
    language.keys.map fun key ↦ (key, language)

/-- The entries of a list of themes: those with a name. -/
def themeEntries (themes : List Theme) : List (String × Theme) :=
  (themes.filter fun theme ↦ !theme.name.isEmpty).map fun theme ↦ (theme.name, theme)

/-- Whether registering the themes fails: one of them has no name. -/
def registration (themes : List Theme) : Except EngineFailure Unit :=
  if themes.any fun theme ↦ theme.name.isEmpty then .error .unnamedTheme else .ok ()

/-- The engine with the definitions of the packs. -/
def registerLanguages (engine : Engine) (packs : List LanguagePack) : Engine :=
  { engine with languages := engine.languages.insertAll (languageEntries packs) }

/-- The engine with the themes that have a name. -/
def registerThemes (engine : Engine) (themes : List Theme) : Engine :=
  { engine with themes := engine.themes.insertAll (themeEntries themes) }

/-! ## Creating and loading -/

/-- Builds an engine with the assets in it, for the creation that was asked for last; a failure that
is due is used up instead. -/
def build (loader : Loader) (assets : Assets) (className : Option String) :
    Except EngineFailure Engine × Loader :=
  if 0 < loader.failures then
    (.error .creationFailed, { loader with failures := loader.failures - 1 })
  else
    let engine := blank loader.creations className
    let engine := (engine.registerLanguages assets.packs).registerThemes assets.themes
    ((registration assets.themes).map fun _ ↦ engine, loader)

/-- Creates an engine: the creation is counted, then the engine is built. -/
def create (loader : Loader) (assets : Assets) (className : Option String) :
    Except EngineFailure Engine × Loader :=
  build loader.asked assets className

/-- Loads themes into the engine. -/
def loadThemes (engine : Engine) (themes : List Theme) : Except EngineFailure Unit × Engine :=
  (registration themes, { engine with themeLoads := engine.themeLoads + 1 }.registerThemes themes)

/-- Loads languages into the engine. -/
def loadLanguages (engine : Engine) (packs : List LanguagePack) : Engine :=
  { engine with languageLoads := engine.languageLoads + 1 }.registerLanguages packs

/-- The names of the loaded themes, sorted. -/
def loadedThemes (engine : Engine) : List String := engine.themes.keys

/-- Whether the key stands for a loaded language. -/
def hasLanguage (engine : Engine) (key : String) : Bool := engine.languages.contains key

end Engine

end HighlightBundle
