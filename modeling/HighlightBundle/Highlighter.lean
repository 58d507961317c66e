import HighlightBundle.Activity

/-!
# Highlighters

A highlighter is an engine together with the bundle that its references are resolved in. Whether
it is created or more is loaded into it, the whole request is resolved first, and if a reference is
not in the bundle nothing else happens: no engine is asked for, and nothing is loaded.

Loading runs two batches, the themes and the languages. An empty batch is not worth a call of the
engine. Both batches run in any case, and of their failures the one of the themes is reported.
-/

namespace HighlightBundle

namespace Engine

/-- Loads the themes, unless there are none. -/
def themeBatch (engine : Engine) (themes : List Theme) : Except EngineFailure Unit × Engine :=
  if themes.isEmpty then (.ok (), engine) else engine.loadThemes themes

/-- Loads the languages, unless there are none. -/
def languageBatch (engine : Engine) (packs : List LanguagePack) : Engine :=
  if packs.isEmpty then engine else engine.loadLanguages packs

/-- Loads both batches. -/
def load (engine : Engine) (assets : Assets) : Except EngineFailure Unit × Engine :=
  let (answer, engine) := engine.themeBatch assets.themes
  (answer, engine.languageBatch assets.packs)

/-- The activity of loading themes. -/
def themeBatchEvents (themes : List Theme) : List Event :=
  if themes.isEmpty then []
  else [.note (.loading .theme themes.length), .call (.loadThemes themes)]

/-- The activity of loading languages. -/
def languageBatchEvents (packs : List LanguagePack) : List Event :=
  if packs.isEmpty then []
  else [.note (.loading .language packs.length), .call (.loadLanguages packs)]

/-- The activity of loading both batches. -/
def loadEvents (assets : Assets) : List Event :=
  themeBatchEvents assets.themes ++ languageBatchEvents assets.packs

/-- The activity of creating an engine. -/
def createEvents (assets : Assets) (className : Option String) : List Event :=
  [.note (.creatingEngine assets.themes.length assets.packs.length),
    .call (.create assets className)]

end Engine

/-- An engine with the bundle that its references are resolved in. -/
structure Highlighter where
  bundle : Bundle
  engine : Engine
deriving DecidableEq

namespace Highlighter

/-- Creates an engine with what the request resolves to. -/
def create (bundle : Bundle) (loader : Loader) (request : Request) (className : Option String) :
    Except Failure Highlighter × Loader :=
  match bundle.resolve request with
  | .error failure => (.error failure, loader)
  | .ok assets =>
    let (answer, loader) := Engine.create loader assets className
    ((answer.mapError .engine).map fun engine ↦ { bundle, engine }, loader)

/-- Loads what the request resolves to. -/
def load (highlighter : Highlighter) (request : Request) : Except Failure Unit × Highlighter :=
  match highlighter.bundle.resolve request with
  | .error failure => (.error failure, highlighter)
  | .ok assets =>
    let (answer, engine) := highlighter.engine.load assets
    (answer.mapError .engine, { highlighter with engine })

/-- Loads languages alone. -/
def loadLanguages (highlighter : Highlighter) (languages : List LanguageReference) :
    Except Failure Unit × Highlighter :=
  highlighter.load { themes := [], languages }

/-- Loads themes alone. -/
def loadThemes (highlighter : Highlighter) (themes : List ThemeReference) :
    Except Failure Unit × Highlighter :=
  highlighter.load { themes, languages := [] }

/-- The activity of creating a highlighter. -/
def createEvents (bundle : Bundle) (request : Request) (className : Option String) : List Event :=
  bundle.resolveEvents request ++ match bundle.resolve request with
    | .ok assets => Engine.createEvents assets className
    | .error _ => []

/-- The activity of loading. -/
def loadEvents (bundle : Bundle) (request : Request) : List Event :=
  bundle.resolveEvents request ++ match bundle.resolve request with
    | .ok assets => Engine.loadEvents assets
    | .error _ => []

end Highlighter

end HighlightBundle
