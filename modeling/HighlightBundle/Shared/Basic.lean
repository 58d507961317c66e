import HighlightBundle.Engine.Rendering
import HighlightBundle.Highlighter

/-!
# The shared highlighter

One engine for all callers, created when the first of them needs it, with what that caller asked
for; after that every caller loads what it needs into the same engine. A creation that fails leaves
nothing behind, and the next caller tries again.

A caller asks for assets alone (`Action.get`) or renders code. Rendering resolves its references
first and asks for the definitions it found; their names are what it then renders with, so it does
not matter under which keys the bundle has them. What a caller asks for and what it does when it
has the engine is a `Job`, and `prepare` gives the job of an action or the failure of its first
reference that does not resolve.

Here a call runs on its own, from its beginning to its end. How the steps of several calls may
interleave is the subject of `HighlightBundle.Shared.Interleaving`.
-/

namespace HighlightBundle

/-- How code is rendered with several themes: a role may have no theme. -/
structure RoleOptions where
  language : LanguageReference
  /-- The roles, as they were set last. -/
  themes : Table (Option ThemeReference)
  /-- The role that applies where none is chosen. -/
  defaultColor : Option String
deriving DecidableEq

namespace RoleOptions

/-- No roles yet. -/
def ofLanguage (language : LanguageReference) : RoleOptions := ⟨language, .empty, none⟩

/-- Sets the theme of a role. -/
def withTheme (options : RoleOptions) (role : String) (theme : ThemeReference) : RoleOptions :=
  { options with themes := options.themes.insert role (some theme) }

/-- Sets several roles, possibly to no theme, from left to right. -/
def withThemes (options : RoleOptions) (themes : List (String × Option ThemeReference)) :
    RoleOptions :=
  { options with themes := options.themes.insertAll themes }

/-- Chooses the role that applies by default. -/
def withDefaultColor (options : RoleOptions) (role : String) : RoleOptions :=
  { options with defaultColor := some role }

/-- The roles that have a theme, in their order: set, and not to one that asks for nothing. -/
def setThemes (options : RoleOptions) : List (String × ThemeReference) :=
  (options.themes.toList.filterMap fun e ↦ e.2.map fun theme ↦ (e.1, theme)).filter
    fun e ↦ !e.2.isBlank

end RoleOptions

/-- What a caller can do with the shared highlighter. -/
inductive Action where
  | get (request : Request)
  | html (code : String) (language : LanguageReference) (theme : ThemeReference)
  | tokens (code : String) (language : LanguageReference) (theme : ThemeReference)
  | htmlThemes (code : String) (options : RoleOptions)
deriving DecidableEq

/-- What a caller gets: the highlighter, told apart from others by the number of its engine, or
rendered code. -/
inductive Answer where
  | highlighter (serial : Nat)
  | html (markup : String)
  | tokens (lines : List (List Token))
deriving DecidableEq

/-- What is done with the engine once everything is loaded. -/
inductive Rendering where
  | nothing
  | html (code language theme : String)
  | tokens (code language theme : String)
  | htmlThemes (code language : String) (themes : Table String) (defaultColor : Option String)
deriving DecidableEq

/-- What to load, and what to do then. -/
structure Job where
  request : Request
  rendering : Rendering
deriving DecidableEq

namespace Rendering

/-- Renders with an engine. -/
def run (engine : Engine) : Rendering → Except EngineFailure Answer
  | nothing => .ok (.highlighter engine.serial)
  | html code language theme => (engine.html code language theme).map .html
  | tokens code language theme => (engine.tokens code language theme).map .tokens
  | htmlThemes code language themes defaultColor =>
    (engine.htmlThemes code language themes defaultColor).map .html

end Rendering

namespace Bundle

/-- The theme for every role, in the order of the roles. -/
def resolveRoles (bundle : Bundle) (roles : List (String × ThemeReference)) :
    Except Failure (List (String × Theme)) :=
  roles.mapM fun e ↦ do
    let theme ← bundle.resolveTheme e.2
    return (e.1, theme)

/-- The request for definitions that are at hand. -/
def inlineRequest (themes : List Theme) (pack : LanguagePack) : Request :=
  { themes := themes.map .inline, languages := [.inline pack] }

/-- The job of rendering with one theme. -/
def renderJob (bundle : Bundle) (language : LanguageReference) (theme : ThemeReference)
    (rendering : (language theme : String) → Rendering) : Except Failure Job := do
  let theme ← bundle.resolveTheme theme
  let pack ← bundle.resolveLanguage language
  return { request := inlineRequest [theme] pack, rendering := rendering pack.name theme.name }

/-- The job of an action. -/
def prepare (bundle : Bundle) : Action → Except Failure Job
  | .get request => .ok { request, rendering := .nothing }
  | .html code language theme => bundle.renderJob language theme (.html code)
  | .tokens code language theme => bundle.renderJob language theme (.tokens code)
  | .htmlThemes code options => do
    let roles ← bundle.resolveRoles options.setThemes
    let pack ← bundle.resolveLanguage options.language
    return {
      request := inlineRequest (roles.map Prod.snd) pack
      rendering := .htmlThemes code pack.name
        (Table.ofList (roles.map fun e ↦ (e.1, e.2.name))) options.defaultColor }

/-- The activity of resolving one theme, then one language. -/
def renderEvents (bundle : Bundle) (language : LanguageReference) (theme : ThemeReference) :
    List Event :=
  themeEvents theme ++ match bundle.resolveTheme theme with
    | .ok _ => languageEvents language
    | .error _ => []

/-- The activity of preparing an action. -/
def prepareEvents (bundle : Bundle) : Action → List Event
  | .get _ => []
  | .html _ language theme | .tokens _ language theme => bundle.renderEvents language theme
  | .htmlThemes _ options =>
    let references := options.setThemes.map Prod.snd
    eventsUntilFailure themeEvents bundle.resolveTheme references
      ++ match bundle.resolveRoles options.setThemes with
        | .ok _ => languageEvents options.language
        | .error _ => []

end Bundle

/-- A highlighter for all callers. -/
structure Shared where
  bundle : Bundle
  /-- The class that its engine is created with. -/
  className : Option String
  /-- The engine, once there is one. -/
  slot : Option Engine
deriving DecidableEq

namespace Shared

/-- A shared highlighter without an engine. -/
def ofBundle (bundle : Bundle) (className : Option String) : Shared := ⟨bundle, className, none⟩

/-- Whether there is an engine. -/
def isInitialized (shared : Shared) : Bool := shared.slot.isSome

/-- The engine with what is asked for loaded into it; it is created if there is none. -/
def ensure (shared : Shared) (loader : Loader) (request : Request) :
    Except Failure Engine × Shared × Loader :=
  match shared.slot with
  | none =>
    match Highlighter.create shared.bundle loader request shared.className with
    | (.error failure, loader) => (.error failure, shared, loader)
    | (.ok highlighter, loader) =>
      (.ok highlighter.engine, { shared with slot := some highlighter.engine }, loader)
  | some engine =>
    let (answer, highlighter) := Highlighter.load ⟨shared.bundle, engine⟩ request
    let engine := highlighter.engine
    (answer.map fun _ ↦ engine, { shared with slot := some engine }, loader)

/-- Runs a call on its own. -/
def run (shared : Shared) (loader : Loader) (action : Action) :
    Except Failure Answer × Shared × Loader :=
  match shared.bundle.prepare action with
  | .error failure => (.error failure, shared, loader)
  | .ok job =>
    match shared.ensure loader job.request with
    | (.error failure, shared, loader) => (.error failure, shared, loader)
    | (.ok engine, shared, loader) => ((job.rendering.run engine).mapError .engine, shared, loader)

/-- The activity of making sure that the engine is there and has what is asked for. -/
def ensureEvents (shared : Shared) (request : Request) : List Event :=
  match shared.slot with
  | none =>
    .note .creatingShared :: Highlighter.createEvents shared.bundle request shared.className
  | some _ => Highlighter.loadEvents shared.bundle request

/-- The activity of a call on its own. -/
def runEvents (shared : Shared) (action : Action) : List Event :=
  shared.bundle.prepareEvents action ++ match shared.bundle.prepare action with
    | .ok job => shared.ensureEvents job.request
    | .error _ => []

/-- Runs calls one after the other. -/
def runAll (shared : Shared) (loader : Loader) :
    List Action → List (Except Failure Answer) × Shared × Loader
  | [] => ([], shared, loader)
  | action :: rest =>
    let (answer, shared, loader) := shared.run loader action
    let (answers, shared, loader) := shared.runAll loader rest
    (answer :: answers, shared, loader)

end Shared

end HighlightBundle
