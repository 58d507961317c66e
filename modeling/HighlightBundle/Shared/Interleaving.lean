import HighlightBundle.Shared.Basic

/-!
# Calls whose steps interleave

Several callers use a shared highlighter at the same time. A `Crowd` is the shared highlighter, its
loader, the permit to create the engine, and the phase that every caller is in; `step` moves one
caller by one step, and any list of steps in any order is a possible run. A caller that needs an
engine while another one creates it has no step: it waits, and goes on when the engine is there or
when the permit is free.

## The phases of a call

A call is prepared, which may already be its end. Then it either takes the permit and asks for a
creation with its own request, or finds the engine and loads. A creation is counted when it is
asked for; whether it succeeds is decided in a step of its own, and the engine it built is put into
the slot by another one, which gives the permit back. A load is two batches, each a step, in any
order; when both are done the failure of the themes, if there is one, ends the call. Last the code
is rendered with the engine as it is then.

## Running on one thread

On one thread a caller goes on until it has to wait: for the permit, for its creation, or at the
start of its load, where both batches are still to be done. `poll` runs a caller that far, and
`runTogether` polls all callers in turn until they have finished.
-/

namespace HighlightBundle.Shared

/-- Where a call stands. -/
inductive Phase where
  /-- The call has not begun. -/
  | fresh (action : Action)
  /-- The call needs the engine. -/
  | asking (job : Job)
  /-- The call holds the permit, and its creation has been asked for. -/
  | creating (job : Job) (assets : Assets)
  /-- The call holds the permit and an engine that is not in the slot yet. -/
  | created (job : Job) (engine : Engine)
  /-- The call loads; each batch is still to be done or has its outcome. -/
  | loading (job : Job) (assets : Assets) (themes : Option (Except EngineFailure Unit))
      (languages : Bool)
  /-- Everything is loaded. -/
  | rendering (job : Job)
  | finished (answer : Except Failure Answer)

/-- A shared highlighter with the calls that use it. -/
structure Crowd where
  shared : Shared
  loader : Loader
  /-- The caller that may create the engine. -/
  permit : Option Nat
  callers : List Phase

/-- Which step a caller takes, where there is a choice. -/
inductive Turn where
  | next
  /-- The batch of themes. -/
  | themes
  /-- The batch of languages. -/
  | languages
deriving DecidableEq

namespace Crowd

/-- Calls that have not begun. -/
def ofActions (shared : Shared) (loader : Loader) (actions : List Action) : Crowd :=
  ⟨shared, loader, none, actions.map .fresh⟩

/-- The crowd with a caller in another phase. -/
def enter (crowd : Crowd) (caller : Nat) (phase : Phase) : Crowd :=
  { crowd with callers := crowd.callers.set caller phase }

/-- The crowd with another engine in the slot. -/
def store (crowd : Crowd) (engine : Engine) : Crowd :=
  { crowd with shared := { crowd.shared with slot := some engine } }

/-! ## Steps -/

/-- The call is prepared. -/
def begin (crowd : Crowd) (caller : Nat) (action : Action) : Crowd :=
  match crowd.shared.bundle.prepare action with
  | .error failure => crowd.enter caller (.finished (.error failure))
  | .ok job => crowd.enter caller (.asking job)

/-- The call finds the engine and starts to load; an empty batch has nothing to do. -/
def startLoad (crowd : Crowd) (caller : Nat) (job : Job) : Crowd :=
  match crowd.shared.bundle.resolve job.request with
  | .error failure => crowd.enter caller (.finished (.error failure))
  | .ok assets =>
    let themes := if assets.themes.isEmpty then some (.ok ()) else none
    crowd.enter caller (.loading job assets themes assets.packs.isEmpty)

/-- The call takes the permit and asks for a creation; if its request does not resolve, the permit
is free again at once. -/
def startCreation (crowd : Crowd) (caller : Nat) (job : Job) : Crowd :=
  match crowd.shared.bundle.resolve job.request with
  | .error failure => crowd.enter caller (.finished (.error failure))
  | .ok assets =>
    { crowd with permit := some caller, loader := crowd.loader.asked }.enter caller
      (.creating job assets)

/-- The engine is built, or the creation fails and gives the permit back. -/
def build (crowd : Crowd) (caller : Nat) (job : Job) (assets : Assets) : Crowd :=
  match Engine.build crowd.loader assets crowd.shared.className with
  | (.error failure, loader) =>
    { crowd with loader, permit := none }.enter caller (.finished (.error (.engine failure)))
  | (.ok engine, loader) => { crowd with loader }.enter caller (.created job engine)

/-- The engine is put into the slot, and the permit is given back. -/
def publish (crowd : Crowd) (caller : Nat) (job : Job) (engine : Engine) : Crowd :=
  ({ crowd with permit := none }.store engine).enter caller (.rendering job)

/-- The batch of themes is loaded into the engine in the slot. -/
def runThemes (crowd : Crowd) (caller : Nat) (job : Job) (assets : Assets) (languages : Bool)
    (engine : Engine) : Crowd :=
  let (outcome, engine) := engine.loadThemes assets.themes
  (crowd.store engine).enter caller (.loading job assets (some outcome) languages)

/-- The batch of languages is loaded into the engine in the slot. -/
def runLanguages (crowd : Crowd) (caller : Nat) (job : Job) (assets : Assets)
    (themes : Option (Except EngineFailure Unit)) (engine : Engine) : Crowd :=
  (crowd.store (engine.loadLanguages assets.packs)).enter caller (.loading job assets themes true)

/-- Both batches are done. -/
def endLoad (crowd : Crowd) (caller : Nat) (job : Job) (outcome : Except EngineFailure Unit) :
    Crowd :=
  match outcome with
  | .ok () => crowd.enter caller (.rendering job)
  | .error failure => crowd.enter caller (.finished (.error (.engine failure)))

/-- The code is rendered. -/
def render (crowd : Crowd) (caller : Nat) (job : Job) (engine : Engine) : Crowd :=
  crowd.enter caller (.finished ((job.rendering.run engine).mapError .engine))

/-- One step of a caller; none when it cannot take that step. -/
def step (crowd : Crowd) (caller : Nat) (turn : Turn) : Option Crowd := do
  match ← crowd.callers[caller]?, turn with
  | .fresh action, .next => return crowd.begin caller action
  | .asking job, .next =>
    match crowd.shared.slot, crowd.permit with
    | some _, _ => return crowd.startLoad caller job
    | none, none => return crowd.startCreation caller job
    | none, some _ => none
  | .creating job assets, .next => return crowd.build caller job assets
  | .created job engine, .next => return crowd.publish caller job engine
  | .loading job assets none languages, .themes =>
    return crowd.runThemes caller job assets languages (← crowd.shared.slot)
  | .loading job assets themes false, .languages =>
    return crowd.runLanguages caller job assets themes (← crowd.shared.slot)
  | .loading job _ (some outcome) true, .next => return crowd.endLoad caller job outcome
  | .rendering job, .next => return crowd.render caller job (← crowd.shared.slot)
  | _, _ => none

/-- A run: the steps that can be taken, one after the other. -/
def steps (crowd : Crowd) : List (Nat × Turn) → Option Crowd
  | [] => some crowd
  | (caller, turn) :: rest => do steps (← crowd.step caller turn) rest

/-- The activity of a step. -/
def stepEvents (crowd : Crowd) (caller : Nat) (turn : Turn) : List Event :=
  let bundle := crowd.shared.bundle
  match crowd.callers[caller]?, turn with
  | some (.fresh action), .next => bundle.prepareEvents action
  | some (.asking job), .next =>
    match crowd.shared.slot, crowd.permit with
    | some _, _ => bundle.resolveEvents job.request
    | none, none =>
      .note .creatingShared :: Highlighter.createEvents bundle job.request crowd.shared.className
    | none, some _ => []
  | some (.loading _ assets none _), .themes => Engine.themeBatchEvents assets.themes
  | some (.loading _ assets _ false), .languages => Engine.languageBatchEvents assets.packs
  | _, _ => []

/-! ## One thread -/

/-- The step that a caller takes by itself, its themes before its languages. -/
def defaultTurn : Phase → Turn
  | .loading _ _ none _ => .themes
  | .loading _ _ _ false => .languages
  | _ => .next

/-- Whether a caller that has just entered this phase lets others go on. -/
def yields : Phase → Bool
  | .creating _ _ => true
  | .loading _ _ none _ | .loading _ _ _ false => true
  | .finished _ => true
  | _ => false

/-- Whether the phase is a load on its way, which goes on to its end without a pause. -/
def isLoading : Phase → Bool
  | .loading _ _ _ _ => true
  | _ => false

/-- Runs a caller until it has to wait, at most so many steps; also gives the activity. -/
def pollSteps : Nat → Crowd → (caller : Nat) → Crowd × List Event
  | 0, crowd, _ => (crowd, [])
  | fuel + 1, crowd, caller =>
    match crowd.callers[caller]? with
    | none => (crowd, [])
    | some phase =>
      let turn := defaultTurn phase
      match crowd.step caller turn with
      | none => (crowd, [])
      | some after =>
        let events := crowd.stepEvents caller turn
        let waits := match after.callers[caller]? with
          | some entered => yields entered && !isLoading phase
          | none => true
        if waits then (after, events)
        else
          let (last, more) := pollSteps fuel after caller
          (last, events ++ more)

/-- Runs a caller until it has to wait. A call has fewer than ten steps. -/
def poll (crowd : Crowd) (caller : Nat) : Crowd × List Event :=
  pollSteps 10 crowd caller

/-- Runs a schedule: the callers that are polled, in that order. -/
def pollAll (crowd : Crowd) : List Nat → Crowd × List Event
  | [] => (crowd, [])
  | caller :: rest =>
    let (crowd, events) := crowd.poll caller
    let (crowd, more) := crowd.pollAll rest
    (crowd, events ++ more)

/-- The answer of a call that has finished. -/
def answer? : Phase → Option (Except Failure Answer)
  | .finished answer => some answer
  | _ => none

/-- The answers, when all calls have finished. -/
def answers? (crowd : Crowd) : Option (List (Except Failure Answer)) :=
  crowd.callers.mapM answer?

end Crowd

/-- A schedule that polls everybody in turn, often enough for all to finish: in each of the first
rounds one creation fails, then one succeeds, and after that every call needs two more rounds. -/
def fairSchedule (callers : Nat) : List Nat :=
  (List.replicate (callers + 4) (List.range callers)).flatten

/-- Runs calls together on one thread; also gives the activity. -/
def runTogether (shared : Shared) (loader : Loader) (actions : List Action) :
    Crowd × List Event :=
  (Crowd.ofActions shared loader actions).pollAll (fairSchedule actions.length)

end HighlightBundle.Shared
