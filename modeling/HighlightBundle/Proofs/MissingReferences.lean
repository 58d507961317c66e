import HighlightBundle.Proofs.CallsAlone
import HighlightBundle.Proofs.LookUp

/-!
# Missing references come first

Eight operations look references up in a bundle: creating a highlighter, loading languages, themes
or both into it, and the four calls of a shared highlighter. All of them do every look-up before
they do anything else, so a reference that is not in the bundle is reported whatever else is wrong,
and nothing has happened by then.

An `Operation` is one of the eight with its arguments, and a `Scene` is everything that it can
change. That each operation fails as the look-up of its needs does is shown for the operations one
by one; what is reported then is `Bundle.FirstMissing`.
-/

namespace HighlightBundle

/-! ### Looking up is no call of an engine -/

@[simp]
theorem Event.calls_append (first second : List Event) :
    calls (first ++ second) = calls first ++ calls second :=
  List.filterMap_append

namespace Bundle

variable {bundle : Bundle}

theorem calls_eventsUntilFailure {ρ α : Type} {events : ρ → List Event}
    {resolve : ρ → Except Failure α} (h : ∀ r, Event.calls (events r) = []) (rs : List ρ) :
    Event.calls (eventsUntilFailure events resolve rs) = [] := by
  induction rs with
  | nil => rfl
  | cons r rs ih =>
    rw [eventsUntilFailure, Event.calls_append, h r]
    cases resolve r with
    | ok a => exact ih
    | error failure => rfl

theorem calls_languageEvents (r : LanguageReference) : Event.calls (languageEvents r) = [] := by
  cases r with
  | plaintext | inline pack => rfl
  | bundled id =>
    rw [languageEvents]
    split <;> rfl

theorem calls_themeEvents (r : ThemeReference) : Event.calls (themeEvents r) = [] := by
  cases r <;> rfl

theorem calls_resolveEvents (bundle : Bundle) (request : Request) :
    Event.calls (bundle.resolveEvents request) = [] := by
  rw [resolveEvents, Event.calls_append, themesEvents, calls_eventsUntilFailure calls_themeEvents]
  cases bundle.resolveThemes request.themes with
  | ok themes => exact calls_eventsUntilFailure calls_languageEvents _
  | error failure => rfl

theorem calls_prepareEvents (bundle : Bundle) (action : Action) :
    Event.calls (bundle.prepareEvents action) = [] := by
  cases action with
  | get request => rfl
  | html code language theme | tokens code language theme =>
    rw [prepareEvents, renderEvents, Event.calls_append, calls_themeEvents]
    cases bundle.resolveTheme theme with
    | ok own => exact calls_languageEvents language
    | error failure => rfl
  | htmlThemes code options =>
    rw [prepareEvents, Event.calls_append, calls_eventsUntilFailure calls_themeEvents]
    cases bundle.resolveRoles options.setThemes with
    | ok roles => exact calls_languageEvents options.language
    | error failure => rfl

end Bundle

/-! ### The operations -/

/-- Everything that an operation can change: a highlighter with its engine, a shared highlighter
with its slot, and the loader that counts creations and knows the failures that are due. -/
structure Scene where
  highlighter : Highlighter
  shared : Shared
  loader : Loader

/-- An operation that looks references up. A highlighter is created with the bundle of the shared
one, and a call is one of the four of the shared highlighter. -/
inductive Operation where
  | create (request : Request) (className : Option String)
  | loadLanguages (languages : List LanguageReference)
  | loadThemes (themes : List ThemeReference)
  | load (request : Request)
  | call (action : Action)

/-- What an operation gives. -/
inductive Outcome where
  | created (highlighter : Highlighter)
  | loaded
  | answered (answer : Answer)

namespace Operation

/-- The bundle in which the references are looked up. -/
def bundle (scene : Scene) : Operation → Bundle
  | create _ _ | call _ => scene.shared.bundle
  | loadLanguages _ | loadThemes _ | load _ => scene.highlighter.bundle

/-- The references that are needed. -/
def needs : Operation → Request
  | create request _ | load request => request.withoutBlank
  | loadLanguages languages => ⟨[], languages⟩
  | loadThemes themes => Request.withoutBlank ⟨themes, []⟩
  | call action => action.needs

/-- A load into the highlighter of the scene. -/
def afterLoad (scene : Scene) (result : Except Failure Unit × Highlighter) :
    Except Failure Outcome × Scene :=
  (result.1.map fun _ ↦ .loaded, { scene with highlighter := result.2 })

/-- Runs the operation. -/
def run (scene : Scene) : Operation → Except Failure Outcome × Scene
  | create request className =>
    let (answer, loader) := Highlighter.create scene.shared.bundle scene.loader request className
    (answer.map .created, { scene with loader })
  | loadLanguages languages => afterLoad scene (scene.highlighter.loadLanguages languages)
  | loadThemes themes => afterLoad scene (scene.highlighter.loadThemes themes)
  | load request => afterLoad scene (scene.highlighter.load request)
  | call action =>
    let (answer, shared, loader) := scene.shared.run scene.loader action
    (answer.map .answered, { scene with shared, loader })

/-- What can be seen of the operation. -/
def events (scene : Scene) : Operation → List Event
  | create request className => Highlighter.createEvents scene.shared.bundle request className
  | loadLanguages languages => Highlighter.loadEvents scene.highlighter.bundle ⟨[], languages⟩
  | loadThemes themes => Highlighter.loadEvents scene.highlighter.bundle ⟨themes, []⟩
  | load request => Highlighter.loadEvents scene.highlighter.bundle request
  | call action => scene.shared.runEvents action

end Operation

/-! ### Each operation fails as the look-up does -/

/-- A failure of the engine is no missing reference. -/
theorem exists_engine_of_mapError {α β : Type} {x : Except EngineFailure α} {f : α → β}
    {failure : Failure} (h : (x.mapError Failure.engine).map f = .error failure) :
    ∃ cause, failure = .engine cause := by
  cases x with
  | ok a => exact absurd h nofun
  | error cause => exact ⟨cause, (Except.error.inj h).symm⟩

namespace Highlighter

variable {highlighter : Highlighter} {bundle : Bundle} {request : Request} {loader : Loader}
  {className : Option String} {assets : Assets} {failure : Failure}

theorem load_of_resolve_eq_error (h : highlighter.bundle.resolve request = .error failure) :
    highlighter.load request = (.error failure, highlighter) := by
  rw [load, h]

theorem load_eq_error (h : highlighter.bundle.resolve request = .ok assets)
    (hload : (highlighter.load request).1 = .error failure) : ∃ cause, failure = .engine cause := by
  rw [load, h] at hload
  refine exists_engine_of_mapError (x := (highlighter.engine.load assets).1) (f := id) ?_
  rcases hanswer : (highlighter.engine.load assets).1 with cause | ⟨⟨⟩⟩
  all_goals
    simp only [hanswer] at hload
    exact hload

theorem create_of_resolve_eq_error (h : bundle.resolve request = .error failure) :
    create bundle loader request className = (.error failure, loader) := by
  rw [create, h]

theorem create_eq_error (h : bundle.resolve request = .ok assets)
    (hcreate : (create bundle loader request className).1 = .error failure) :
    ∃ cause, failure = .engine cause := by
  rw [create, h] at hcreate
  exact exists_engine_of_mapError hcreate

theorem calls_loadEvents (h : bundle.resolve request = .error failure) :
    Event.calls (loadEvents bundle request) = [] := by
  rw [loadEvents, h, Event.calls_append, Bundle.calls_resolveEvents]
  rfl

theorem calls_createEvents (h : bundle.resolve request = .error failure) :
    Event.calls (createEvents bundle request className) = [] := by
  rw [createEvents, h, Event.calls_append, Bundle.calls_resolveEvents]
  rfl

end Highlighter

namespace Shared

variable {shared : Shared} {loader : Loader} {action : Action} {request : Request}
  {assets : Assets} {failure : Failure}

/-- A call whose references are not all there changes nothing. -/
theorem run_of_lookUp_eq_error (h : shared.bundle.lookUp action.needs = .error failure) :
    shared.run loader action = (.error failure, shared, loader) := by
  rw [← Bundle.prepare_bind_resolve] at h
  rcases bind_eq_error_iff.1 h with hprepare | ⟨job, hprepare, hresolve⟩
  · exact run_of_prepare_eq_error hprepare
  · exact run_of_ensure_eq_error hprepare (ensure_of_resolve_eq_error hresolve)

theorem calls_runEvents (h : shared.bundle.lookUp action.needs = .error failure) :
    Event.calls (shared.runEvents action) = [] := by
  rw [runEvents, Event.calls_append, Bundle.calls_prepareEvents]
  rw [← Bundle.prepare_bind_resolve] at h
  rcases bind_eq_error_iff.1 h with hprepare | ⟨job, hprepare, hresolve⟩
  · rw [hprepare]
    rfl
  · rw [hprepare, List.nil_append]
    show Event.calls (shared.ensureEvents job.request) = []
    rw [ensureEvents]
    cases shared.slot with
    | none => exact Highlighter.calls_createEvents hresolve
    | some engine => exact Highlighter.calls_loadEvents hresolve

theorem ensure_eq_error (h : shared.bundle.resolve request = .ok assets)
    (hensure : (shared.ensure loader request).1 = .error failure) :
    ∃ cause, failure = .engine cause := by
  rcases hslot : shared.slot with - | engine
  · rcases Nat.eq_zero_or_pos loader.failures with hzero | hpos
    · rcases hthemes : Engine.registration assets.themes with cause | ⟨⟨⟩⟩
      · rw [ensure_of_unnamed hslot h hzero hthemes] at hensure
        exact ⟨cause, (Except.error.inj hensure).symm⟩
      · rw [ensure_of_named hslot h hzero hthemes] at hensure
        exact absurd hensure nofun
    · rw [ensure_of_pos hslot h hpos] at hensure
      exact ⟨.creationFailed, (Except.error.inj hensure).symm⟩
  · rw [ensure_of_some hslot h] at hensure
    exact exists_engine_of_mapError hensure

/-- A call whose references are all there can only fail in the engine. -/
theorem run_eq_error (h : shared.bundle.lookUp action.needs = .ok assets)
    (hrun : (shared.run loader action).1 = .error failure) : ∃ cause, failure = .engine cause := by
  rw [← Bundle.prepare_bind_resolve] at h
  obtain ⟨job, hprepare, hresolve⟩ := bind_eq_ok_iff.1 h
  rcases hensure : shared.ensure loader job.request with ⟨failure' | engine, later, rest⟩
  · rw [run_of_ensure_eq_error hprepare hensure] at hrun
    obtain rfl := Except.error.inj hrun
    exact ensure_eq_error hresolve (congrArg Prod.fst hensure)
  · rw [run_of_ensure_eq_ok hprepare hensure] at hrun
    cases hanswer : job.rendering.run engine with
    | ok answer =>
      rw [hanswer] at hrun
      exact absurd hrun nofun
    | error cause =>
      rw [hanswer] at hrun
      exact ⟨cause, (Except.error.inj hrun).symm⟩

end Shared

namespace Operation

variable {scene : Scene} {operation : Operation} {assets : Assets} {failure : Failure}

theorem map_eq_error {α β : Type} {x : Except Failure α} {f : α → β}
    (h : x.map f = .error failure) : x = .error failure := by
  cases x with
  | ok a => exact absurd h nofun
  | error e => rw [Except.error.inj h]

/-- **When a reference is missing, that is all that happens.** -/
theorem run_of_lookUp_eq_error
    (h : (operation.bundle scene).lookUp operation.needs = .error failure) :
    operation.run scene = (.error failure, scene) ∧ Event.calls (operation.events scene) = [] := by
  cases operation with
  | create request className =>
    have hresolve : scene.shared.bundle.resolve request = .error failure := h
    rw [run, Highlighter.create_of_resolve_eq_error hresolve]
    exact ⟨rfl, Highlighter.calls_createEvents h⟩
  | loadLanguages languages =>
    have hresolve : scene.highlighter.bundle.resolve ⟨[], languages⟩ = .error failure := h
    rw [run, Highlighter.loadLanguages, Highlighter.load_of_resolve_eq_error hresolve]
    exact ⟨rfl, Highlighter.calls_loadEvents hresolve⟩
  | loadThemes themes =>
    rw [run, Highlighter.loadThemes, Highlighter.load_of_resolve_eq_error h]
    exact ⟨rfl, Highlighter.calls_loadEvents h⟩
  | load request =>
    rw [run, Highlighter.load_of_resolve_eq_error h]
    exact ⟨rfl, Highlighter.calls_loadEvents h⟩
  | call action =>
    rw [run, Shared.run_of_lookUp_eq_error h]
    exact ⟨rfl, Shared.calls_runEvents h⟩

/-- When none is missing, only the engine can fail. -/
theorem run_eq_error (h : (operation.bundle scene).lookUp operation.needs = .ok assets)
    (hrun : (operation.run scene).1 = .error failure) : ∃ cause, failure = .engine cause := by
  cases operation with
  | create request className => exact Highlighter.create_eq_error h (map_eq_error hrun)
  | loadLanguages languages =>
    have hresolve : scene.highlighter.bundle.resolve ⟨[], languages⟩ = .ok assets := h
    exact Highlighter.load_eq_error hresolve (map_eq_error hrun)
  | loadThemes themes => exact Highlighter.load_eq_error h (map_eq_error hrun)
  | load request => exact Highlighter.load_eq_error h (map_eq_error hrun)
  | call action => exact Shared.run_eq_error h (map_eq_error hrun)

/-- **A missing reference is reported first, and before anything is touched.** In any state, and
whatever else is wrong:

* an operation reports an id exactly when that is the id of the first reference it needs which is
  not in the bundle, themes before languages;
* so it reports one exactly when not everything it needs is there;
* and then neither an engine, nor the slot, nor the loader has changed, and no engine was called. -/
theorem missing_reference_comes_first (scene : Scene) (operation : Operation) :
    (∀ kind id, (operation.run scene).1 = .error (.notBundled kind id) ↔
      (operation.bundle scene).FirstMissing operation.needs kind id) ∧
    ((∃ kind id, (operation.run scene).1 = .error (.notBundled kind id)) ↔
      ¬(operation.bundle scene).HasAll operation.needs) ∧
    ∀ kind id, (operation.run scene).1 = .error (.notBundled kind id) →
      (operation.run scene).2 = scene ∧ Event.calls (operation.events scene) = [] := by
  rcases h : (operation.bundle scene).lookUp operation.needs with failure | assets
  · obtain ⟨hrun, hcalls⟩ := run_of_lookUp_eq_error h
    obtain ⟨kind, id, rfl, hfirst⟩ := Bundle.lookUp_eq_error_iff.1 h
    have hmissing : ¬(operation.bundle scene).HasAll operation.needs := fun hall ↦ by
      obtain ⟨assets, hok⟩ := Bundle.hasAll_iff.1 hall
      exact absurd (hok.symm.trans h) nofun
    rw [hrun]
    refine ⟨fun kind' id' ↦ ⟨fun heq ↦ ?_, fun hfirst' ↦ ?_⟩,
      iff_of_true ⟨kind, id, rfl⟩ hmissing, fun _ _ _ ↦ ⟨rfl, hcalls⟩⟩
    · obtain ⟨rfl, rfl⟩ := Failure.notBundled.inj (Except.error.inj heq)
      exact hfirst
    · have hother := Bundle.lookUp_eq_error_iff.2 ⟨kind', id', rfl, hfirst'⟩
      rw [Except.error.inj (h.symm.trans hother)]
  · -- with everything there, no side of the equivalences holds
    have hnone : ∀ kind id, (operation.run scene).1 ≠ .error (.notBundled kind id) := by
      intro kind id hrun
      obtain ⟨cause, hcause⟩ := run_eq_error h hrun
      exact absurd hcause nofun
    refine ⟨fun kind id ↦ iff_of_false (hnone kind id) fun hfirst ↦ ?_,
      iff_of_false (fun ⟨kind, id, hrun⟩ ↦ hnone kind id hrun)
        (not_not_intro (Bundle.hasAll_iff.2 ⟨assets, h⟩)),
      fun kind id hrun ↦ absurd hrun (hnone kind id)⟩
    have hother := Bundle.lookUp_eq_error_iff.2 ⟨kind, id, rfl, hfirst⟩
    exact absurd (h.symm.trans hother) nofun

/-- Nothing about this call is right: two failures are due, one theme has no name, two others and
the language are not in the bundle. -/
theorem missing_reference_comes_first_of_nameless :
    let scene : Scene := ⟨⟨.empty, .blank 1 none⟩, .ofBundle .empty none, ⟨0, 2⟩⟩
    let operation : Operation := .call (.get
      ⟨[.inline Sample.nameless, .bundled " ", .bundled "dusk", .bundled "dawn"], [.bundled "js"]⟩)
    (operation.run scene).1 = .error (.notBundled .theme "dusk") ∧
      (operation.run scene).2 = scene ∧ Event.calls (operation.events scene) = [] := by
  intro scene operation
  obtain ⟨hreported, -, hunchanged⟩ := missing_reference_comes_first scene operation
  have hsplit : operation.needs.themes =
      [.inline Sample.nameless] ++ .bundled "dusk" :: [.bundled "dawn"] := by decide +kernel
  have hfirst : (operation.bundle scene).FirstMissing operation.needs .theme "dusk" :=
    .theme hsplit (List.forall_mem_singleton.2 trivial) (by decide)
  have hrun := (hreported .theme "dusk").2 hfirst
  exact ⟨hrun, hunchanged _ _ hrun⟩

end Operation

end HighlightBundle
