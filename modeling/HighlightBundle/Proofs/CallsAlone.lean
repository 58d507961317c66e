import HighlightBundle.Proofs.Jobs

/-!
# A call that runs alone

The equations of `Shared.ensure` and `Shared.run`, one for each way that a call on its own can go.
Whether the request resolves comes first; then the slot decides between a creation and a load, the
failures that are due decide about the creation, and the names of the themes decide about both.
-/

namespace HighlightBundle

namespace Engine

variable {engine : Engine} {assets : Assets}

@[simp]
theorem load_className (engine : Engine) (assets : Assets) :
    (engine.load assets).2.className = engine.className := by
  obtain ⟨themes, packs⟩ := assets
  cases themes <;> cases packs <;> rfl

/-- A load succeeds when the registration of the themes does. -/
@[simp]
theorem load_fst (engine : Engine) (assets : Assets) :
    (engine.load assets).1 = registration assets.themes := by
  obtain ⟨themes, packs⟩ := assets
  cases themes <;> rfl

end Engine

/-- A creation whose request resolves is the creation of its engine. -/
theorem Highlighter.create_of_resolve_eq_ok {bundle : Bundle} {loader rest : Loader}
    {request : Request} {className : Option String} {assets : Assets}
    {answer : Except EngineFailure Engine} (hresolve : bundle.resolve request = .ok assets)
    (hcreate : Engine.create loader assets className = (answer, rest)) :
    create bundle loader request className =
      ((answer.mapError .engine).map fun engine ↦ ⟨bundle, engine⟩, rest) := by
  rw [create, hresolve]
  simp only [hcreate]

namespace Shared

open Engine

variable {shared later : Shared} {loader rest : Loader} {request : Request} {assets : Assets}
  {engine : Engine} {action : Action} {job : Job}

/-- The shared highlighter with another engine in the slot. -/
def put (shared : Shared) (engine : Engine) : Shared :=
  { shared with slot := some engine }

/-! ### Making sure of the engine -/

/-- A request that does not resolve changes nothing. -/
theorem ensure_of_resolve_eq_error {failure : Failure}
    (hresolve : shared.bundle.resolve request = .error failure) :
    shared.ensure loader request = (.error failure, shared, loader) := by
  obtain ⟨bundle, className, slot⟩ := shared
  rw [ensure]
  rcases slot with - | engine
  · simp only [Highlighter.create, hresolve]
  · simp only [Highlighter.load, hresolve]
    rfl

/-- A creation uses up a failure that is due. -/
theorem ensure_of_pos (hslot : shared.slot = none)
    (hresolve : shared.bundle.resolve request = .ok assets) (hfailures : 0 < loader.failures) :
    shared.ensure loader request = (.error (.engine .creationFailed), shared,
      { loader.asked with failures := loader.failures - 1 }) := by
  have hcreate : Engine.create loader assets shared.className =
      (.error .creationFailed, { loader.asked with failures := loader.failures - 1 }) :=
    build_of_pos hfailures
  rw [ensure, hslot, Highlighter.create_of_resolve_eq_ok hresolve hcreate]
  rfl

/-- When no failure is due, the creation depends on the themes. -/
theorem create_of_eq_zero {className : Option String} (hfailures : loader.failures = 0) :
    Engine.create loader assets className =
      ((registration assets.themes).map fun _ ↦ stocked (loader.creations + 1) className assets,
        loader.asked) :=
  build_of_eq_zero hfailures

theorem ensure_of_unnamed {failure : EngineFailure} (hslot : shared.slot = none)
    (hresolve : shared.bundle.resolve request = .ok assets) (hfailures : loader.failures = 0)
    (hthemes : registration assets.themes = .error failure) :
    shared.ensure loader request = (.error (.engine failure), shared, loader.asked) := by
  rw [ensure, hslot, Highlighter.create_of_resolve_eq_ok hresolve (create_of_eq_zero hfailures),
    hthemes]
  rfl

theorem ensure_of_named (hslot : shared.slot = none)
    (hresolve : shared.bundle.resolve request = .ok assets) (hfailures : loader.failures = 0)
    (hthemes : registration assets.themes = .ok ()) : shared.ensure loader request =
      (.ok (stocked (loader.creations + 1) shared.className assets),
        shared.put (stocked (loader.creations + 1) shared.className assets), loader.asked) := by
  rw [ensure, hslot, Highlighter.create_of_resolve_eq_ok hresolve (create_of_eq_zero hfailures),
    hthemes]
  rfl

/-- With an engine there is a load, which keeps what it has done even if it fails. -/
theorem ensure_of_some (hslot : shared.slot = some engine)
    (hresolve : shared.bundle.resolve request = .ok assets) : shared.ensure loader request =
      (((registration assets.themes).mapError .engine).map fun _ ↦ (engine.load assets).2,
        shared.put (engine.load assets).2, loader) := by
  rw [ensure, hslot]
  simp only [Highlighter.load, hresolve, load_fst]
  cases registration assets.themes <;> rfl

/-! ### Calls -/

theorem run_of_prepare_eq_error {failure : Failure}
    (hprepare : shared.bundle.prepare action = .error failure) :
    shared.run loader action = (.error failure, shared, loader) := by
  rw [run, hprepare]

theorem run_of_ensure_eq_error {failure : Failure}
    (hprepare : shared.bundle.prepare action = .ok job)
    (hensure : shared.ensure loader job.request = (.error failure, later, rest)) :
    shared.run loader action = (.error failure, later, rest) := by
  rw [run, hprepare]
  simp only [hensure]

theorem run_of_ensure_eq_ok (hprepare : shared.bundle.prepare action = .ok job)
    (hensure : shared.ensure loader job.request = (.ok engine, later, rest)) :
    shared.run loader action = ((job.rendering.run engine).mapError .engine, later, rest) := by
  rw [run, hprepare]
  simp only [hensure]

/-- Rendering itself changes nothing: what a call leaves behind is a matter of its request. -/
theorem run_snd_eq_ensure (hprepare : shared.bundle.prepare action = .ok job) :
    (shared.run loader action).2 = (shared.ensure loader job.request).2 := by
  rcases hensure : shared.ensure loader job.request with ⟨failure | engine, later, rest⟩
  · rw [run_of_ensure_eq_error hprepare hensure]
  · rw [run_of_ensure_eq_ok hprepare hensure]

/-- A call that finds an engine loads and then renders, unless the load has failed. -/
theorem run_of_some (hprepare : shared.bundle.prepare action = .ok job)
    (hslot : shared.slot = some engine)
    (hresolve : shared.bundle.resolve job.request = .ok assets) : shared.run loader action =
      ((registration assets.themes >>= fun _ ↦ job.rendering.run (engine.load assets).2).mapError
        .engine, shared.put (engine.load assets).2, loader) := by
  have hensure : shared.ensure loader job.request = _ := ensure_of_some hslot hresolve
  rcases hthemes : registration assets.themes with failure | ⟨⟨⟩⟩
  · rw [hthemes] at hensure
    rw [run_of_ensure_eq_error hprepare hensure]
    rfl
  · rw [hthemes] at hensure
    rw [run_of_ensure_eq_ok hprepare hensure]
    rfl

/-! ### One call after the other -/

/-- A call that comes last has no part in what the others do. -/
theorem runAll_concat {actions : List Action} {answers : List (Except Failure Answer)}
    {answer : Except Failure Answer} {shared later last : Shared} {loader rest final : Loader}
    (hall : shared.runAll loader actions = (answers, later, rest))
    (hrun : later.run rest action = (answer, last, final)) :
    shared.runAll loader (actions ++ [action]) = (answers ++ [answer], last, final) := by
  induction actions generalizing shared loader answers with
  | nil =>
    obtain ⟨rfl, rfl, rfl⟩ : [] = answers ∧ shared = later ∧ loader = rest := by
      simpa [runAll] using hall
    simp only [List.nil_append, runAll, hrun]
  | cons first actions ih =>
    rcases hfirst : shared.run loader first with ⟨a, s, l⟩
    rcases hothers : s.runAll l actions with ⟨as, s', l'⟩
    rw [runAll] at hall
    simp only [hfirst, hothers, Prod.mk.injEq] at hall
    obtain ⟨rfl, rfl, rfl⟩ := hall
    rw [List.cons_append, runAll]
    simp only [hfirst, ih hothers]
    rfl

end Shared

end HighlightBundle
