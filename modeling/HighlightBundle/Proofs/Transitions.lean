import HighlightBundle.Proofs.Jobs
import HighlightBundle.Shared.Interleaving

/-!
# What a step of a call can do

`Crowd.step` is a function that looks a caller up and branches on its phase. `Transition` says the
same as a relation with one rule for each thing that can happen, guards included: a call in a phase
changes the shared state, the loader and the permit in some way, and is in another phase then. The
other callers are not mentioned by any rule, so that a step leaves them alone is part of the shape
(`step_eq_some_iff`), and every invariant of the runs is one case analysis over the rules.

The two ways in which a creation can fail have rules of their own, because only one of them uses up
a failure that was due.
-/

namespace HighlightBundle.Shared

open Engine

namespace Crowd

variable {crowd world after last : Crowd} {caller other : Nat} {turn : Turn} {old new phase : Phase}
  {engine : Engine}

/-! ### Entering a phase and storing an engine -/

@[simp]
theorem enter_shared : (crowd.enter caller phase).shared = crowd.shared :=
  rfl

@[simp]
theorem enter_loader : (crowd.enter caller phase).loader = crowd.loader :=
  rfl

@[simp]
theorem enter_permit : (crowd.enter caller phase).permit = crowd.permit :=
  rfl

@[simp]
theorem enter_callers : (crowd.enter caller phase).callers = crowd.callers.set caller phase :=
  rfl

@[simp]
theorem store_slot : (crowd.store engine).shared.slot = some engine :=
  rfl

/-- The caller itself is in the phase that it has entered. -/
theorem enter_callers_self (h : crowd.callers[caller]? = some old) :
    (crowd.enter caller phase).callers[caller]? = some phase := by
  obtain ⟨hlt, -⟩ := List.getElem?_eq_some_iff.1 h
  exact List.getElem?_set_self hlt

/-- All others are where they were. -/
theorem enter_callers_of_ne (h : caller ≠ other) :
    (crowd.enter caller phase).callers[other]? = crowd.callers[other]? :=
  List.getElem?_set_ne h

/-- Only the last phase that is entered counts. -/
theorem enter_enter {first : Phase} :
    (crowd.enter caller first).enter caller phase = crowd.enter caller phase := by
  simp only [enter, List.set_set]

/-- At the start no call has begun. -/
theorem eq_fresh_of_mem {shared : Shared} {loader : Loader} {actions : List Action}
    (h : phase ∈ (ofActions shared loader actions).callers) : ∃ action, phase = .fresh action := by
  obtain ⟨action, -, rfl⟩ := List.mem_map.1 h
  exact ⟨action, rfl⟩

/-! ### The rules -/

/-- Where a load stands when it starts: an empty batch has nothing to do. -/
def loadStart (job : Job) (assets : Assets) : Phase :=
  .loading job assets (if assets.themes.isEmpty then some (.ok ()) else none) assets.packs.isEmpty

/-- What can happen to a caller in a phase: the crowd around it changes, and it is in another
phase then. -/
inductive Transition (crowd : Crowd) (caller : Nat) : Turn → Phase → Crowd → Phase → Prop
  /-- A reference of a rendering call does not resolve. -/
  | refused {action : Action} {failure : Failure}
      (hprepare : crowd.shared.bundle.prepare action = .error failure) :
      Transition crowd caller .next (.fresh action) crowd (.finished (.error failure))
  | prepared {action : Action} {job : Job}
      (hprepare : crowd.shared.bundle.prepare action = .ok job) :
      Transition crowd caller .next (.fresh action) crowd (.asking job)
  /-- There is an engine, but the request does not resolve. -/
  | loadRefused {job : Job} {engine : Engine} {failure : Failure}
      (hslot : crowd.shared.slot = some engine)
      (hresolve : crowd.shared.bundle.resolve job.request = .error failure) :
      Transition crowd caller .next (.asking job) crowd (.finished (.error failure))
  | loadStarted {job : Job} {engine : Engine} {assets : Assets}
      (hslot : crowd.shared.slot = some engine)
      (hresolve : crowd.shared.bundle.resolve job.request = .ok assets) :
      Transition crowd caller .next (.asking job) crowd (loadStart job assets)
  /-- The permit is free, but the request does not resolve. -/
  | creationRefused {job : Job} {failure : Failure} (hslot : crowd.shared.slot = none)
      (hpermit : crowd.permit = none)
      (hresolve : crowd.shared.bundle.resolve job.request = .error failure) :
      Transition crowd caller .next (.asking job) crowd (.finished (.error failure))
  | creationStarted {job : Job} {assets : Assets} (hslot : crowd.shared.slot = none)
      (hpermit : crowd.permit = none)
      (hresolve : crowd.shared.bundle.resolve job.request = .ok assets) :
      Transition crowd caller .next (.asking job)
        { crowd with permit := some caller, loader := crowd.loader.asked } (.creating job assets)
  /-- A failure is due. -/
  | creationFailed {job : Job} {assets : Assets} (hfailures : 0 < crowd.loader.failures) :
      Transition crowd caller .next (.creating job assets)
        { crowd with
          loader := { crowd.loader with failures := crowd.loader.failures - 1 }, permit := none }
        (.finished (.error (.engine .creationFailed)))
  /-- No failure is due, but a theme has no name. -/
  | creationUnnamed {job : Job} {assets : Assets} {failure : EngineFailure}
      (hfailures : crowd.loader.failures = 0)
      (hthemes : registration assets.themes = .error failure) :
      Transition crowd caller .next (.creating job assets) { crowd with permit := none }
        (.finished (.error (.engine failure)))
  | built {job : Job} {assets : Assets} (hfailures : crowd.loader.failures = 0)
      (hthemes : registration assets.themes = .ok ()) :
      Transition crowd caller .next (.creating job assets) crowd
        (.created job (stocked crowd.loader.creations crowd.shared.className assets))
  | published {job : Job} {engine : Engine} :
      Transition crowd caller .next (.created job engine)
        ({ crowd with permit := none }.store engine) (.rendering job)
  | themesLoaded {job : Job} {assets : Assets} {languages : Bool} {engine : Engine}
      (hslot : crowd.shared.slot = some engine) :
      Transition crowd caller .themes (.loading job assets none languages)
        (crowd.store (engine.loadThemes assets.themes).2)
        (.loading job assets (some (registration assets.themes)) languages)
  | languagesLoaded {job : Job} {assets : Assets} {themes : Option (Except EngineFailure Unit)}
      {engine : Engine} (hslot : crowd.shared.slot = some engine) :
      Transition crowd caller .languages (.loading job assets themes false)
        (crowd.store (engine.loadLanguages assets.packs)) (.loading job assets themes true)
  | loadFailed {job : Job} {assets : Assets} {failure : EngineFailure} :
      Transition crowd caller .next (.loading job assets (some (.error failure)) true) crowd
        (.finished (.error (.engine failure)))
  | loaded {job : Job} {assets : Assets} :
      Transition crowd caller .next (.loading job assets (some (.ok ())) true) crowd
        (.rendering job)
  | rendered {job : Job} {engine : Engine} (hslot : crowd.shared.slot = some engine) :
      Transition crowd caller .next (.rendering job) crowd
        (.finished ((job.rendering.run engine).mapError .engine))

/-- No rule mentions the other callers. -/
theorem Transition.callers_eq (h : Transition crowd caller turn old world new) :
    world.callers = crowd.callers := by
  cases h <;> rfl

/-- After a step the caller is in its new phase. -/
theorem Transition.callers_self (h : Transition crowd caller turn old world new)
    (hold : crowd.callers[caller]? = some old) :
    (world.enter caller new).callers[caller]? = some new :=
  enter_callers_self (h.callers_eq ▸ hold)

/-- After a step all others are where they were. -/
theorem Transition.callers_of_ne (h : Transition crowd caller turn old world new)
    (hne : caller ≠ other) : (world.enter caller new).callers[other]? = crowd.callers[other]? := by
  rw [enter_callers_of_ne hne, h.callers_eq]

/-- A finished call stays as it is. -/
theorem Transition.not_finished {answer : Except Failure Answer}
    (h : Transition crowd caller turn (.finished answer) world new) : False := by
  cases h

/-! ### The rules are the steps -/

/-- A creation ends by one of three rules, which depend on the failures that are due and on the
themes. -/
theorem transition_of_build (job : Job) (assets : Assets) :
    ∃ world new, Transition crowd caller .next (.creating job assets) world new ∧
      crowd.build caller job assets = world.enter caller new := by
  rw [build]
  rcases Nat.eq_zero_or_pos crowd.loader.failures with hzero | hpos
  · rw [build_of_eq_zero hzero]
    rcases hthemes : registration assets.themes with failure | ⟨⟨⟩⟩
    · exact ⟨_, _, .creationUnnamed hzero hthemes, rfl⟩
    · exact ⟨_, _, .built hzero hthemes, rfl⟩
  · rw [build_of_pos hpos]
    exact ⟨_, _, .creationFailed hpos, rfl⟩

/-- Every step follows a rule. -/
theorem exists_transition_of_step (h : crowd.step caller turn = some after) :
    ∃ old world new, crowd.callers[caller]? = some old ∧
      Transition crowd caller turn old world new ∧ after = world.enter caller new := by
  rw [step] at h
  obtain ⟨old, hold, h⟩ := Option.bind_eq_some_iff.1 h
  suffices hrule : ∃ world new, Transition crowd caller turn old world new ∧
      after = world.enter caller new by
    obtain ⟨world, new, hrule⟩ := hrule
    exact ⟨old, world, new, hold, hrule⟩
  -- the phase and the turn select the branch; where they do not fit there is no step
  cases old with
  | fresh action =>
    cases turn
    case next =>
      obtain rfl := Option.some.inj h
      rw [begin]
      rcases hprepare : crowd.shared.bundle.prepare action with failure | job
      · exact ⟨_, _, .refused hprepare, rfl⟩
      · exact ⟨_, _, .prepared hprepare, rfl⟩
    all_goals exact (Option.some_ne_none _ h.symm).elim
  | asking job =>
    cases turn
    case next =>
      rcases hslot : crowd.shared.slot with - | engine
      · rcases hpermit : crowd.permit with - | holder
        · simp only [hslot, hpermit] at h
          obtain rfl := Option.some.inj h
          rw [startCreation]
          rcases hresolve : crowd.shared.bundle.resolve job.request with failure | assets
          · exact ⟨_, _, .creationRefused hslot hpermit hresolve, rfl⟩
          · exact ⟨_, _, .creationStarted hslot hpermit hresolve, rfl⟩
        · simp only [hslot, hpermit] at h
          exact (Option.some_ne_none _ h.symm).elim
      · simp only [hslot] at h
        obtain rfl := Option.some.inj h
        rw [startLoad]
        rcases hresolve : crowd.shared.bundle.resolve job.request with failure | assets
        · exact ⟨_, _, .loadRefused hslot hresolve, rfl⟩
        · exact ⟨_, _, .loadStarted hslot hresolve, rfl⟩
    all_goals exact (Option.some_ne_none _ h.symm).elim
  | creating job assets =>
    cases turn
    case next =>
      obtain rfl := Option.some.inj h
      exact transition_of_build job assets
    all_goals exact (Option.some_ne_none _ h.symm).elim
  | created job engine =>
    cases turn
    case next =>
      obtain rfl := Option.some.inj h
      exact ⟨_, _, .published, rfl⟩
    all_goals exact (Option.some_ne_none _ h.symm).elim
  | loading job assets themes languages =>
    cases turn
    case next =>
      rcases themes with - | outcome <;> cases languages
      case some.true =>
        obtain rfl := Option.some.inj h
        rcases outcome with failure | ⟨⟨⟩⟩
        · exact ⟨_, _, .loadFailed, rfl⟩
        · exact ⟨_, _, .loaded, rfl⟩
      all_goals exact (Option.some_ne_none _ h.symm).elim
    case themes =>
      rcases themes with - | outcome <;> cases languages
      case none.false | none.true =>
        obtain ⟨engine, hslot, h⟩ := Option.bind_eq_some_iff.1 h
        obtain rfl := Option.some.inj h
        exact ⟨_, _, .themesLoaded hslot, rfl⟩
      all_goals exact (Option.some_ne_none _ h.symm).elim
    case languages =>
      rcases themes with - | outcome <;> cases languages
      case none.false | some.false =>
        obtain ⟨engine, hslot, h⟩ := Option.bind_eq_some_iff.1 h
        obtain rfl := Option.some.inj h
        exact ⟨_, _, .languagesLoaded hslot, rfl⟩
      all_goals exact (Option.some_ne_none _ h.symm).elim
  | rendering job =>
    cases turn
    case next =>
      obtain ⟨engine, hslot, h⟩ := Option.bind_eq_some_iff.1 h
      obtain rfl := Option.some.inj h
      exact ⟨_, _, .rendered hslot, rfl⟩
    all_goals exact (Option.some_ne_none _ h.symm).elim
  | finished answer => exact (Option.some_ne_none _ h.symm).elim

/-- Every rule is a step. -/
theorem Transition.step_eq (hold : crowd.callers[caller]? = some old)
    (h : Transition crowd caller turn old world new) :
    crowd.step caller turn = some (world.enter caller new) := by
  rw [step, hold]
  cases h with
  | refused hprepare | prepared hprepare =>
    show some (crowd.begin caller _) = _
    simp only [begin, hprepare]
  | loadRefused hslot hresolve | loadStarted hslot hresolve =>
    simp only [Option.bind_eq_bind, Option.bind_some, hslot, startLoad, hresolve]
    rfl
  | creationRefused hslot hpermit hresolve | creationStarted hslot hpermit hresolve =>
    simp only [Option.bind_eq_bind, Option.bind_some, hslot, hpermit, startCreation, hresolve]
    rfl
  | creationFailed hfailures =>
    show some (crowd.build caller _ _) = _
    simp only [build, build_of_pos hfailures]
  | creationUnnamed hfailures hthemes | built hfailures hthemes =>
    show some (crowd.build caller _ _) = _
    simp only [build, build_of_eq_zero hfailures, hthemes, Except.map]
  | published | loadFailed | loaded => rfl
  | themesLoaded hslot | languagesLoaded hslot | rendered hslot =>
    simp only [Option.bind_eq_bind, Option.bind_some, hslot]
    rfl

/-- **A step follows a rule**, and leaves all other callers alone. -/
theorem step_eq_some_iff : crowd.step caller turn = some after ↔
    ∃ old world new, crowd.callers[caller]? = some old ∧
      Transition crowd caller turn old world new ∧ after = world.enter caller new := by
  refine ⟨exists_transition_of_step, ?_⟩
  rintro ⟨old, world, new, hold, h, rfl⟩
  exact h.step_eq hold

end Crowd

end HighlightBundle.Shared
