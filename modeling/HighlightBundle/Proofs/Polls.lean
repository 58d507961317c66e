import HighlightBundle.Proofs.CallInvariant
import HighlightBundle.Proofs.CallsAlone

/-!
# What a poll does

On one thread a caller is polled, and then it goes on until it has to wait. So between two polls
only few phases occur (`Phase.Pending`): a call has not begun, waits for the permit, waits for its
creation, or waits at the start of its load.

`Polled` says what one poll does to a call that waits, and there are two cases. Either the call
still waits after it, and the shared highlighter is as it was; or the call has returned, and
**everything that it did to the shared highlighter it did in this poll**: the poll has the effect of
the whole call, run alone in the state that the poll found.

The one thing that a call does before its last poll is asking for its creation. It is counted at
once, when the call takes the permit. A loader without this count is `Settled`: it is the one that
calls would have that ran one after the other, each counting its creation when it ends.
-/

namespace HighlightBundle.Shared

open Engine

namespace Crowd

variable {bundle : Bundle} {actions : List Action} {crowd world after last : Crowd}
  {caller fuel : Nat} {turn : Turn} {old new : Phase} {engine : Engine} {action : Action}
  {job : Job} {assets : Assets} {loader : Loader}

/-! ### The steps of a poll -/

/-- A caller that cannot take its step stays where it is. -/
theorem pollSteps_of_step_eq_none (hold : crowd.callers[caller]? = some old)
    (hstep : crowd.step caller (defaultTurn old) = none) :
    (crowd.pollSteps fuel caller).1 = crowd := by
  cases fuel with
  | zero => rfl
  | succ fuel =>
    rw [pollSteps, hold]
    simp only [hstep]

/-- A step into a phase that lets others go on is the last one of the poll. -/
theorem pollSteps_pause (hold : crowd.callers[caller]? = some old)
    (ht : Transition crowd caller (defaultTurn old) old world new) (hyields : yields new = true)
    (hloading : isLoading old = false) :
    (crowd.pollSteps (fuel + 1) caller).1 = world.enter caller new := by
  rw [pollSteps, hold]
  simp only [ht.step_eq hold, ht.callers_self hold, hyields, hloading]
  rfl

/-- After any other step the poll goes on. -/
theorem pollSteps_goOn (hold : crowd.callers[caller]? = some old)
    (ht : Transition crowd caller (defaultTurn old) old world new)
    (hgo : (yields new && !isLoading old) = false) : (crowd.pollSteps (fuel + 1) caller).1 =
      ((world.enter caller new).pollSteps fuel caller).1 := by
  rw [pollSteps, hold]
  simp only [ht.step_eq hold, ht.callers_self hold, hgo]
  rfl

/-- A call that has returned takes no step. -/
theorem step_of_finished {answer : Except Failure Answer}
    (hold : crowd.callers[caller]? = some (.finished answer)) : crowd.step caller turn = none := by
  refine Option.eq_none_iff_forall_ne_some.2 fun after hafter ↦ ?_
  obtain ⟨old, world, new, hold', ht, -⟩ := step_eq_some_iff.1 hafter
  obtain rfl := Option.some.inj (hold.symm.trans hold')
  exact ht.not_finished

theorem pollSteps_of_finished {answer : Except Failure Answer}
    (hold : crowd.callers[caller]? = some (.finished answer)) :
    (crowd.pollSteps fuel caller).1 = crowd :=
  pollSteps_of_step_eq_none hold (step_of_finished hold)

/-- **A poll is a run** of steps of its caller. -/
theorem exists_steps_pollSteps (fuel : Nat) (crowd : Crowd) (caller : Nat) :
    ∃ moves, crowd.steps moves = some (crowd.pollSteps fuel caller).1 := by
  induction fuel generalizing crowd with
  | zero => exact ⟨[], rfl⟩
  | succ fuel ih =>
    rcases hold : crowd.callers[caller]? with - | old
    · exact ⟨[], by rw [pollSteps, hold]; rfl⟩
    · rcases hstep : crowd.step caller (defaultTurn old) with - | after
      · exact ⟨[], by rw [pollSteps_of_step_eq_none hold hstep]; rfl⟩
      · obtain ⟨old', world, new, hold', ht, rfl⟩ := step_eq_some_iff.1 hstep
        obtain rfl := Option.some.inj (hold.symm.trans hold')
        rcases hgo : yields new && !isLoading old with - | -
        · obtain ⟨moves, hmoves⟩ := ih (world.enter caller new)
          refine ⟨(caller, defaultTurn old) :: moves, steps_cons.2 ⟨_, hstep, ?_⟩⟩
          rw [pollSteps_goOn hold ht hgo]
          exact hmoves
        · obtain ⟨hyields, hloading⟩ := Bool.and_eq_true_iff.1 hgo
          refine ⟨[(caller, defaultTurn old)], steps_cons.2 ⟨_, hstep, ?_⟩⟩
          rw [pollSteps_pause hold ht hyields (by simpa using hloading)]
          rfl

/-! ### A load goes on to its end -/

theorem pollSteps_rendering (hold : crowd.callers[caller]? = some (.rendering job))
    (hslot : crowd.shared.slot = some engine) : (crowd.pollSteps (fuel + 1) caller).1 =
      crowd.enter caller (.finished ((job.rendering.run engine).mapError .engine)) :=
  pollSteps_pause hold (.rendered hslot) rfl rfl

/-- Both batches are done: the outcome of the themes decides whether there is anything to
render. -/
theorem pollSteps_loaded {outcome : Except EngineFailure Unit}
    (hold : crowd.callers[caller]? = some (.loading job assets (some outcome) true))
    (hslot : crowd.shared.slot = some engine) : (crowd.pollSteps (fuel + 2) caller).1 =
      crowd.enter caller
        (.finished ((outcome >>= fun _ ↦ job.rendering.run engine).mapError .engine)) := by
  rcases outcome with failure | ⟨⟨⟩⟩
  · rw [pollSteps_goOn hold .loadFailed rfl]
    exact pollSteps_of_finished (enter_callers_self hold)
  · rw [pollSteps_goOn hold .loaded rfl, pollSteps_rendering (enter_callers_self hold) hslot,
      enter_enter]
    rfl

/-- The languages are still to be loaded. -/
theorem pollSteps_languages {outcome : Except EngineFailure Unit}
    (hold : crowd.callers[caller]? = some (.loading job assets (some outcome) false))
    (hslot : crowd.shared.slot = some engine) : (crowd.pollSteps (fuel + 3) caller).1 =
      (crowd.store (engine.loadLanguages assets.packs)).enter caller (.finished
        ((outcome >>= fun _ ↦ job.rendering.run (engine.loadLanguages assets.packs)).mapError
          .engine)) := by
  have ht : Transition crowd caller .languages (.loading job assets (some outcome) false) _ _ :=
    .languagesLoaded hslot
  rw [pollSteps_goOn hold ht rfl, pollSteps_loaded (ht.callers_self hold) rfl, enter_enter]

/-- **A load that goes on does all of it**: both batches, whichever are not empty, and the
rendering. -/
theorem pollSteps_loadStart (hold : crowd.callers[caller]? = some (loadStart job assets))
    (hslot : crowd.shared.slot = some engine) : (crowd.pollSteps (fuel + 4) caller).1 =
      (crowd.store (engine.load assets).2).enter caller (.finished
        ((registration assets.themes >>= fun _ ↦ job.rendering.run (engine.load assets).2).mapError
          .engine)) := by
  have hstore : crowd.store engine = crowd := by
    obtain ⟨⟨_, _, slot⟩, _, _, _⟩ := crowd
    obtain rfl : slot = some engine := hslot
    rfl
  obtain ⟨themes, packs⟩ := assets
  -- an empty batch counts as done, so the cases are the batches that are left
  cases themes with
  | nil =>
    cases packs with
    | nil =>
      rw [pollSteps_loaded hold hslot]
      show _ = (crowd.store engine).enter caller _
      rw [hstore]
      rfl
    | cons pack packs => exact pollSteps_languages hold hslot
  | cons theme themes =>
    have ht : Transition crowd caller .themes (loadStart job ⟨theme :: themes, packs⟩) _ _ :=
      .themesLoaded hslot
    rw [pollSteps_goOn hold ht (Bool.and_false _)]
    cases packs with
    | nil =>
      rw [pollSteps_loaded (ht.callers_self hold) rfl, enter_enter]
      rfl
    | cons pack packs =>
      rw [pollSteps_languages (ht.callers_self hold) rfl]
      show (((crowd.store _).store _).enter caller _).enter caller _ = _
      rw [enter_enter]
      rfl

/-! ### What a poll does to a call that waits -/

/-- Where a call stands between two polls, as long as it has not returned. -/
inductive Pending : Phase → Prop
  | fresh (action : Action) : Pending (.fresh action)
  | asking (job : Job) : Pending (.asking job)
  | creating (job : Job) (assets : Assets) : Pending (.creating job assets)
  | loading (job : Job) (assets : Assets) : Pending (loadStart job assets)

/-- The loader without the creation that is under way. -/
def Settled (crowd : Crowd) (loader : Loader) : Prop :=
  crowd.loader = if crowd.permit.isSome then loader.asked else loader

/-- What a poll does: the call still waits and nothing has happened, or it has returned and the poll
has had the effect of the whole call. -/
inductive Polled (crowd : Crowd) (caller : Nat) (action : Action) (after : Crowd) : Prop
  | waits {new : Phase} (hcallers : after.callers = crowd.callers.set caller new)
      (hpending : Pending new) (hshared : after.shared = crowd.shared)
      (hsettled : ∀ loader, crowd.Settled loader → after.Settled loader) :
      Polled crowd caller action after
  | returns {answer : Except Failure Answer}
      (hcallers : after.callers = crowd.callers.set caller (.finished answer))
      (hrun : ∀ loader, crowd.Settled loader → ∃ rest,
        crowd.shared.run loader action = (answer, after.shared, rest) ∧ after.Settled rest) :
      Polled crowd caller action after

/-- A call that cannot go on keeps waiting. -/
theorem polled_self (hold : crowd.callers[caller]? = some old) (hpending : Pending old) :
    Polled crowd caller action crowd := by
  have hcallers : crowd.callers = crowd.callers.set caller old := by
    obtain ⟨hlt, heq⟩ := List.getElem?_eq_some_iff.1 hold
    rw [← heq, List.set_getElem_self]
  exact .waits hcallers hpending rfl fun loader h ↦ h

/-- The phases that a call has gone through before do not matter. -/
theorem Polled.of_enter {first : Phase}
    (h : Polled (crowd.enter caller first) caller action after) :
    Polled crowd caller action after := by
  cases h with
  | waits hcallers hpending hshared hsettled =>
    rw [enter_callers, List.set_set] at hcallers
    exact .waits hcallers hpending hshared hsettled
  | returns hcallers hrun =>
    rw [enter_callers, List.set_set] at hcallers
    exact .returns hcallers hrun

/-- A call whose references do not resolve returns with its first poll. -/
theorem polled_refused {failure : Failure}
    (hrun : ∀ loader, crowd.shared.run loader action = (.error failure, crowd.shared, loader)) :
    Polled crowd caller action (crowd.enter caller (.finished (.error failure))) :=
  .returns rfl fun loader hsettled ↦ ⟨loader, hrun loader, hsettled⟩

/-- A call that waits at the start of its load returns with its next poll. -/
theorem polled_loadStart (hold : crowd.callers[caller]? = some (loadStart job assets))
    (hslot : crowd.shared.slot = some engine)
    (hasks : crowd.shared.bundle.Asks action job assets) :
    Polled crowd caller action (crowd.pollSteps (fuel + 4) caller).1 := by
  rw [pollSteps_loadStart hold hslot]
  exact .returns rfl fun loader hsettled ↦
    ⟨loader, run_of_some hasks.prepare hslot hasks.resolve, hsettled⟩

/-- A call that needs an engine. -/
theorem polled_asking (hold : crowd.callers[caller]? = some (.asking job))
    (hprepare : crowd.shared.bundle.prepare action = .ok job) :
    Polled crowd caller action (crowd.pollSteps (fuel + 5) caller).1 := by
  rcases hslot : crowd.shared.slot with - | engine
  · rcases hpermit : crowd.permit with - | holder
    · rcases hresolve : crowd.shared.bundle.resolve job.request with failure | assets
      · rw [pollSteps_pause hold (.creationRefused hslot hpermit hresolve) rfl rfl]
        exact polled_refused fun loader ↦
          run_of_ensure_eq_error hprepare (ensure_of_resolve_eq_error hresolve)
      · rw [pollSteps_pause hold (.creationStarted hslot hpermit hresolve) rfl rfl]
        refine .waits rfl (.creating job assets) rfl fun loader hsettled ↦ ?_
        -- the creation is counted, and it is the one that is under way now
        rw [Settled, hpermit] at hsettled
        obtain rfl : crowd.loader = loader := hsettled
        rfl
    · rw [pollSteps_of_step_eq_none hold]
      · exact polled_self hold (.asking job)
      · show crowd.step caller .next = none
        rw [step, hold]
        simp only [Option.bind_eq_bind, Option.bind_some, hslot, hpermit]
  · rcases hresolve : crowd.shared.bundle.resolve job.request with failure | assets
    · rw [pollSteps_pause hold (.loadRefused hslot hresolve) rfl rfl]
      exact polled_refused fun loader ↦
        run_of_ensure_eq_error hprepare (ensure_of_resolve_eq_error hresolve)
    · have ht : Transition crowd caller .next (.asking job) _ _ := .loadStarted hslot hresolve
      rcases hyields : yields (loadStart job assets) with - | -
      · -- both batches are empty, and the call returns at once
        rw [pollSteps_goOn hold ht (by rw [hyields]; rfl)]
        exact (polled_loadStart (ht.callers_self hold) hslot ⟨hprepare, hresolve⟩).of_enter
      · rw [pollSteps_pause hold ht hyields rfl]
        exact .waits rfl (.loading job assets) rfl fun loader hsettled ↦ hsettled

/-- A call that has not begun. -/
theorem polled_fresh (hold : crowd.callers[caller]? = some (.fresh action)) :
    Polled crowd caller action (crowd.pollSteps (fuel + 6) caller).1 := by
  rcases hprepare : crowd.shared.bundle.prepare action with failure | job
  · rw [pollSteps_pause hold (.refused hprepare) rfl rfl]
    exact polled_refused fun loader ↦ run_of_prepare_eq_error hprepare
  · have ht : Transition crowd caller .next (.fresh action) _ _ := .prepared hprepare
    rw [pollSteps_goOn hold ht rfl]
    exact (polled_asking (ht.callers_self hold) hprepare).of_enter

/-- A call whose creation is under way: the creation ends, and if it has built an engine the call
goes on to its end. -/
theorem polled_creating (hold : crowd.callers[caller]? = some (.creating job assets))
    (hslot : crowd.shared.slot = none) (hpermit : crowd.permit = some caller)
    (hasks : crowd.shared.bundle.Asks action job assets) :
    Polled crowd caller action (crowd.pollSteps (fuel + 3) caller).1 := by
  have hasked : ∀ loader, crowd.Settled loader → crowd.loader = loader.asked := by
    intro loader hsettled
    rw [Settled, hpermit] at hsettled
    exact hsettled
  rcases Nat.eq_zero_or_pos crowd.loader.failures with hzero | hpos
  · rcases hthemes : registration assets.themes with failure | ⟨⟨⟩⟩
    · rw [pollSteps_pause hold (.creationUnnamed hzero hthemes) rfl rfl]
      refine .returns rfl fun loader hsettled ↦ ⟨loader.asked, ?_, hasked loader hsettled⟩
      rw [hasked loader hsettled] at hzero
      exact run_of_ensure_eq_error hasks.prepare
        (ensure_of_unnamed hslot hasks.resolve hzero hthemes)
    · have hbuilt : Transition crowd caller .next (.creating job assets) _ _ :=
        .built hzero hthemes
      rw [pollSteps_goOn hold hbuilt rfl, pollSteps_goOn (hbuilt.callers_self hold) .published rfl,
        pollSteps_rendering (Transition.published.callers_self (hbuilt.callers_self hold)) rfl]
      have hlast (first second third : Phase) : ((crowd.callers.set caller first).set caller
          second).set caller third = crowd.callers.set caller third := by
        rw [List.set_set, List.set_set]
      refine .returns (hlast _ _ _) fun loader hsettled ↦
        ⟨loader.asked, ?_, hasked loader hsettled⟩
      have hloader := hasked loader hsettled
      have hnone : loader.failures = 0 := by
        rw [hloader] at hzero
        exact hzero
      rw [run_of_ensure_eq_ok hasks.prepare (ensure_of_named hslot hasks.resolve hnone hthemes),
        hloader]
      rfl
  · rw [pollSteps_pause hold (.creationFailed hpos) rfl rfl]
    refine .returns rfl fun loader hsettled ↦
      ⟨{ loader.asked with failures := loader.failures - 1 }, ?_, ?_⟩
    · rw [hasked loader hsettled] at hpos
      exact run_of_ensure_eq_error hasks.prepare (ensure_of_pos hslot hasks.resolve hpos)
    · show { crowd.loader with failures := crowd.loader.failures - 1 } = _
      rw [hasked loader hsettled]
      rfl

/-- **What a poll does to a call that waits**, whatever it waits for. -/
theorem Sound.polled (h : crowd.Sound bundle actions) (haction : actions[caller]? = some action)
    (hold : crowd.callers[caller]? = some old) (hpending : Pending old) :
    Polled crowd caller action (crowd.poll caller).1 := by
  have hsound := h.phase_of_action haction hold
  obtain rfl := h.bundle_eq
  cases hpending with
  | fresh =>
    cases hsound
    exact polled_fresh hold
  | asking job =>
    cases hsound with
    | asking hprepare => exact polled_asking hold hprepare
  | creating job assets =>
    cases hsound with
    | creating hasks =>
      exact polled_creating hold (h.slot_eq_none hold rfl) (h.permit_eq hold rfl) hasks
  | loading job assets =>
    cases hsound with
    | loading hasks hprogress =>
      obtain ⟨engine, hslot, -⟩ := hprogress.known
      exact polled_loadStart hold hslot hasks

end Crowd

end HighlightBundle.Shared
