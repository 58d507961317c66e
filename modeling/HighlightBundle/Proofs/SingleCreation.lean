import HighlightBundle.Proofs.CreationAccounts
import Mathlib.Data.List.Count

/-!
# One creation under any interleaving

What the calls on a shared highlighter can rely on, at every moment of every run: there is one
engine, the first that a creation succeeded in building, and a creation that fails is the affair of
the call whose request it was made with.

`Crowd.CreatedOnce` lists these promises for one moment of a run. Some of them look back along the
run, so two things are said about runs first:

* `published` are the engines that a run has put into the slot. Their numbers are the number of the
  engine in the slot (`Sound.published_eq`), so there is at most one of them;
* a call that has returned did so in some step (`exists_finishing_step`), and the rule of that step
  tells what it used or why it failed.

The counts of the last promise come out of the accounts of creations: when everybody has returned,
nothing is under way, and whether there is an engine decides which of the two sums applies.
-/

namespace HighlightBundle.Shared

open Engine

/-- The engine that a step from this phase puts into the slot. -/
def Phase.publishes : Phase → Option Engine
  | .created _ engine => some engine
  | _ => none

namespace Crowd

variable {bundle : Bundle} {className : Option String} {loader : Loader} {actions : List Action}
  {crowd world now last : Crowd} {caller : Nat} {turn : Turn} {old new : Phase}
  {moves : List (Nat × Turn)}

/-! ### What a run puts into the slot -/

/-- The engines that a run puts into the slot, in order. -/
def published (crowd : Crowd) : List (Nat × Turn) → List Engine
  | [] => []
  | (caller, turn) :: rest =>
    let stored := (crowd.callers[caller]?.bind Phase.publishes).toList
    match crowd.step caller turn with
    | none => stored
    | some after => stored ++ after.published rest

theorem published_cons (hold : crowd.callers[caller]? = some old)
    (ht : Transition crowd caller turn old world new) : crowd.published ((caller, turn) :: moves) =
      old.publishes.toList ++ (world.enter caller new).published moves := by
  rw [published, hold, ht.step_eq hold]
  rfl

/-- A step changes the number of the engine in the slot only by storing an engine, and then there
was none. -/
theorem Sound.publishes_eq (h : crowd.Sound bundle actions)
    (hold : crowd.callers[caller]? = some old) (ht : Transition crowd caller turn old world new) :
    (crowd.shared.slot.map serial).toList ++ old.publishes.toList.map serial =
      (world.shared.slot.map serial).toList := by
  cases ht with
  | published =>
    rw [h.slot_eq_none hold rfl]
    rfl
  | themesLoaded hslot | languagesLoaded hslot =>
    rw [hslot]
    rfl
  | _ => exact List.append_nil _

/-- **What a run has put into the slot is there.** -/
theorem Sound.published_eq (h : crowd.Sound bundle actions) (hrun : crowd.steps moves = some last) :
    (crowd.shared.slot.map serial).toList ++ (crowd.published moves).map serial =
      (last.shared.slot.map serial).toList := by
  induction moves generalizing crowd with
  | nil =>
    obtain rfl := Option.some.inj hrun
    exact List.append_nil _
  | cons move moves ih =>
    obtain ⟨caller, turn⟩ := move
    obtain ⟨after, hafter, hrest⟩ := steps_cons.1 hrun
    obtain ⟨old, world, new, hold, ht, rfl⟩ := step_eq_some_iff.1 hafter
    have hlater := ih (h.transition hold ht) hrest
    rw [enter_shared, ← h.publishes_eq hold ht] at hlater
    rw [published_cons hold ht, List.map_append, ← hlater, List.append_assoc]

/-! ### The step in which a call returned -/

/-- A call that has returned during a run did so in a step of its own. -/
theorem exists_finishing_step {answer : Except Failure Answer}
    (hrun : crowd.steps moves = some last)
    (hbefore : ∀ answer, crowd.callers[caller]? ≠ some (.finished answer))
    (hdone : last.callers[caller]? = some (.finished answer)) :
    ∃ before turn after mid old world, moves = before ++ (caller, turn) :: after ∧
      crowd.steps before = some mid ∧ mid.callers[caller]? = some old ∧
        Transition mid caller turn old world (.finished answer) := by
  induction moves generalizing crowd with
  | nil =>
    obtain rfl := Option.some.inj hrun
    exact absurd hdone (hbefore answer)
  | cons move moves ih =>
    obtain ⟨other, turn⟩ := move
    obtain ⟨next, hnext, hrest⟩ := steps_cons.1 hrun
    by_cases hnow : ∃ answer, next.callers[caller]? = some (.finished answer)
    · -- the call has returned in this very step, since it has not returned before
      obtain ⟨answer', hnow⟩ := hnow
      have hkept := (finished_of_steps hrest hnow).symm.trans hdone
      obtain ⟨old, world, new, hold, ht, rfl⟩ := step_eq_some_iff.1 hnext
      rcases eq_or_ne other caller with rfl | hne
      · have hnew := (ht.callers_self hold).symm.trans (hnow.trans hkept)
        obtain rfl := Option.some.inj hnew
        exact ⟨[], turn, moves, crowd, old, world, rfl, rfl, hold, ht⟩
      · rw [ht.callers_of_ne hne] at hnow
        exact absurd hnow (hbefore answer')
    · obtain ⟨before, turn', after, mid, old, world, rfl, hmid, hold, ht⟩ :=
        ih hrest (fun answer' h ↦ hnow ⟨answer', h⟩)
      exact ⟨(other, turn) :: before, turn', after, mid, old, world, rfl,
        steps_cons.2 ⟨next, hnext, hmid⟩, hold, ht⟩

/-- At the start no call has returned. -/
theorem callers_ofActions_ne_finished (shared : Shared) (caller : Nat)
    (answer : Except Failure Answer) :
    (ofActions shared loader actions).callers[caller]? ≠ some (.finished answer) := by
  intro h
  obtain ⟨action, hfresh⟩ := eq_fresh_of_mem (List.mem_of_getElem? h)
  exact absurd hfresh nofun

/-- The call has returned this answer in a step that rendered with the engine in the slot, in the
state in which it was then. -/
def ReturnedWith (start : Crowd) (moves : List (Nat × Turn)) (caller : Nat) (answer : Answer)
    (used : Engine) : Prop :=
  ∃ before after mid job, moves = before ++ (caller, .next) :: after ∧
    start.steps before = some mid ∧ mid.callers[caller]? = some (.rendering job) ∧
      mid.shared.slot = some used ∧ job.rendering.run used = .ok answer

/-- The call has failed in a step in which the creation with its own request ended while a failure
was due. -/
def FailedCreating (bundle : Bundle) (actions : List Action) (start : Crowd)
    (moves : List (Nat × Turn)) (caller : Nat) : Prop :=
  ∃ before after mid action job assets, moves = before ++ (caller, .next) :: after ∧
    start.steps before = some mid ∧ actions[caller]? = some action ∧
      bundle.Asks action job assets ∧ mid.callers[caller]? = some (.creating job assets) ∧
        0 < mid.loader.failures

/-- What a call that has returned an answer rendered with. -/
theorem exists_returnedWith {answer : Answer} (shared : Shared)
    (hrun : (ofActions shared loader actions).steps moves = some now)
    (hdone : now.callers[caller]? = some (.finished (.ok answer))) :
    ∃ used engine, ReturnedWith (ofActions shared loader actions) moves caller answer used ∧
      now.shared.slot = some engine ∧ used.serial = engine.serial := by
  obtain ⟨before, turn, after, mid, old, world, rfl, hmid, hold, ht⟩ :=
    exists_finishing_step hrun (callers_ofActions_ne_finished shared caller) hdone
  generalize hnew : Phase.finished (.ok answer) = new at ht
  cases ht with
  | @rendered job used hslot =>
    have hanswer : job.rendering.run used = .ok answer := by
      rcases hused : job.rendering.run used with failure | answer'
      · rw [hused] at hnew
        exact absurd (Phase.finished.inj hnew) nofun
      · rw [hused] at hnew
        rw [Except.ok.inj (Phase.finished.inj hnew)]
    -- the engine that was used is still in the slot
    obtain ⟨mid', hmid', hrest⟩ := steps_append.1 hrun
    obtain rfl := Option.some.inj (hmid.symm.trans hmid')
    have hsound := (sound_ofActions shared loader actions).steps hmid
    obtain ⟨engine, hengine, he⟩ := hsound.steps_slot hrest used hslot
    exact ⟨used, engine, ⟨before, after, mid, job, rfl, hmid, hold, hslot, hanswer⟩, hengine,
      he.serial.symm⟩
  | _ => exact absurd hnew nofun

/-- Why a call that has failed did so. -/
theorem failed_cases {failure : Failure} (shared : Shared)
    (hrun : (ofActions shared loader actions).steps moves = some now)
    (hdone : now.callers[caller]? = some (.finished (.error failure))) :
    (failure = .engine .creationFailed ∧
      FailedCreating shared.bundle actions (ofActions shared loader actions) moves caller) ∨
    ∃ action, actions[caller]? = some action ∧ shared.bundle.OwnFailure action failure := by
  have hsound := (sound_ofActions shared loader actions).steps hrun
  obtain ⟨action, haction, hphase⟩ := hsound.exists_action hdone
  cases hphase with
  | failed hown => exact Or.inr ⟨action, haction, hown⟩
  | due =>
    obtain ⟨before, turn, after, mid, old, world, rfl, hmid, hold, ht⟩ :=
      exists_finishing_step hrun (callers_ofActions_ne_finished shared caller) hdone
    have hmidSound := (sound_ofActions shared loader actions).steps hmid
    have hfailures := hmidSound.failures_eq hold ht
    rw [show Phase.failedDue (.finished (.error (.engine .creationFailed))) = true from rfl]
      at hfailures
    -- of all rules that end a call only one uses up a failure that was due
    generalize Phase.finished (.error (.engine .creationFailed)) = new at ht
    cases ht with
    | @creationFailed job assets hpos =>
      cases hmidSound.phase_of_action haction hold with
      | creating hasks =>
        exact Or.inl ⟨rfl, before, after, mid, action, job, assets, rfl, hmid, haction, hasks,
          hold, hpos⟩
    | _ => exact absurd hfailures (Nat.succ_ne_self _)

/-! ### When all calls have returned -/

/-- A call that brings no failure with it has returned a failure that was due, or an answer, and
then there is an engine. -/
theorem Sound.failedDue_or_ok (h : crowd.Sound bundle actions)
    (hserve : ∀ action ∈ actions, CanServe bundle action) {phase : Phase}
    (hmem : phase ∈ crowd.callers) (hdone : phase.IsFinished) :
    phase.failedDue = true ∨
      (∃ answer, phase = .finished (.ok answer)) ∧ crowd.shared.slot ≠ none := by
  obtain ⟨caller, hphase⟩ := List.getElem?_of_mem hmem
  obtain ⟨action, haction, hsound⟩ := h.exists_action hphase
  obtain ⟨result, rfl⟩ := hdone
  cases hsound with
  | returned hserved =>
    obtain ⟨assets, engine, -, hslot, -⟩ := hserved
    exact Or.inr ⟨⟨_, rfl⟩, by rw [hslot]; exact nofun⟩
  | failed hown => exact absurd hown (hserve action (List.mem_of_getElem? haction)).not_ownFailure
  | due => exact Or.inl rfl

/-- How calls end that bring no failure with them, when so many failures were due at the start. -/
structure Outcome (loader : Loader) (actions : List Action) (now : Crowd) : Prop where
  failed : now.callers.countP Phase.failedDue = min loader.failures actions.length
  others : ∀ phase ∈ now.callers,
    phase.failedDue = true ∨ ∃ answer, phase = .finished (.ok answer)
  creations : now.loader.creations =
    loader.creations + min (loader.failures + 1) actions.length
  initialized : now.shared.isInitialized = true ↔ loader.failures < actions.length

theorem outcome_of_finished (hserve : ∀ action ∈ actions, CanServe bundle action)
    (hrun : (ofActions (.ofBundle bundle className) loader actions).steps moves = some now)
    (hdone : ∀ phase ∈ now.callers, phase.IsFinished) : Outcome loader actions now := by
  have hstart := sound_ofActions (.ofBundle bundle className) loader actions
  have hsound : now.Sound bundle actions := hstart.steps hrun
  have haccounts := (accounts_ofActions bundle className loader actions).steps hstart hrun
  have hcreations := Sound.steps_creations rfl hserve hrun
  have hlength : now.callers.length = actions.length := hsound.calls.length_eq.symm
  have hfailures := haccounts.failures
  have hreturned := fun phase hmem ↦ hsound.failedDue_or_ok hserve hmem (hdone phase hmem)
  have hothers : ∀ phase ∈ now.callers,
      phase.failedDue = true ∨ ∃ answer, phase = .finished (.ok answer) :=
    fun phase hmem ↦ (hreturned phase hmem).imp_right And.left
  rw [hsound.permit_eq_none hdone] at hcreations
  rcases hslot : now.shared.slot with - | engine
  · -- without an engine nobody has got an answer, so all have failed
    have hall : now.callers.countP Phase.failedDue = now.callers.length := by
      refine List.countP_eq_length.2 fun phase hmem ↦ ?_
      exact (hreturned phase hmem).resolve_right fun hok ↦ hok.2 hslot
    have hnot : now.shared.isInitialized = false := by rw [isInitialized, hslot]; rfl
    rw [hslot] at hcreations
    simp only [Option.isSome_none, Bool.toNat_false, Nat.add_zero] at hcreations
    refine ⟨by omega, hothers, by omega, ?_⟩
    rw [hnot]
    exact iff_of_false nofun (by omega)
  · -- with an engine no failure is due any more, and the call that it was created for has not
    -- failed
    obtain ⟨-, hzero, phase, hmem, hserved⟩ := haccounts.stored hslot
    have hlt : now.callers.countP Phase.failedDue < now.callers.length := by
      refine List.countP_lt_length_iff.2 ⟨phase, hmem, ?_⟩
      obtain ⟨answer | answer, rfl⟩ := hdone phase hmem
      · exact absurd hserved nofun
      · rfl
    have hyes : now.shared.isInitialized = true := by rw [isInitialized, hslot]; rfl
    rw [hslot] at hcreations
    simp only [Option.isSome_none, Option.isSome_some, Bool.toNat_false, Bool.toNat_true,
      Nat.add_zero] at hcreations
    exact ⟨by omega, hothers, by omega, iff_of_true hyes (by omega)⟩

/-! ### The promises -/

/-- What calls that use one shared highlighter can rely on after these moves. -/
structure CreatedOnce (bundle : Bundle) (loader : Loader) (actions : List Action) (start : Crowd)
    (moves : List (Nat × Turn)) (now : Crowd) : Prop where
  /-- At most one creation is in progress. -/
  one_in_progress : ∀ {caller other : Nat} {phase phase' : Phase},
    now.callers[caller]? = some phase → phase.isCreating = true →
      now.callers[other]? = some phase' → phase'.isCreating = true → caller = other
  /-- At most one engine has ever been put into the slot, -/
  one_published : (start.published moves).length ≤ 1
  /-- it is the one that is there now, -/
  published_stays : ∀ published ∈ start.published moves,
    ∃ engine, now.shared.slot = some engine ∧ engine.serial = published.serial
  /-- and before that there was none. -/
  initialized : now.shared.isInitialized = !(start.published moves).isEmpty
  /-- Whatever comes next, the engine that is there stays there. -/
  stays : ∀ {engine : Engine} {later : List (Nat × Turn)} {last : Crowd},
    now.shared.slot = some engine → now.steps later = some last →
      ∃ engine', last.shared.slot = some engine' ∧ engine'.serial = engine.serial
  /-- When a creation has succeeded, no other one starts. -/
  no_other_creation : ∀ {later : List (Nat × Turn)} {last : Crowd},
    now.HasBuilt → now.steps later = some last → last.loader = now.loader
  /-- Every call that has returned an answer used the one engine. -/
  used : ∀ {caller : Nat} {answer : Answer},
    now.callers[caller]? = some (.finished (.ok answer)) →
      ∃ used engine, ReturnedWith start moves caller answer used ∧
        now.shared.slot = some engine ∧ used.serial = engine.serial
  /-- When a creation fails, it has been made with the request of the call that returns the failure;
  no other call notices. -/
  creation_fails_alone : ∀ {caller : Nat} {job : Job} {assets : Assets} {failure : EngineFailure}
    {rest : Loader}, now.callers[caller]? = some (.creating job assets) →
      Engine.build now.loader assets now.shared.className = (.error failure, rest) →
        (∃ action, actions[caller]? = some action ∧ bundle.Asks action job assets) ∧
          ∃ after, now.step caller .next = some after ∧ after.shared = now.shared ∧
            after.callers = now.callers.set caller (.finished (.error (.engine failure)))
  /-- And a call that has failed did so because of its own creation, or of its own references and
  themes. -/
  failed : ∀ {caller : Nat} {failure : Failure},
    now.callers[caller]? = some (.finished (.error failure)) →
      (failure = .engine .creationFailed ∧ FailedCreating bundle actions start moves caller) ∨
        ∃ action, actions[caller]? = some action ∧ bundle.OwnFailure action failure
  /-- Each failure that was due is returned by one call, or is still due. -/
  due : now.callers.countP Phase.failedDue + now.loader.failures = loader.failures
  /-- Everybody can get to the end, -/
  completes : ∃ later last, now.steps later = some last ∧ ∀ phase ∈ last.callers, phase.IsFinished
  /-- and if no call brings a failure with it, that is what the end looks like. -/
  outcome : (∀ action ∈ actions, CanServe bundle action) →
    (∀ phase ∈ now.callers, phase.IsFinished) → Outcome loader actions now

/-- **One creation under any interleaving.** Take a shared highlighter without an engine, any calls
on it, any number of creation failures that are due, and any moves of the calls; then every promise
of `CreatedOnce` holds. -/
theorem created_once
    (hrun : (ofActions (.ofBundle bundle className) loader actions).steps moves = some now) :
    CreatedOnce bundle loader actions (ofActions (.ofBundle bundle className) loader actions) moves
      now := by
  have hstart := sound_ofActions (.ofBundle bundle className) loader actions
  have hsound : now.Sound bundle actions := hstart.steps hrun
  have haccounts := (accounts_ofActions bundle className loader actions).steps hstart hrun
  have hpublished := hstart.published_eq hrun
  generalize hstored : (ofActions (.ofBundle bundle className) loader actions).published moves =
    stored at hpublished
  replace hpublished : stored.map serial = (now.shared.slot.map serial).toList := hpublished
  refine
    { one_in_progress := fun hphase hcreating hphase' hcreating' ↦ ?_
      one_published := ?_
      published_stays := fun published hmem ↦ ?_
      initialized := ?_
      stays := fun {engine later last} hslot hlater ↦ ?_
      no_other_creation := fun hbuilt hlater ↦ hsound.steps_loader hlater hbuilt
      used := exists_returnedWith _ hrun
      creation_fails_alone := fun {caller job assets failure rest} hphase hbuild ↦ ?_
      failed := failed_cases _ hrun
      due := haccounts.failures
      completes := ?_
      outcome := fun hserve hdone ↦ outcome_of_finished hserve hrun hdone }
  · have hpermit := hsound.permit_eq hphase hcreating
    exact Option.some.inj (hpermit.symm.trans (hsound.permit_eq hphase' hcreating'))
  · rw [hstored, ← List.length_map serial, hpublished]
    cases now.shared.slot <;> simp
  · have hserial : published.serial ∈ (now.shared.slot.map serial).toList := by
      rw [← hpublished, ← hstored]
      exact List.mem_map_of_mem hmem
    obtain ⟨engine, hslot, heq⟩ := Option.map_eq_some_iff.1 (Option.mem_toList.1 hserial)
    exact ⟨engine, hslot, heq⟩
  · rw [hstored, isInitialized]
    rcases hslot : now.shared.slot with - | engine
    · rw [hslot] at hpublished
      rw [List.map_eq_nil_iff.1 hpublished]
      rfl
    · rw [hslot] at hpublished
      cases stored with
      | nil => exact absurd hpublished nofun
      | cons => rfl
  · obtain ⟨engine', hslot', he⟩ := hsound.steps_slot hlater engine hslot
    exact ⟨engine', hslot', he.serial⟩
  · obtain ⟨action, haction, hcreating⟩ := hsound.exists_action hphase
    refine ⟨⟨action, haction, ?_⟩, now.build caller job assets, ?_, ?_, ?_⟩
    · cases hcreating with
      | creating hasks => exact hasks
    · rw [step, hphase]
      rfl
    · rw [build, hbuild]
      rfl
    · rw [build, hbuild]
      rfl
  · obtain ⟨later, last, -, hlater, hfinished⟩ := hsound.exists_steps_finished
    exact ⟨later, last, hlater, hfinished⟩

/-- Three calls that all begin before anything is created. -/
def waitingActions : List Action :=
  [.get ⟨[.bundled ""], [.inline (.single Sample.javascript)]⟩,
    .html "x" (.inline (.single Sample.javascript)) (.inline Sample.day),
    .tokens "y" .plaintext (.inline Sample.day)]

/-- The creation of the first call fails while the other two wait, and the third one creates the
engine. -/
def waitingMoves : List (Nat × Turn) :=
  [(0, .next), (1, .next), (2, .next), (0, .next), (0, .next), (2, .next), (2, .next), (2, .next),
    (1, .next), (2, .next), (1, .languages), (1, .themes), (1, .next), (1, .next)]

/-- With one failure due, the first of the three calls fails, the other two get their answers, and
two creations have been asked for. -/
theorem created_once_of_waiting :
    ∃ now : Crowd, (ofActions (.ofBundle ⟨.empty, .empty⟩ none) ⟨0, 1⟩ waitingActions).steps
        waitingMoves = some now ∧
      (∀ phase ∈ now.callers, phase.IsFinished) ∧
      (∀ action ∈ waitingActions, CanServe ⟨.empty, .empty⟩ action) ∧
      Outcome ⟨0, 1⟩ waitingActions now ∧ now.callers.countP Phase.failedDue = 1 ∧
      now.loader.creations = 2 := by
  have hrun : ∃ now : Crowd,
      (ofActions (.ofBundle ⟨.empty, .empty⟩ none) ⟨0, 1⟩ waitingActions).steps waitingMoves =
        some now ∧ ∃ a b c, now.callers = [.finished a, .finished b, .finished c] :=
    ⟨_, rfl, _, _, _, rfl⟩
  obtain ⟨now, hrun, a, b, c, hcallers⟩ := hrun
  have hdone : ∀ phase ∈ now.callers, phase.IsFinished := by
    rw [hcallers]
    intro phase hmem
    simp only [List.mem_cons, List.not_mem_nil, or_false] at hmem
    rcases hmem with rfl | rfl | rfl <;> exact ⟨_, rfl⟩
  have hserve : ∀ action ∈ waitingActions, CanServe ⟨.empty, .empty⟩ action := by
    intro action hmem
    simp only [waitingActions, List.mem_cons, List.not_mem_nil, or_false] at hmem
    rcases hmem with rfl | rfl | rfl <;> exact ⟨_, _, ⟨rfl, rfl⟩, by decide⟩
  have houtcome := (created_once hrun).outcome hserve hdone
  exact ⟨now, hrun, hdone, hserve, houtcome, houtcome.failed, houtcome.creations⟩

end Crowd

end HighlightBundle.Shared
