import HighlightBundle.Proofs.Completion

/-!
# Accounts of creations

How many creations have been asked for, how many of them have failed, and whose they were, can be
read off the phases at any time. A failure that was due is used up by one creation, and its caller
returns it; so the failures that are still due and the callers that have returned one make up the
number at the start (`Accounts.failures`). An engine is built only when no failure is due any more,
with the number of the creation that was asked for last, and from then on nothing changes in the
loader: that is what makes it the only one.

`Accounts.creations` counts the creations themselves. It needs that no creation fails for another
reason, a theme without a name, since that failure does not tell whether it came from a creation.
-/

namespace HighlightBundle.Shared

open Engine

/-- Replacing an entry changes a count by the difference of the two entries. -/
theorem countP_set_add {α : Type} (p : α → Bool) {xs : List α} {i : Nat} {x y : α}
    (h : xs[i]? = some x) :
    (xs.set i y).countP p + (p x).toNat = xs.countP p + (p y).toNat := by
  induction xs generalizing i with
  | nil => simp at h
  | cons z xs ih =>
    cases i with
    | zero =>
      obtain rfl := Option.some.inj h
      rw [List.set_cons_zero, List.countP_cons, List.countP_cons]
      cases p z <;> cases p y <;> simp
    | succ i =>
      have hrest := ih (i := i) h
      rw [List.set_cons_succ, List.countP_cons, List.countP_cons]
      omega

namespace Phase

/-- Whether the call has returned a failure that was due. -/
def failedDue : Phase → Bool
  | .finished (.error (.engine .creationFailed)) => true
  | _ => false

/-- Whether everything that the call needs is in the slot: it renders, or it has returned. -/
def isServed : Phase → Bool
  | .rendering _ | .finished (.ok _) => true
  | _ => false

end Phase

namespace Crowd

variable {bundle : Bundle} {actions : List Action} {loader : Loader} {crowd world last : Crowd}
  {caller : Nat} {turn : Turn} {old new : Phase} {action : Action}

/-- A creation has succeeded: its engine is in the slot, or on its way there. -/
def HasBuilt (crowd : Crowd) : Prop :=
  crowd.shared.slot ≠ none ∨ ∃ (caller : Nat) (job : Job) (engine : Engine),
    crowd.callers[caller]? = some (.created job engine)

/-! ### What a step does to the accounts -/

/-- A call that can still take a step has not returned anything. -/
theorem Transition.failedDue_old (h : Transition crowd caller turn old world new) :
    old.failedDue = false := by
  cases h <;> rfl

/-- A step adds the failure that it returns. -/
theorem countP_failedDue_enter (hold : crowd.callers[caller]? = some old)
    (ht : Transition crowd caller turn old world new) :
    (world.enter caller new).callers.countP Phase.failedDue =
      crowd.callers.countP Phase.failedDue + new.failedDue.toNat := by
  have hcount := countP_set_add Phase.failedDue (y := new) hold
  rw [ht.failedDue_old] at hcount
  rw [enter_callers, ht.callers_eq]
  exact hcount

/-- **A failure that was due is used up by the call that returns it**, and by nothing else. -/
theorem Sound.failures_eq (h : crowd.Sound bundle actions)
    (hold : crowd.callers[caller]? = some old) (ht : Transition crowd caller turn old world new) :
    world.loader.failures + new.failedDue.toNat = crowd.loader.failures := by
  -- the other rules that end a call leave the loader alone, and their failures are of another kind
  cases ht with
  | refused hprepare =>
    obtain ⟨_, _, rfl⟩ := Bundle.prepare_eq_error hprepare
    rfl
  | loadRefused _ hresolve | creationRefused _ _ hresolve =>
    obtain ⟨_, _, rfl⟩ := Bundle.resolve_eq_error hresolve
    rfl
  | creationFailed hfailures => exact Nat.sub_add_cancel hfailures
  | creationUnnamed _ hthemes =>
    obtain rfl := registration_eq_error hthemes
    rfl
  | loadFailed =>
    obtain ⟨action, -, hsound⟩ := h.exists_action hold
    cases hsound with
    | loading _ hprogress =>
      obtain rfl := registration_eq_error (hprogress.outcome _ rfl).symm
      rfl
  | rendered hslot =>
    obtain ⟨answer, hanswer⟩ := h.run_eq_ok hold hslot
    rw [hanswer]
    rfl
  | _ => rfl

/-- Once a creation has succeeded, the loader stays as it is: nobody else can be creating then. -/
theorem Sound.loader_eq (h : crowd.Sound bundle actions) (hold : crowd.callers[caller]? = some old)
    (ht : Transition crowd caller turn old world new) (hbuilt : crowd.HasBuilt) :
    world.loader = crowd.loader := by
  cases ht with
  | creationStarted hslot hpermit _ =>
    rcases hbuilt with hne | ⟨other, job, engine, hother⟩
    · exact absurd hslot hne
    · exact absurd (hpermit.symm.trans (h.permit_eq hother rfl)) nofun
  | creationFailed =>
    rcases hbuilt with hne | ⟨other, job, engine, hother⟩
    · exact absurd (h.slot_eq_none hold rfl) hne
    · have hcaller := (h.permit_eq hold rfl).symm.trans (h.permit_eq hother rfl)
      obtain rfl := Option.some.inj hcaller
      exact absurd (hold.symm.trans hother) nofun
  | _ => rfl

/-- A creation that has succeeded has succeeded for ever. -/
theorem Sound.hasBuilt (h : crowd.Sound bundle actions) (hold : crowd.callers[caller]? = some old)
    (ht : Transition crowd caller turn old world new) (hbuilt : crowd.HasBuilt) :
    (world.enter caller new).HasBuilt := by
  rcases hbuilt with hne | ⟨other, job, engine, hother⟩
  · obtain ⟨engine, hengine⟩ := Option.ne_none_iff_exists'.1 hne
    obtain ⟨engine', hengine', -⟩ := h.slot_extends hold ht engine hengine
    exact Or.inl (by rw [enter_shared, hengine']; exact nofun)
  · rcases eq_or_ne caller other with rfl | hother'
    · obtain rfl := Option.some.inj (hold.symm.trans hother)
      cases ht with
      | published => exact Or.inl (by simp)
    · refine Or.inr ⟨other, job, engine, ?_⟩
      rw [enter_callers_of_ne hother', ht.callers_eq, hother]

/-- **Once a creation has succeeded, no other one starts.** -/
theorem Sound.steps_loader (h : crowd.Sound bundle actions) {moves : List (Nat × Turn)}
    (hrun : crowd.steps moves = some last) (hbuilt : crowd.HasBuilt) :
    last.loader = crowd.loader := by
  have hboth : last.HasBuilt ∧ last.loader = crowd.loader := by
    refine h.steps_induction (P := fun c ↦ c.HasBuilt ∧ c.loader = crowd.loader) ?_ hrun
      ⟨hbuilt, rfl⟩
    intro c caller turn old world new hc hbefore hold ht
    have hkept := hc.loader_eq hold ht hbefore.1
    exact ⟨hc.hasBuilt hold ht hbefore.1, hkept.trans hbefore.2⟩
  exact hboth.2

/-! ### The accounts -/

/-- What the phases say about the creations so far, with the loader of the start. -/
structure Accounts (loader : Loader) (crowd : Crowd) : Prop where
  /-- Each failure that was due is still due, or has been returned by one call. -/
  failures : crowd.callers.countP Phase.failedDue + crowd.loader.failures = loader.failures
  /-- An engine that is not in the slot yet is from the last creation. -/
  created : ∀ {caller : Nat} {job : Job} {engine : Engine},
    crowd.callers[caller]? = some (.created job engine) →
      engine.serial = crowd.loader.creations ∧ crowd.loader.failures = 0
  /-- So is the engine in the slot, and the call that created it is not lost. -/
  stored : ∀ {engine : Engine}, crowd.shared.slot = some engine →
    engine.serial = crowd.loader.creations ∧ crowd.loader.failures = 0 ∧
      ∃ phase ∈ crowd.callers, phase.isServed = true

/-- At the start no call has returned anything. -/
theorem countP_failedDue_ofActions (shared : Shared) (loader : Loader) (actions : List Action) :
    (ofActions shared loader actions).callers.countP Phase.failedDue = 0 := by
  refine List.countP_eq_zero.2 fun phase hphase ↦ ?_
  obtain ⟨action, rfl⟩ := eq_fresh_of_mem hphase
  exact nofun

/-- At the start nothing has happened. -/
theorem accounts_ofActions (bundle : Bundle) (className : Option String) (loader : Loader)
    (actions : List Action) :
    Accounts loader (ofActions (.ofBundle bundle className) loader actions) where
  failures := by
    rw [countP_failedDue_ofActions, Nat.zero_add]
    rfl
  created {caller job engine} h := by
    obtain ⟨action, hfresh⟩ := eq_fresh_of_mem (List.mem_of_getElem? h)
    exact absurd hfresh nofun
  stored h := absurd h nofun

/-- A call that is served stays served. -/
theorem Sound.isServed (h : crowd.Sound bundle actions) (hold : crowd.callers[caller]? = some old)
    (ht : Transition crowd caller turn old world new) (hserved : old.isServed = true) :
    new.isServed = true := by
  cases ht with
  | rendered hslot =>
    obtain ⟨answer, hanswer⟩ := h.run_eq_ok hold hslot
    rw [hanswer]
    rfl
  | _ => exact absurd hserved nofun

/-- Some call that is served is there after the step if one was there before. -/
theorem Sound.exists_isServed (h : crowd.Sound bundle actions)
    (hold : crowd.callers[caller]? = some old) (ht : Transition crowd caller turn old world new)
    (hserved : ∃ phase ∈ crowd.callers, phase.isServed = true) :
    ∃ phase ∈ (world.enter caller new).callers, phase.isServed = true := by
  obtain ⟨phase, hmem, hp⟩ := hserved
  obtain ⟨other, hother⟩ := List.getElem?_of_mem hmem
  rcases eq_or_ne caller other with rfl | hne
  · obtain rfl := Option.some.inj (hold.symm.trans hother)
    exact ⟨new, List.mem_of_getElem? (ht.callers_self hold), h.isServed hold ht hp⟩
  · refine ⟨phase, List.mem_of_getElem? (i := other) ?_, hp⟩
    rw [ht.callers_of_ne hne, hother]

/-- **A step keeps the accounts.** -/
theorem Accounts.transition (ha : Accounts loader crowd) (h : crowd.Sound bundle actions)
    (hold : crowd.callers[caller]? = some old) (ht : Transition crowd caller turn old world new) :
    Accounts loader (world.enter caller new) where
  failures := by
    have hfailures := h.failures_eq hold ht
    have hbefore := ha.failures
    rw [countP_failedDue_enter hold ht, enter_loader]
    omega
  created {other job engine} hother := by
    rcases eq_or_ne caller other with rfl | hne
    · rw [ht.callers_self hold] at hother
      obtain rfl := Option.some.inj hother
      cases ht with
      | built hfailures _ => exact ⟨rfl, hfailures⟩
    · rw [ht.callers_of_ne hne] at hother
      rw [enter_loader, h.loader_eq hold ht (Or.inr ⟨other, job, engine, hother⟩)]
      exact ha.created hother
  stored {engine} hengine := by
    rw [enter_shared] at hengine
    rcases hslot : crowd.shared.slot with - | before
    · -- the engine has just been stored, by the caller that is served now
      cases ht with
      | @published job built =>
        obtain rfl := Option.some.inj hengine
        obtain ⟨hserial, hzero⟩ := ha.created hold
        exact ⟨hserial, hzero, .rendering job, List.mem_of_getElem? (enter_callers_self hold), rfl⟩
      | themesLoaded hsome | languagesLoaded hsome => exact absurd (hslot.symm.trans hsome) nofun
      | _ => exact absurd (hslot.symm.trans hengine) nofun
    · obtain ⟨hserial, hzero, hserved⟩ := ha.stored hslot
      obtain ⟨after, hafter, he⟩ := h.slot_extends hold ht before hslot
      obtain rfl := Option.some.inj (hafter.symm.trans hengine)
      have hbuilt : crowd.HasBuilt := Or.inl (by rw [hslot]; exact nofun)
      rw [enter_loader, h.loader_eq hold ht hbuilt, he.serial]
      exact ⟨hserial, hzero, h.exists_isServed hold ht hserved⟩

/-- **A run keeps the accounts.** -/
theorem Accounts.steps (ha : Accounts loader crowd) (h : crowd.Sound bundle actions)
    {moves : List (Nat × Turn)} (hrun : crowd.steps moves = some last) : Accounts loader last := by
  refine h.steps_induction (P := Accounts loader) ?_ hrun ha
  intro c caller turn old world new hc hbefore hold ht
  exact hbefore.transition hc hold ht

/-! ### Counting creations -/

/-- Every reference of the call resolves, and every theme it asks for has a name. -/
def CanServe (bundle : Bundle) (action : Action) : Prop :=
  ∃ job assets, bundle.Asks action job assets ∧ ∀ theme ∈ assets.themes, theme.name ≠ ""

/-- Such a call brings no failure with it. -/
theorem CanServe.not_ownFailure {failure : Failure} (h : CanServe bundle action) :
    ¬bundle.OwnFailure action failure := by
  obtain ⟨job, assets, hasks, hnamed⟩ := h
  intro hown
  cases hown with
  | reference hprepare => exact absurd (hasks.prepare.symm.trans hprepare) nofun
  | request hprepare hresolve =>
    obtain rfl := Except.ok.inj (hasks.prepare.symm.trans hprepare)
    exact absurd (hasks.resolve.symm.trans hresolve) nofun
  | unnamed hasks' hthemes =>
    obtain ⟨-, rfl⟩ := hasks.unique hasks'
    exact absurd ((registration_eq_ok_iff.2 hnamed).symm.trans hthemes) nofun

/-- **Each creation is under way, has failed with a failure that was due, or has succeeded**, if no
call brings a failure with it. A step moves one from one place to the next. -/
theorem Sound.creations_eq (h : crowd.Sound bundle actions)
    (hserve : ∀ action ∈ actions, CanServe bundle action)
    (hold : crowd.callers[caller]? = some old) (ht : Transition crowd caller turn old world new) :
    world.loader.creations + crowd.permit.isSome.toNat + crowd.shared.slot.isSome.toNat =
      crowd.loader.creations + new.failedDue.toNat + world.permit.isSome.toNat +
        world.shared.slot.isSome.toNat := by
  have hfailures := h.failures_eq hold ht
  -- the permit stands for the creation under way, the slot for the one that has succeeded
  cases ht with
  | creationStarted hslot hpermit _ =>
    rw [hpermit, hslot]
    rfl
  | creationFailed =>
    rw [h.permit_eq hold rfl]
    show _ + 1 + _ = _ + 1 + 0 + _
    rfl
  | creationUnnamed _ hthemes =>
    obtain ⟨action, haction, hsound⟩ := h.exists_action hold
    cases hsound with
    | creating hasks =>
      have hserved := hserve action (List.mem_of_getElem? haction)
      exact absurd (.unnamed hasks hthemes) hserved.not_ownFailure
  | published =>
    rw [h.permit_eq hold rfl, h.slot_eq_none hold rfl]
    rfl
  | themesLoaded hslot | languagesLoaded hslot =>
    rw [hslot]
    rfl
  | _ => omega

/-- So the creations at any time are the failures that have been returned, the one under way and
the one that has succeeded. -/
theorem Sound.steps_creations {shared : Shared} {loader : Loader} {moves : List (Nat × Turn)}
    (hslot : shared.slot = none) (hserve : ∀ action ∈ actions, CanServe shared.bundle action)
    (hrun : (ofActions shared loader actions).steps moves = some last) :
    last.loader.creations = loader.creations + last.callers.countP Phase.failedDue +
      last.permit.isSome.toNat + last.shared.slot.isSome.toNat := by
  refine (sound_ofActions shared loader actions).steps_induction
    (P := fun c ↦ c.loader.creations = loader.creations +
      c.callers.countP Phase.failedDue + c.permit.isSome.toNat + c.shared.slot.isSome.toNat)
    ?_ hrun ?_
  · intro c caller turn old world new hc hbefore hold ht
    have hcreations := hc.creations_eq hserve hold ht
    rw [countP_failedDue_enter hold ht, enter_loader, enter_permit, enter_shared]
    omega
  · rw [countP_failedDue_ofActions]
    show loader.creations = loader.creations + 0 + 0 + shared.slot.isSome.toNat
    rw [hslot]
    rfl

end Crowd

end HighlightBundle.Shared
