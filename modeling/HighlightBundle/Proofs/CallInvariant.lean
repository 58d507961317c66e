import HighlightBundle.Proofs.Transitions
import Mathlib.Data.List.Forall2

/-!
# The invariant of calls that interleave

`Crowd.Sound` holds of every crowd that calls lead to, in whatever order their steps are taken
(`Sound.steps`). It has two parts.

* **Every call by itself.** The phase of a call goes back to its own action (`Phase.Sound`): the
  request that is created or loaded is the one that its action asks for, and what has been loaded
  for it is known to the engine in the slot. A failure is the call's own (`OwnFailure`), or it is
  the one that was due when its own creation ended. This part speaks of the other calls only
  through the slot, and it survives whatever they do to it because they only extend what is there.
* **The permit.** The caller that holds the permit is the one that is creating, and while there is
  a permit the slot is empty. This is what makes storing an engine harmless: nothing is there to be
  replaced.

The two parts need each other: that the slot only grows rests on the permit.
-/

namespace HighlightBundle

open Engine

/-! ### Lists of related entries -/

section Forall₂

variable {α β : Type} {R S : α → β → Prop} {as : List α} {bs : List β} {i : Nat} {b : β}

/-- Related lists have related entries. -/
theorem exists_getElem?_of_forall₂ (h : List.Forall₂ R as bs) (hb : bs[i]? = some b) :
    ∃ a, as[i]? = some a ∧ R a b := by
  induction h generalizing i with
  | nil => simp at hb
  | @cons a b' as bs hab _ ih =>
    cases i with
    | zero =>
      obtain rfl := Option.some.inj hb
      exact ⟨a, rfl, hab⟩
    | succ i => exact ih hb

/-- Replacing an entry keeps the lists related if the new one is related to its partner. -/
theorem forall₂_set (h : List.Forall₂ R as bs) (hb : ∀ a, as[i]? = some a → R a b) :
    List.Forall₂ R as (bs.set i b) := by
  induction h generalizing i with
  | nil => exact .nil
  | @cons a b' as bs hab hrest ih =>
    cases i with
    | zero => exact .cons (hb a rfl) hrest
    | succ i => exact .cons hab (ih hb)

end Forall₂

/-- The failures that a call brings with it: a reference that does not resolve, or a theme without
a name. -/
inductive Bundle.OwnFailure (bundle : Bundle) (action : Action) : Failure → Prop
  | reference {failure : Failure} (hprepare : bundle.prepare action = .error failure) :
      OwnFailure bundle action failure
  | request {job : Job} {failure : Failure} (hprepare : bundle.prepare action = .ok job)
      (hresolve : bundle.resolve job.request = .error failure) : OwnFailure bundle action failure
  | unnamed {job : Job} {assets : Assets} {failure : EngineFailure}
      (hasks : bundle.Asks action job assets)
      (hthemes : registration assets.themes = .error failure) :
      OwnFailure bundle action (.engine failure)

namespace Shared

/-! ### The slot -/

/-- The engine in the slot stays there and keeps its keys; an empty slot may be filled. -/
def SlotExtends (slot later : Option Engine) : Prop :=
  ∀ engine, slot = some engine → ∃ engine', later = some engine' ∧ engine.Extends engine'

theorem SlotExtends.refl (slot : Option Engine) : SlotExtends slot slot :=
  fun engine h ↦ ⟨engine, h, .refl engine⟩

theorem SlotExtends.trans {slot later last : Option Engine} (h : SlotExtends slot later)
    (h' : SlotExtends later last) : SlotExtends slot last := by
  intro engine hslot
  obtain ⟨engine', hlater, he⟩ := h engine hslot
  obtain ⟨engine'', hlast, he'⟩ := h' engine' hlater
  exact ⟨engine'', hlast, he.trans he'⟩

theorem SlotExtends.of_eq_none {slot later : Option Engine} (h : slot = none) :
    SlotExtends slot later :=
  fun engine hslot ↦ absurd (h.symm.trans hslot) (Option.some_ne_none engine).symm

/-! ### One call -/

/-- The engine in the slot knows what the call asks for. -/
def Served (bundle : Bundle) (slot : Option Engine) (action : Action) (job : Job) : Prop :=
  ∃ assets engine, bundle.Asks action job assets ∧ slot = some engine ∧ engine.Knows assets

theorem Served.extends {bundle : Bundle} {slot later : Option Engine} {action : Action} {job : Job}
    (h : Served bundle slot action job) (he : SlotExtends slot later) :
    Served bundle later action job := by
  obtain ⟨assets, engine, hasks, hslot, hknows⟩ := h
  obtain ⟨engine', hlater, he'⟩ := he engine hslot
  exact ⟨assets, engine', hasks, hlater, hknows.extends he'⟩

/-- Rendering for a call that is served does not fail. -/
theorem Served.run_eq_ok {bundle : Bundle} {slot : Option Engine} {action : Action} {job : Job}
    {engine : Engine} (h : Served bundle slot action job) (hslot : slot = some engine) :
    ∃ answer, job.rendering.run engine = .ok answer := by
  obtain ⟨assets, engine', hasks, hengine', hknows⟩ := h
  obtain rfl := Option.some.inj (hslot.symm.trans hengine')
  exact hasks.run_eq_ok hknows

/-- The batches of a load that are done have left their assets in the engine. -/
structure Progress (slot : Option Engine) (assets : Assets)
    (themes : Option (Except EngineFailure Unit)) (languages : Bool) : Prop where
  /-- The outcome of the themes depends on them alone. -/
  outcome : ∀ result, themes = some result → result = registration assets.themes
  known : ∃ engine, slot = some engine ∧
    (themes = some (.ok ()) → engine.KnowsThemes assets.themes) ∧
    (languages = true → engine.KnowsLanguages assets.packs)

theorem Progress.extends {slot later : Option Engine} {assets : Assets}
    {themes : Option (Except EngineFailure Unit)} {languages : Bool}
    (h : Progress slot assets themes languages) (he : SlotExtends slot later) :
    Progress later assets themes languages := by
  obtain ⟨engine, hslot, hthemes, hlanguages⟩ := h.known
  obtain ⟨engine', hlater, he'⟩ := he engine hslot
  exact ⟨h.outcome, engine', hlater, fun ht ↦ (hthemes ht).extends he',
    fun hl ↦ (hlanguages hl).extends he'⟩

namespace Phase

/-- Whether the caller holds the permit. -/
def isCreating : Phase → Bool
  | .creating _ _ | .created _ _ => true
  | _ => false

/-- The phase of a call goes back to its action, and what it has loaded is in the slot. -/
inductive Sound (bundle : Bundle) (slot : Option Engine) (action : Action) : Phase → Prop
  | fresh : Sound bundle slot action (.fresh action)
  | asking {job : Job} (hprepare : bundle.prepare action = .ok job) :
      Sound bundle slot action (.asking job)
  | creating {job : Job} {assets : Assets} (hasks : bundle.Asks action job assets) :
      Sound bundle slot action (.creating job assets)
  | created {job : Job} {assets : Assets} {engine : Engine} (hasks : bundle.Asks action job assets)
      (hknows : engine.Knows assets) : Sound bundle slot action (.created job engine)
  | loading {job : Job} {assets : Assets} {themes : Option (Except EngineFailure Unit)}
      {languages : Bool} (hasks : bundle.Asks action job assets)
      (hprogress : Progress slot assets themes languages) :
      Sound bundle slot action (.loading job assets themes languages)
  | rendering {job : Job} (hserved : Served bundle slot action job) :
      Sound bundle slot action (.rendering job)
  | returned {job : Job} {answer : Answer} (hserved : Served bundle slot action job) :
      Sound bundle slot action (.finished (.ok answer))
  | failed {failure : Failure} (hown : bundle.OwnFailure action failure) :
      Sound bundle slot action (.finished (.error failure))
  /-- The creation of the call has used up a failure that was due. -/
  | due : Sound bundle slot action (.finished (.error (.engine .creationFailed)))

/-- **What others do to the slot does not matter**, as long as they only extend it. -/
theorem Sound.extends {bundle : Bundle} {slot later : Option Engine} {action : Action}
    {phase : Phase} (h : phase.Sound bundle slot action) (he : SlotExtends slot later) :
    phase.Sound bundle later action := by
  cases h with
  | fresh => exact .fresh
  | asking hprepare => exact .asking hprepare
  | creating hasks => exact .creating hasks
  | created hasks hknows => exact .created hasks hknows
  | loading hasks hprogress => exact .loading hasks (hprogress.extends he)
  | rendering hserved => exact .rendering (hserved.extends he)
  | returned hserved => exact .returned (hserved.extends he)
  | failed hown => exact .failed hown
  | due => exact .due

end Phase

namespace Crowd

variable {bundle : Bundle} {actions : List Action} {crowd world after last : Crowd}
  {caller other : Nat} {turn : Turn} {old new phase : Phase} {engine : Engine}

/-- The invariant of calls that interleave. -/
structure Sound (bundle : Bundle) (actions : List Action) (crowd : Crowd) : Prop where
  bundle_eq : crowd.shared.bundle = bundle
  /-- Every phase goes back to the action of its call. -/
  calls : List.Forall₂ (fun action phase ↦ phase.Sound bundle crowd.shared.slot action) actions
    crowd.callers
  /-- The permit is with the caller that is creating. -/
  permit : ∀ {caller}, crowd.permit = some caller ↔
    ∃ phase, crowd.callers[caller]? = some phase ∧ phase.isCreating = true
  /-- While somebody is creating there is no engine. -/
  slot : crowd.permit ≠ none → crowd.shared.slot = none

/-- Calls that have not begun are sound. -/
theorem sound_ofActions (shared : Shared) (loader : Loader) (actions : List Action) :
    (ofActions shared loader actions).Sound shared.bundle actions where
  bundle_eq := rfl
  calls := by
    show List.Forall₂ _ actions (actions.map Phase.fresh)
    exact List.forall₂_map_right_iff.2 (List.forall₂_same.2 fun _ _ ↦ .fresh)
  permit {caller} := by
    refine iff_of_false nofun ?_
    rintro ⟨phase, hphase, hcreating⟩
    obtain ⟨action, rfl⟩ := eq_fresh_of_mem (List.mem_of_getElem? hphase)
    exact absurd hcreating nofun
  slot := fun h ↦ absurd rfl h

/-- The call that takes a step, with its action. -/
theorem Sound.exists_action (h : crowd.Sound bundle actions)
    (hphase : crowd.callers[caller]? = some phase) :
    ∃ action, actions[caller]? = some action ∧ phase.Sound bundle crowd.shared.slot action :=
  exists_getElem?_of_forall₂ h.calls hphase

/-- The phase of a call goes back to the action that it was started with. -/
theorem Sound.phase_of_action {action : Action} (h : crowd.Sound bundle actions)
    (haction : actions[caller]? = some action) (hphase : crowd.callers[caller]? = some phase) :
    phase.Sound bundle crowd.shared.slot action := by
  obtain ⟨action', haction', hsound⟩ := h.exists_action hphase
  obtain rfl := Option.some.inj (haction.symm.trans haction')
  exact hsound

/-- A call that renders gets an answer. -/
theorem Sound.run_eq_ok {job : Job} (h : crowd.Sound bundle actions)
    (hphase : crowd.callers[caller]? = some (.rendering job))
    (hslot : crowd.shared.slot = some engine) :
    ∃ answer, job.rendering.run engine = .ok answer := by
  obtain ⟨action, -, hsound⟩ := h.exists_action hphase
  cases hsound with
  | rendering hserved => exact hserved.run_eq_ok hslot

/-- Who is creating holds the permit. -/
theorem Sound.permit_eq (h : crowd.Sound bundle actions)
    (hphase : crowd.callers[caller]? = some phase) (hcreating : phase.isCreating = true) :
    crowd.permit = some caller :=
  h.permit.2 ⟨phase, hphase, hcreating⟩

/-- Who is creating finds no engine. -/
theorem Sound.slot_eq_none (h : crowd.Sound bundle actions)
    (hphase : crowd.callers[caller]? = some phase) (hcreating : phase.isCreating = true) :
    crowd.shared.slot = none :=
  h.slot (by rw [h.permit_eq hphase hcreating]; exact Option.some_ne_none _)

/-! ### One step -/

/-- **The slot only grows.** Storing an engine is the step that rests on the permit: the slot is
empty then. -/
theorem Sound.slot_extends (h : crowd.Sound bundle actions)
    (hold : crowd.callers[caller]? = some old) (ht : Transition crowd caller turn old world new) :
    SlotExtends crowd.shared.slot world.shared.slot := by
  cases ht with
  | published => exact .of_eq_none (h.slot_eq_none hold rfl)
  | themesLoaded hslot =>
    intro engine hengine
    obtain rfl := Option.some.inj (hslot.symm.trans hengine)
    exact ⟨_, rfl, loadThemes_extends _ _⟩
  | languagesLoaded hslot =>
    intro engine hengine
    obtain rfl := Option.some.inj (hslot.symm.trans hengine)
    exact ⟨_, rfl, loadLanguages_extends _ _⟩
  | _ => exact .refl _

/-- A load starts with the batches that are empty, and of those everything is known. -/
theorem progress_start {slot : Option Engine} (hslot : slot = some engine) (assets : Assets) :
    Progress slot assets (if assets.themes.isEmpty then some (.ok ()) else none)
      assets.packs.isEmpty := by
  refine ⟨?_, engine, hslot, ?_, ?_⟩
  · intro outcome houtcome
    split at houtcome
    · rename_i hempty
      rw [List.isEmpty_iff.1 hempty, ← Option.some.inj houtcome]
      rfl
    · exact absurd houtcome nofun
  · intro hthemes theme hmem
    split at hthemes
    · rename_i hempty
      rw [List.isEmpty_iff.1 hempty] at hmem
      exact absurd hmem List.not_mem_nil
    · exact absurd hthemes nofun
  · intro hempty pack hmem
    rw [List.isEmpty_iff.1 hempty] at hmem
    exact absurd hmem List.not_mem_nil

/-- The step of a call keeps its own phase sound. -/
theorem Sound.phase_sound {action : Action} (h : crowd.Sound bundle actions)
    (hold : old.Sound bundle crowd.shared.slot action)
    (ht : Transition crowd caller turn old world new) :
    new.Sound bundle world.shared.slot action := by
  obtain rfl := h.bundle_eq
  -- each rule fixes the old phase, whose soundness gives the action that the new one goes back to
  cases ht with
  | refused hprepare =>
    cases hold
    exact .failed (.reference hprepare)
  | prepared hprepare =>
    cases hold
    exact .asking hprepare
  | loadRefused _ hresolve | creationRefused _ _ hresolve =>
    cases hold with
    | asking hprepare => exact .failed (.request hprepare hresolve)
  | loadStarted hslot hresolve =>
    cases hold with
    | asking hprepare => exact .loading ⟨hprepare, hresolve⟩ (progress_start hslot _)
  | creationStarted _ _ hresolve =>
    cases hold with
    | asking hprepare => exact .creating ⟨hprepare, hresolve⟩
  | creationFailed => exact .due
  | creationUnnamed _ hthemes =>
    cases hold with
    | creating hasks => exact .failed (.unnamed hasks hthemes)
  | built _ hthemes =>
    cases hold with
    | creating hasks => exact .created hasks (stocked_knows _ hthemes)
  | published =>
    cases hold with
    | created hasks hknows => exact .rendering ⟨_, _, hasks, rfl, hknows⟩
  | @themesLoaded job assets languages engine hslot =>
    cases hold with
    | loading hasks hprogress =>
      obtain ⟨-, engine', hengine', -, hlanguages⟩ := hprogress
      obtain rfl := Option.some.inj (hslot.symm.trans hengine')
      refine .loading hasks ⟨fun outcome ho ↦ (Option.some.inj ho).symm, _, rfl, ?_, ?_⟩
      · exact fun hthemes ↦ loadThemes_knows engine (Option.some.inj hthemes)
      · exact fun hl ↦ (hlanguages hl).extends (loadThemes_extends engine assets.themes)
  | @languagesLoaded job assets themes engine hslot =>
    cases hold with
    | loading hasks hprogress =>
      obtain ⟨houtcome, engine', hengine', hthemes, -⟩ := hprogress
      obtain rfl := Option.some.inj (hslot.symm.trans hengine')
      refine .loading hasks ⟨houtcome, _, rfl, ?_, fun _ ↦ loadLanguages_knows engine assets.packs⟩
      exact fun ht ↦ (hthemes ht).extends (loadLanguages_extends engine assets.packs)
  | loadFailed =>
    cases hold with
    | loading hasks hprogress => exact .failed (.unnamed hasks (hprogress.outcome _ rfl).symm)
  | loaded =>
    cases hold with
    | loading hasks hprogress =>
      obtain ⟨-, engine, hslot, hthemes, hlanguages⟩ := hprogress
      exact .rendering ⟨_, engine, hasks, hslot, hthemes rfl, hlanguages rfl⟩
  | @rendered job engine hslot =>
    cases hold with
    | rendering hserved =>
      obtain ⟨answer, hanswer⟩ := hserved.run_eq_ok hslot
      rw [hanswer]
      exact .returned hserved

/-- **What a step does to the permit**: nothing, or it is taken by a caller that starts to create,
or given back by one that has been creating. -/
theorem Transition.permit_cases (ht : Transition crowd caller turn old world new) :
    (world.permit = crowd.permit ∧ world.shared.slot.isSome = crowd.shared.slot.isSome ∧
      new.isCreating = old.isCreating) ∨
    (crowd.permit = none ∧ crowd.shared.slot = none ∧ world.shared.slot = none ∧
      world.permit = some caller ∧ new.isCreating = true) ∨
    (old.isCreating = true ∧ world.permit = none ∧ new.isCreating = false) := by
  cases ht with
  | creationStarted hslot hpermit _ => exact Or.inr (Or.inl ⟨hpermit, hslot, hslot, rfl, rfl⟩)
  | creationFailed | creationUnnamed | published => exact Or.inr (Or.inr ⟨rfl, rfl, rfl⟩)
  | themesLoaded hslot | languagesLoaded hslot =>
    exact Or.inl ⟨rfl, by rw [store_slot, hslot]; rfl, rfl⟩
  | _ => exact Or.inl ⟨rfl, rfl, rfl⟩

/-- **A step keeps the invariant.** -/
theorem Sound.transition (h : crowd.Sound bundle actions) (hold : crowd.callers[caller]? = some old)
    (ht : Transition crowd caller turn old world new) :
    (world.enter caller new).Sound bundle actions := by
  have hcallers := ht.callers_eq
  refine ⟨?_, ?_, fun {other} ↦ ?_, fun hpermit ↦ ?_⟩
  · exact (by cases ht <;> rfl : world.shared.bundle = crowd.shared.bundle).trans h.bundle_eq
  · rw [enter_callers, hcallers, enter_shared]
    refine forall₂_set (h.calls.imp fun _ _ hs ↦ hs.extends (h.slot_extends hold ht)) ?_
    intro action haction
    exact h.phase_sound (h.phase_of_action haction hold) ht
  · rw [enter_permit]
    rcases eq_or_ne caller other with rfl | hne
    · -- the caller itself: its own phase decides
      rw [ht.callers_self hold]
      rcases ht.permit_cases with ⟨hp, -, hnew⟩ | ⟨-, -, -, hp, hnew⟩ | ⟨-, hp, hnew⟩
      · rw [hp, h.permit, hold]
        simp only [Option.some.injEq, exists_eq_left', hnew]
      · exact iff_of_true hp ⟨new, rfl, hnew⟩
      · refine iff_of_false (by rw [hp]; exact nofun) ?_
        rintro ⟨phase, hphase, hcreating⟩
        obtain rfl := Option.some.inj hphase
        exact absurd hcreating (by rw [hnew]; exact nofun)
    · -- another caller: its phase is the same, so the permit must not move to or from it
      rw [ht.callers_of_ne hne]
      rcases ht.permit_cases with ⟨hp, -, -⟩ | ⟨hnone, -, -, hp, -⟩ | ⟨hcreating, hp, -⟩
      · rw [hp, h.permit]
      · rw [hp, ← h.permit, hnone]
        exact iff_of_false (fun heq ↦ hne (Option.some.inj heq)) nofun
      · rw [hp, ← h.permit, h.permit_eq hold hcreating]
        exact iff_of_false nofun fun heq ↦ hne (Option.some.inj heq)
  · rw [enter_permit] at hpermit
    rw [enter_shared]
    rcases ht.permit_cases with ⟨hp, hslot, -⟩ | ⟨-, -, hslot, -, -⟩ | ⟨-, hp, -⟩
    · have hnone := h.slot (hp ▸ hpermit)
      rw [hnone] at hslot
      exact Option.not_isSome_iff_eq_none.1 (by rw [hslot]; exact nofun)
    · exact hslot
    · exact absurd hp hpermit

/-! ### Runs -/

theorem steps_cons {moves : List (Nat × Turn)} :
    crowd.steps ((caller, turn) :: moves) = some last ↔
      ∃ after, crowd.step caller turn = some after ∧ after.steps moves = some last :=
  Option.bind_eq_some_iff

/-- A run is cut into two where one likes. -/
theorem steps_append {earlier later : List (Nat × Turn)} :
    crowd.steps (earlier ++ later) = some last ↔
      ∃ after, crowd.steps earlier = some after ∧ after.steps later = some last := by
  induction earlier generalizing crowd with
  | nil => simp [steps]
  | cons move earlier ih =>
    obtain ⟨caller, turn⟩ := move
    rw [List.cons_append, steps_cons]
    constructor
    · rintro ⟨first, hfirst, hrest⟩
      obtain ⟨after, hafter, hlater⟩ := ih.1 hrest
      exact ⟨after, steps_cons.2 ⟨first, hfirst, hafter⟩, hlater⟩
    · rintro ⟨after, hafter, hlater⟩
      obtain ⟨first, hfirst, hrest⟩ := steps_cons.1 hafter
      exact ⟨first, hfirst, ih.2 ⟨after, hrest, hlater⟩⟩

/-- **Induction over a run**: what every step keeps, a run keeps. -/
theorem steps_induction {P : Crowd → Prop}
    (hstep : ∀ {crowd caller turn old world new}, P crowd → crowd.callers[caller]? = some old →
      Transition crowd caller turn old world new → P (world.enter caller new))
    {moves : List (Nat × Turn)} (h : crowd.steps moves = some last) (hcrowd : P crowd) :
    P last := by
  induction moves generalizing crowd with
  | nil => exact Option.some.inj h ▸ hcrowd
  | cons move moves ih =>
    obtain ⟨caller, turn⟩ := move
    obtain ⟨after, hafter, hrest⟩ := steps_cons.1 h
    obtain ⟨old, world, new, hold, ht, rfl⟩ := step_eq_some_iff.1 hafter
    exact ih hrest (hstep hcrowd hold ht)

/-- A call that has finished stays finished, with the same answer. -/
theorem finished_of_steps {answer : Except Failure Answer} {moves : List (Nat × Turn)}
    (hrun : crowd.steps moves = some last)
    (h : crowd.callers[other]? = some (.finished answer)) :
    last.callers[other]? = some (.finished answer) := by
  refine steps_induction (P := fun c ↦ c.callers[other]? = some (.finished answer)) ?_ hrun h
  intro c caller turn old world new hc hold ht
  rcases eq_or_ne caller other with rfl | hne
  · obtain rfl := Option.some.inj (hc.symm.trans hold)
    exact ht.not_finished.elim
  · rw [ht.callers_of_ne hne, hc]

/-- **A run keeps the invariant.** -/
theorem Sound.steps {moves : List (Nat × Turn)} (h : crowd.Sound bundle actions)
    (hrun : crowd.steps moves = some last) : last.Sound bundle actions :=
  steps_induction (P := Sound bundle actions) (fun h hold ht ↦ h.transition hold ht) hrun h

/-- What every step of sound calls keeps, a run keeps. -/
theorem Sound.steps_induction {P : Crowd → Prop} {moves : List (Nat × Turn)}
    (h : crowd.Sound bundle actions)
    (hstep : ∀ {crowd caller turn old world new}, crowd.Sound bundle actions → P crowd →
      crowd.callers[caller]? = some old → Transition crowd caller turn old world new →
        P (world.enter caller new))
    (hrun : crowd.steps moves = some last) (hcrowd : P crowd) : P last := by
  have hboth : last.Sound bundle actions ∧ P last := by
    refine Crowd.steps_induction (P := fun c ↦ c.Sound bundle actions ∧ P c) ?_ hrun ⟨h, hcrowd⟩
    intro c caller turn old world new hc hold ht
    exact ⟨hc.1.transition hold ht, hstep hc.1 hc.2 hold ht⟩
  exact hboth.2

/-- **Along a run the slot only grows.** -/
theorem Sound.steps_slot {moves : List (Nat × Turn)} (h : crowd.Sound bundle actions)
    (hrun : crowd.steps moves = some last) :
    SlotExtends crowd.shared.slot last.shared.slot := by
  refine h.steps_induction (P := fun c ↦ SlotExtends crowd.shared.slot c.shared.slot) ?_ hrun
    (.refl _)
  intro c caller turn old world new hc hbefore hold ht
  have hslot := hc.slot_extends hold ht
  exact hbefore.trans hslot

end Crowd

end Shared

end HighlightBundle
