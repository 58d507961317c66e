import HighlightBundle.Proofs.CallInvariant

/-!
# No call waits for ever

A caller that needs an engine while another one creates it has no step. So that statements about
calls that have returned are about something, this module shows that everybody gets there:

* **there is always a step**, as long as some call has not returned (`Sound.exists_step`): the
  holder of the permit can go on by itself, and when nobody holds the permit everybody can;
* **there are not many**: `Phase.stepsLeft` bounds the steps that a call still has, and every step
  lowers the total (`Transition.stepsLeft_lt`).

Together they give that every run can be carried on until all calls have returned, in at most six
steps for each call (`Sound.exists_steps_finished`).
-/

namespace HighlightBundle.Shared

open Engine

/-! ### Sums over the entries of a list -/

/-- The sum of a number for each entry. -/
def total {α : Type} (f : α → Nat) (xs : List α) : Nat :=
  xs.foldr (fun x sum ↦ f x + sum) 0

/-- Replacing an entry changes a sum by the difference of the two entries. -/
theorem total_set {α : Type} (f : α → Nat) {xs : List α} {i : Nat} {x y : α}
    (h : xs[i]? = some x) : total f (xs.set i y) + f x = total f xs + f y := by
  induction xs generalizing i with
  | nil => simp at h
  | cons z xs ih =>
    cases i with
    | zero =>
      obtain rfl := Option.some.inj h
      show f y + total f xs + f z = f z + total f xs + f y
      omega
    | succ i =>
      have hrest : total f (xs.set i y) + f x = total f xs + f y := ih h
      show f z + total f (xs.set i y) + f x = f z + total f xs + f y
      omega

namespace Phase

/-- A bound for the steps that a call still has. -/
def stepsLeft : Phase → Nat
  | .fresh _ => 6
  | .asking _ => 5
  | .creating _ _ => 3
  | .created _ _ => 2
  | .loading _ _ themes languages =>
    2 + (if themes.isNone then 1 else 0) + (if languages then 0 else 1)
  | .rendering _ => 1
  | .finished _ => 0

/-- Whether the call has returned. -/
def IsFinished (phase : Phase) : Prop :=
  ∃ answer, phase = .finished answer

end Phase

namespace Crowd

variable {bundle : Bundle} {actions : List Action} {crowd world last : Crowd}
  {caller : Nat} {turn : Turn} {old new phase : Phase}

/-- Every step brings its call nearer to its end. -/
theorem Transition.stepsLeft_lt (h : Transition crowd caller turn old world new) :
    new.stepsLeft < old.stepsLeft := by
  cases h with
  | @loadStarted job engine assets _ _ =>
    rw [loadStart]
    cases assets.themes.isEmpty <;> cases assets.packs.isEmpty <;> simp [Phase.stepsLeft]
  | @themesLoaded job assets languages engine _ =>
    show 2 + 0 + _ < 2 + 1 + _
    omega
  | @languagesLoaded job assets themes engine _ =>
    show 2 + _ + 0 < 2 + _ + 1
    omega
  | _ => simp [Phase.stepsLeft]

/-- The steps that all calls together still have. -/
def stepsLeft (crowd : Crowd) : Nat :=
  total Phase.stepsLeft crowd.callers

/-- The total goes down with every step. -/
theorem stepsLeft_enter_lt (hold : crowd.callers[caller]? = some old)
    (h : Transition crowd caller turn old world new) :
    (world.enter caller new).stepsLeft < crowd.stepsLeft := by
  have hsum := total_set Phase.stepsLeft (y := new) hold
  have hlt := h.stepsLeft_lt
  rw [stepsLeft, enter_callers, h.callers_eq, stepsLeft]
  omega

/-- A creation that is under way can go on, whatever the others do. -/
theorem exists_transition_of_isCreating (hcreating : phase.isCreating = true) :
    ∃ turn world new, Transition crowd caller turn phase world new := by
  cases phase with
  | creating job assets =>
    obtain ⟨world, new, h, -⟩ : ∃ world new, Transition crowd caller .next (.creating job assets)
        world new ∧ crowd.build caller job assets = world.enter caller new :=
      transition_of_build job assets
    exact ⟨_, world, new, h⟩
  | created job engine => exact ⟨_, _, _, .published⟩
  | _ => exact absurd hcreating nofun

/-- While nobody holds the permit, every call that has not returned can go on. -/
theorem Sound.exists_transition (h : crowd.Sound bundle actions) (hpermit : crowd.permit = none)
    (hphase : crowd.callers[caller]? = some phase) (hdone : ¬phase.IsFinished) :
    ∃ turn world new, Transition crowd caller turn phase world new := by
  obtain ⟨action, -, hsound⟩ := h.exists_action hphase
  -- the guards of the rules cover all there is to be found: an engine or none, and nobody creating
  cases hsound with
  | fresh =>
    rcases hprepare : crowd.shared.bundle.prepare action with failure | job
    · exact ⟨_, _, _, .refused hprepare⟩
    · exact ⟨_, _, _, .prepared hprepare⟩
  | @asking job _ =>
    rcases hresolve : crowd.shared.bundle.resolve job.request with failure | assets <;>
      rcases hslot : crowd.shared.slot with - | engine
    · exact ⟨_, _, _, .creationRefused hslot hpermit hresolve⟩
    · exact ⟨_, _, _, .loadRefused hslot hresolve⟩
    · exact ⟨_, _, _, .creationStarted hslot hpermit hresolve⟩
    · exact ⟨_, _, _, .loadStarted hslot hresolve⟩
  | creating | created => exact exists_transition_of_isCreating rfl
  | @loading job assets themes languages _ hprogress =>
    obtain ⟨engine, hslot, -⟩ := hprogress.known
    rcases themes with - | failure | ⟨⟨⟩⟩
    · exact ⟨_, _, _, .themesLoaded hslot⟩
    · cases languages
      · exact ⟨_, _, _, .languagesLoaded hslot⟩
      · exact ⟨_, _, _, .loadFailed⟩
    · cases languages
      · exact ⟨_, _, _, .languagesLoaded hslot⟩
      · exact ⟨_, _, _, .loaded⟩
  | rendering hserved =>
    obtain ⟨assets, engine, -, hslot, -⟩ := hserved
    exact ⟨_, _, _, .rendered hslot⟩
  | returned | failed | due => exact absurd ⟨_, rfl⟩ hdone

/-- **There is always a step**, until all calls have returned. -/
theorem Sound.exists_step (h : crowd.Sound bundle actions)
    (hphase : crowd.callers[caller]? = some phase) (hdone : ¬phase.IsFinished) :
    ∃ other turn old world new, crowd.callers[other]? = some old ∧
      Transition crowd other turn old world new := by
  rcases hpermit : crowd.permit with - | holder
  · obtain ⟨turn, world, new, ht⟩ := h.exists_transition hpermit hphase hdone
    exact ⟨caller, turn, phase, world, new, hphase, ht⟩
  · obtain ⟨held, hheld, hcreating⟩ := h.permit.1 hpermit
    obtain ⟨turn, world, new, ht⟩ := exists_transition_of_isCreating hcreating
    exact ⟨holder, turn, held, world, new, hheld, ht⟩

/-- **Every run can be carried on until all calls have returned.** -/
theorem Sound.exists_steps_finished (h : crowd.Sound bundle actions) :
    ∃ moves last, moves.length ≤ crowd.stepsLeft ∧ crowd.steps moves = some last ∧
      ∀ phase ∈ last.callers, phase.IsFinished := by
  -- the induction is on the steps that are left, which every step lowers
  generalize hn : crowd.stepsLeft = n
  induction n using Nat.strongRecOn generalizing crowd with
  | ind n ih =>
    by_cases hall : ∀ phase ∈ crowd.callers, phase.IsFinished
    · exact ⟨[], crowd, Nat.zero_le _, rfl, hall⟩
    · obtain ⟨phase, hmem, hdone⟩ : ∃ phase ∈ crowd.callers, ¬phase.IsFinished := by
        simpa using hall
      obtain ⟨caller, hphase⟩ := List.getElem?_of_mem hmem
      obtain ⟨other, turn, old, world, new, hold, ht⟩ := h.exists_step hphase hdone
      have hlt := stepsLeft_enter_lt hold ht
      obtain ⟨moves, last, hlength, hrun, hfinished⟩ :=
        ih _ (hn ▸ hlt) (h.transition hold ht) rfl
      refine ⟨(other, turn) :: moves, last, ?_, steps_cons.2 ⟨_, ht.step_eq hold, hrun⟩,
        hfinished⟩
      rw [List.length_cons]
      omega

/-- When all calls have returned, nobody holds the permit. -/
theorem Sound.permit_eq_none (h : crowd.Sound bundle actions)
    (hdone : ∀ phase ∈ crowd.callers, phase.IsFinished) : crowd.permit = none := by
  refine Option.eq_none_iff_forall_ne_some.2 fun caller hpermit ↦ ?_
  obtain ⟨phase, hphase, hcreating⟩ := h.permit.1 hpermit
  obtain ⟨answer, rfl⟩ := hdone phase (List.mem_of_getElem? hphase)
  exact absurd hcreating nofun

/-- The steps of a run are at most as many as the calls had at its beginning. -/
theorem stepsLeft_add_length_le {moves : List (Nat × Turn)} (hrun : crowd.steps moves = some last) :
    last.stepsLeft + moves.length ≤ crowd.stepsLeft := by
  induction moves generalizing crowd with
  | nil =>
    obtain rfl := Option.some.inj hrun
    exact Nat.le_refl _
  | cons move moves ih =>
    obtain ⟨caller, turn⟩ := move
    obtain ⟨after, hafter, hrest⟩ := steps_cons.1 hrun
    obtain ⟨old, world, new, hold, ht, rfl⟩ := step_eq_some_iff.1 hafter
    have hlt := stepsLeft_enter_lt hold ht
    have hle := ih hrest
    rw [List.length_cons]
    omega

end Crowd

end HighlightBundle.Shared
