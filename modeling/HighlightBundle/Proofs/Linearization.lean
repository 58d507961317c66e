import HighlightBundle.Proofs.Completion
import HighlightBundle.Proofs.Polls

/-!
# Calls on one thread are as good as calls one after the other

Calls that are run together on one thread wait for each other in several places, but each of them
does all that it does to the shared highlighter in the poll in which it returns: when its creation
ends, when its load goes on, or when a reference of it turns out not to resolve. So the order in
which the calls return is an order in which they could have been run one after the other, with the
same answers and the same state in the end.

`Serial` is the invariant of a schedule. It holds the calls that have returned, in that order, and
says that running them alone leads to the shared highlighter as it is. The only trace of a call that
has not returned is a creation that has been asked for, which `Settled` takes out of the account.
-/

namespace HighlightBundle.Shared

open Engine

/-! ### Replacing an entry -/

section Lists

variable {α β γ : Type} {as : List α} {bs : List β} {i : Nat} {a x y : α} {b : β} {c : γ}

/-- Replacing an entry of the second list replaces a pair. -/
theorem zip_set (h : as[i]? = some a) : as.zip (bs.set i b) = (as.zip bs).set i (a, b) := by
  induction as generalizing bs i with
  | nil => simp at h
  | cons a' as ih =>
    cases bs with
    | nil => rfl
    | cons b' bs =>
      cases i with
      | zero =>
        obtain rfl := Option.some.inj h
        rfl
      | succ i =>
        have hrest : as.zip (bs.set i b) = (as.zip bs).set i (a, b) := ih h
        rw [List.set_cons_succ, List.zip_cons_cons, hrest]
        rfl

/-- An entry that contributes the same as before changes nothing. -/
theorem filterMap_set_of_eq {f : α → Option γ} (h : as[i]? = some x) (hf : f y = f x) :
    (as.set i y).filterMap f = as.filterMap f := by
  induction as generalizing i with
  | nil => rfl
  | cons z as ih =>
    cases i with
    | zero =>
      obtain rfl := Option.some.inj h
      rw [List.set_cons_zero, List.filterMap_cons, List.filterMap_cons, hf]
    | succ i => rw [List.set_cons_succ, List.filterMap_cons, List.filterMap_cons, ih h]

/-- An entry that starts to contribute adds what it contributes. -/
theorem filterMap_set_perm {f : α → Option γ} (h : as[i]? = some x) (hx : f x = none)
    (hy : f y = some c) : ((as.set i y).filterMap f).Perm (c :: as.filterMap f) := by
  induction as generalizing i with
  | nil => simp at h
  | cons z as ih =>
    cases i with
    | zero =>
      obtain rfl := Option.some.inj h
      rw [List.set_cons_zero, List.filterMap_cons_some hy, List.filterMap_cons_none hx]
    | succ i =>
      rw [List.set_cons_succ]
      rcases hz : f z with - | d
      · rw [List.filterMap_cons_none hz, List.filterMap_cons_none hz]
        exact ih h
      · rw [List.filterMap_cons_some hz, List.filterMap_cons_some hz]
        exact ((ih h).cons d).trans (.swap c d _)

end Lists

namespace Crowd

variable {shared : Shared} {loader : Loader} {actions : List Action} {action : Action}
  {crowd after last : Crowd} {caller : Nat} {old new : Phase} {schedule : List Nat}

/-! ### The calls that have returned -/

/-- The calls that have returned, with their answers. -/
def returned (actions : List Action) (callers : List Phase) :
    List (Action × Except Failure Answer) :=
  (actions.zip callers).filterMap fun call ↦ (answer? call.2).map fun answer ↦ (call.1, answer)

/-- When all calls have returned, these are all of them. -/
theorem returned_eq_zip {callers : List Phase} {answers : List (Except Failure Answer)}
    (h : callers.mapM answer? = some answers) : returned actions callers = actions.zip answers := by
  induction callers generalizing actions answers with
  | nil =>
    obtain rfl : [] = answers := Option.some.inj h
    rw [returned, List.zip_nil_right, List.zip_nil_right]
    rfl
  | cons phase callers ih =>
    rw [List.mapM_cons] at h
    obtain ⟨answer, hanswer, h⟩ := Option.bind_eq_some_iff.1 h
    obtain ⟨others, hothers, h⟩ := Option.bind_eq_some_iff.1 h
    obtain rfl := Option.some.inj h
    cases actions with
    | nil => rfl
    | cons action actions =>
      have hrest : returned actions callers = actions.zip others := ih hothers
      rw [List.zip_cons_cons, ← hrest, returned, List.zip_cons_cons, List.filterMap_cons, hanswer]
      rfl

/-- Calls that have all returned have answers. -/
theorem exists_answers {callers : List Phase} (h : ∀ phase ∈ callers, phase.IsFinished) :
    ∃ answers, callers.mapM answer? = some answers := by
  induction callers with
  | nil => exact ⟨[], rfl⟩
  | cons phase callers ih =>
    obtain ⟨answer, rfl⟩ := h phase List.mem_cons_self
    obtain ⟨answers, hanswers⟩ := ih fun phase' hmem ↦ h phase' (List.mem_cons_of_mem _ hmem)
    exact ⟨answer :: answers, by rw [List.mapM_cons, hanswers]; rfl⟩

/-- Answers are those of calls that have returned. -/
theorem isFinished_of_answers {callers : List Phase} {answers : List (Except Failure Answer)}
    (h : callers.mapM answer? = some answers) : ∀ phase ∈ callers, phase.IsFinished := by
  induction callers generalizing answers with
  | nil => exact fun phase hmem ↦ absurd hmem List.not_mem_nil
  | cons first callers ih =>
    rw [List.mapM_cons] at h
    obtain ⟨answer, hanswer, h⟩ := Option.bind_eq_some_iff.1 h
    obtain ⟨others, hothers, -⟩ := Option.bind_eq_some_iff.1 h
    intro phase hmem
    rcases List.mem_cons.1 hmem with rfl | hmem
    · cases phase with
      | finished result => exact ⟨result, rfl⟩
      | _ => exact absurd hanswer nofun
    · exact ih hothers phase hmem

/-! ### The calls that have returned, one after the other -/

/-- The calls that have returned, run alone in the order in which they did, lead to the shared
highlighter as it is. -/
structure Serial (shared : Shared) (loader : Loader) (actions : List Action) (crowd : Crowd) :
    Prop where
  sound : crowd.Sound shared.bundle actions
  /-- A call has returned or waits. -/
  rest : ∀ phase ∈ crowd.callers, Pending phase ∨ phase.IsFinished
  history : ∃ (calls : List (Action × Except Failure Answer)) (rest : Loader),
    calls.Perm (returned actions crowd.callers) ∧
    shared.runAll loader (calls.map Prod.fst) = (calls.map Prod.snd, crowd.shared, rest) ∧
      crowd.Settled rest

/-- At the start no call has returned. -/
theorem serial_ofActions (shared : Shared) (loader : Loader) (actions : List Action) :
    Serial shared loader actions (ofActions shared loader actions) where
  sound := sound_ofActions shared loader actions
  rest phase hphase := by
    obtain ⟨action, rfl⟩ := eq_fresh_of_mem hphase
    exact Or.inl (.fresh action)
  history := by
    have hnone : returned actions (actions.map .fresh) = [] := by
      refine List.filterMap_eq_nil_iff.2 fun call hcall ↦ ?_
      obtain ⟨action, -, hfresh⟩ := List.mem_map.1 (List.of_mem_zip hcall).2
      rw [← hfresh]
      rfl
    refine ⟨[], loader, ?_, rfl, rfl⟩
    show [].Perm (returned actions (actions.map .fresh))
    rw [hnone]

/-- A call that waits has not returned. -/
theorem Pending.answer?_eq_none {phase : Phase} (h : Pending phase) : answer? phase = none := by
  cases h <;> rfl

/-- The order stays as it is while a call still waits. -/
theorem Serial.waits (h : Serial shared loader actions crowd)
    (hsound : after.Sound shared.bundle actions) (haction : actions[caller]? = some action)
    (hold : crowd.callers[caller]? = some old) (hpending : Pending old)
    (hcallers : after.callers = crowd.callers.set caller new) (hnew : Pending new)
    (hshared : after.shared = crowd.shared)
    (hsettled : ∀ loader, crowd.Settled loader → after.Settled loader) :
    Serial shared loader actions after where
  sound := hsound
  rest phase hphase := by
    rw [hcallers] at hphase
    rcases List.mem_or_eq_of_mem_set hphase with hmem | rfl
    · exact h.rest phase hmem
    · exact Or.inl hnew
  history := by
    obtain ⟨calls, rest, hperm, hrunAll, hrest⟩ := h.history
    have hzip : (actions.zip crowd.callers)[caller]? = some (action, old) :=
      List.getElem?_zip_eq_some.2 ⟨haction, hold⟩
    have hsame : (answer? new).map (fun answer ↦ (action, answer)) =
        (answer? old).map fun answer ↦ (action, answer) := by
      rw [hpending.answer?_eq_none, hnew.answer?_eq_none]
    refine ⟨calls, rest, ?_, hshared ▸ hrunAll, hsettled rest hrest⟩
    rw [hcallers, returned, zip_set haction, filterMap_set_of_eq hzip hsame]
    exact hperm

/-- A call that returns is the next one in the order. -/
theorem Serial.returns {answer : Except Failure Answer} (h : Serial shared loader actions crowd)
    (hsound : after.Sound shared.bundle actions) (haction : actions[caller]? = some action)
    (hold : crowd.callers[caller]? = some old) (hpending : Pending old)
    (hcallers : after.callers = crowd.callers.set caller (.finished answer))
    (hrun : ∀ loader, crowd.Settled loader → ∃ rest,
      crowd.shared.run loader action = (answer, after.shared, rest) ∧ after.Settled rest) :
    Serial shared loader actions after where
  sound := hsound
  rest phase hphase := by
    rw [hcallers] at hphase
    rcases List.mem_or_eq_of_mem_set hphase with hmem | rfl
    · exact h.rest phase hmem
    · exact Or.inr ⟨answer, rfl⟩
  history := by
    obtain ⟨calls, rest, hperm, hrunAll, hrest⟩ := h.history
    obtain ⟨final, hcall, hfinal⟩ := hrun rest hrest
    have hzip : (actions.zip crowd.callers)[caller]? = some (action, old) :=
      List.getElem?_zip_eq_some.2 ⟨haction, hold⟩
    have hnone : (answer? old).map (fun answer ↦ (action, answer)) = none := by
      rw [hpending.answer?_eq_none]
      rfl
    have hadd : (returned actions after.callers).Perm
        ((action, answer) :: returned actions crowd.callers) := by
      rw [hcallers, returned, zip_set haction]
      exact filterMap_set_perm hzip hnone rfl
    refine ⟨calls ++ [(action, answer)], final, ?_, ?_, hfinal⟩
    · exact (List.perm_append_singleton _ _).trans ((hperm.cons _).trans hadd.symm)
    · rw [List.map_append, List.map_append]
      exact runAll_concat hrunAll hcall

/-- **A poll keeps the invariant.** -/
theorem Serial.poll (h : Serial shared loader actions crowd) (caller : Nat) :
    Serial shared loader actions (crowd.poll caller).1 := by
  obtain ⟨moves, hmoves⟩ := exists_steps_pollSteps 10 crowd caller
  have hsound : (crowd.poll caller).1.Sound shared.bundle actions := h.sound.steps hmoves
  rcases hold : crowd.callers[caller]? with - | old
  · -- there is no such caller
    have hsame : (crowd.poll caller).1 = crowd := by
      rw [Crowd.poll, pollSteps, hold]
    rw [hsame]
    exact h
  · rcases h.rest old (List.mem_of_getElem? hold) with hpending | ⟨answer, rfl⟩
    · obtain ⟨action, haction, -⟩ := h.sound.exists_action hold
      cases h.sound.polled haction hold hpending with
      | waits hcallers hnew hshared hsettled =>
        exact h.waits hsound haction hold hpending hcallers hnew hshared hsettled
      | returns hcallers hrun => exact h.returns hsound haction hold hpending hcallers hrun
    · -- the call has returned before
      have hsame : (crowd.poll caller).1 = crowd := pollSteps_of_finished hold
      rw [hsame]
      exact h

/-- **A schedule keeps the invariant.** -/
theorem Serial.pollAll (h : Serial shared loader actions crowd) (schedule : List Nat) :
    Serial shared loader actions (crowd.pollAll schedule).1 := by
  induction schedule generalizing crowd with
  | nil => exact h
  | cons caller schedule ih => exact ih (h.poll caller)

/-! ### Polling until all calls have returned -/

/-- If a caller can take a step at all, it can take the one that it takes by itself. -/
theorem Transition.exists_defaultTurn {world : Crowd} {turn : Turn} {old new : Phase}
    (h : Transition crowd caller turn old world new) :
    ∃ world' new', Transition crowd caller (defaultTurn old) old world' new' := by
  rcases eq_or_ne turn (defaultTurn old) with rfl | hne
  · exact ⟨world, new, h⟩
  · -- only a load leaves a choice: its languages may come before its themes
    cases h with
    | @languagesLoaded job assets themes engine hslot =>
      cases themes with
      | none => exact ⟨_, _, .themesLoaded hslot⟩
      | some outcome => exact absurd rfl hne
    | _ => exact absurd rfl hne

/-- A poll of a caller that can take a step brings the calls nearer to their end. -/
theorem stepsLeft_poll_lt {world : Crowd} {turn : Turn} {old new : Phase}
    (hold : crowd.callers[caller]? = some old) (h : Transition crowd caller turn old world new) :
    (crowd.poll caller).1.stepsLeft < crowd.stepsLeft := by
  obtain ⟨world', new', ht⟩ := h.exists_defaultTurn
  have hlt := stepsLeft_enter_lt hold ht
  show (crowd.pollSteps (9 + 1) caller).1.stepsLeft < _
  rcases hgo : yields new' && !isLoading old with - | -
  · rw [pollSteps_goOn hold ht hgo]
    obtain ⟨moves, hmoves⟩ := exists_steps_pollSteps 9 (world'.enter caller new') caller
    have hle := stepsLeft_add_length_le hmoves
    omega
  · obtain ⟨hyields, hloading⟩ := Bool.and_eq_true_iff.1 hgo
    rw [pollSteps_pause hold ht hyields (by simpa using hloading)]
    exact hlt

/-- Every schedule can be carried on until all calls have returned. -/
theorem Serial.exists_pollAll (h : Serial shared loader actions crowd) :
    ∃ more answers, (crowd.pollAll more).1.answers? = some answers := by
  -- the induction is on the steps that are left, which the next poll lowers
  generalize hn : crowd.stepsLeft = n
  induction n using Nat.strongRecOn generalizing crowd with
  | ind n ih =>
    by_cases hall : ∀ phase ∈ crowd.callers, phase.IsFinished
    · obtain ⟨answers, hanswers⟩ := exists_answers hall
      exact ⟨[], answers, hanswers⟩
    · obtain ⟨phase, hmem, hdone⟩ : ∃ phase ∈ crowd.callers, ¬phase.IsFinished := by
        simpa using hall
      obtain ⟨caller, hphase⟩ := List.getElem?_of_mem hmem
      obtain ⟨other, turn, old, world, new, hold, ht⟩ := h.sound.exists_step hphase hdone
      have hlt := stepsLeft_poll_lt hold ht
      obtain ⟨more, answers, hanswers⟩ := ih _ (hn ▸ hlt) (h.poll other) rfl
      exact ⟨other :: more, answers, hanswers⟩

/-- **Calls on one thread are as good as calls one after the other.** Take any calls on a shared
highlighter and any schedule of polls.

* The schedule can be carried on until all calls have returned.
* When they have, there is an order of the calls such that running them alone, one after the other,
  gives every call the answer that it has got and ends in the same state: with the same engine in
  the slot, with all that is loaded into it, and with the same account of creations. -/
theorem linearizable (hlast : ((ofActions shared loader actions).pollAll schedule).1 = last) :
    (∃ more answers, (last.pollAll more).1.answers? = some answers) ∧
    ∀ answers, last.answers? = some answers →
      ∃ calls : List (Action × Except Failure Answer), calls.Perm (actions.zip answers) ∧
        shared.runAll loader (calls.map Prod.fst) =
          (calls.map Prod.snd, last.shared, last.loader) := by
  have hserial := (serial_ofActions shared loader actions).pollAll schedule
  rw [hlast] at hserial
  refine ⟨hserial.exists_pollAll, fun answers hanswers ↦ ?_⟩
  obtain ⟨calls, rest, hperm, hrun, hsettled⟩ := hserial.history
  rw [returned_eq_zip hanswers] at hperm
  have hpermit := hserial.sound.permit_eq_none (isFinished_of_answers hanswers)
  rw [Settled, hpermit] at hsettled
  obtain rfl : last.loader = rest := hsettled
  exact ⟨calls, hperm, hrun⟩

/-- Two calls render with themes of one name, and a third one asks for a theme without a name and
for a language that takes the aliases of another one. -/
def collidingActions : List Action :=
  [.html "x" .plaintext (.inline Sample.day),
    .html "x" (.inline (.single Sample.javascript)) (.inline { Sample.day with kind := .dark }),
    .get ⟨[.inline Sample.nameless], [.inline (.single Sample.terse)]⟩]

/-- The creation of the first call fails, the second one creates the engine, and the third one fails
after it has loaded. -/
theorem linearizable_of_collision :
    ∃ last answers, ((ofActions (.ofBundle ⟨.empty, .empty⟩ none) ⟨0, 1⟩ collidingActions).pollAll
        [0, 1, 2, 0, 1, 2, 1, 2, 2]).1 = last ∧ last.answers? = some answers ∧
      ∃ calls : List (Action × Except Failure Answer), calls.Perm (collidingActions.zip answers) ∧
        (ofBundle ⟨.empty, .empty⟩ none).runAll ⟨0, 1⟩ (calls.map Prod.fst) =
          (calls.map Prod.snd, last.shared, last.loader) := by
  have hlast : ∃ last answers, ((ofActions (.ofBundle ⟨.empty, .empty⟩ none) ⟨0, 1⟩
      collidingActions).pollAll [0, 1, 2, 0, 1, 2, 1, 2, 2]).1 = last ∧
        last.answers? = some answers :=
    ⟨_, _, rfl, rfl⟩
  obtain ⟨last, answers, hlast, hanswers⟩ := hlast
  exact ⟨last, answers, hlast, hanswers, (linearizable hlast).2 answers hanswers⟩

end Crowd

end HighlightBundle.Shared
