import HighlightBundle.Proofs.CallsAlone
import HighlightBundle.Proofs.SingleCreation

/-!
# Where an answer comes from

A call runs alone, or its steps come between those of other calls. Either way its answer is what
its own job rendered with some engine (`Returned.exists_run`): there is no other way to an answer.
So what holds of every rendering holds of every answer that any call returns, and the way that the
call went need not be followed again.
-/

namespace HighlightBundle

/-- The code that a call is given. -/
def Action.code? : Action → Option String
  | .get _ => none
  | .html code _ _ | .tokens code _ _ | .htmlThemes code _ => some code

namespace Engine

variable {engine : Engine} {code language markup : String}

/-- Markup with one theme is an element around the code. -/
theorem exists_element_of_html {theme : String} (h : engine.html code language theme = .ok markup) :
    ∃ attributes, markup = Markup.element engine.className attributes code := by
  obtain ⟨name, -, h⟩ := bind_eq_ok_iff.1 h
  obtain ⟨found, -, h⟩ := bind_eq_ok_iff.1 h
  exact ⟨_, (Except.ok.inj h).symm⟩

/-- So is markup with a theme for each role. -/
theorem exists_element_of_htmlThemes {themes : Table String} {defaultColor : Option String}
    (h : engine.htmlThemes code language themes defaultColor = .ok markup) :
    ∃ attributes, markup = Markup.element engine.className attributes code := by
  obtain ⟨name, -, h⟩ := bind_eq_ok_iff.1 h
  obtain ⟨names, -, h⟩ := bind_eq_ok_iff.1 h
  exact ⟨_, (Except.ok.inj h).symm⟩

end Engine

namespace Shared

open Crowd

/-- Some shared highlighter has returned the answer to a call, which ran alone or among others. -/
inductive Returned (action : Action) (answer : Answer) : Prop
  | alone {shared : Shared} {loader : Loader} (hrun : (shared.run loader action).1 = .ok answer) :
      Returned action answer
  | among {shared : Shared} {loader : Loader} {actions : List Action} {moves : List (Nat × Turn)}
      {now : Crowd} {caller : Nat} (haction : actions[caller]? = some action)
      (hrun : (ofActions shared loader actions).steps moves = some now)
      (hdone : now.callers[caller]? = some (.finished (.ok answer))) : Returned action answer

variable {action : Action} {answer : Answer} {markup : String} {lines : List (List Token)}

/-- A call alone that returns an answer has been prepared and has found an engine. -/
theorem exists_run_of_run_eq_ok {shared : Shared} {loader : Loader}
    (h : (shared.run loader action).1 = .ok answer) :
    ∃ job engine, shared.bundle.prepare action = .ok job ∧
      job.rendering.run engine = .ok answer := by
  rcases hprepare : shared.bundle.prepare action with failure | job
  · rw [run_of_prepare_eq_error hprepare] at h
    cases h
  · rcases hensure : shared.ensure loader job.request with ⟨failure | engine, later, rest⟩
    · rw [run_of_ensure_eq_error hprepare hensure] at h
      cases h
    · rw [run_of_ensure_eq_ok hprepare hensure] at h
      exact ⟨job, engine, rfl, mapError_eq_ok_iff.1 h⟩

/-- **An answer is what the job of the call rendered** with some engine. -/
theorem Returned.exists_run (h : Returned action answer) :
    ∃ (bundle : Bundle) (job : Job) (engine : Engine),
      bundle.prepare action = .ok job ∧ job.rendering.run engine = .ok answer := by
  cases h with
  | @alone shared loader hrun => exact ⟨shared.bundle, exists_run_of_run_eq_ok hrun⟩
  | @among shared loader actions moves now caller haction hrun hdone =>
    obtain ⟨used, -, ⟨before, after, mid, job, -, hmid, hphase, -, hanswer⟩, -, -⟩ :=
      exists_returnedWith shared hrun hdone
    have hsound := (sound_ofActions shared loader actions).steps hmid
    cases hsound.phase_of_action haction hphase with
    | rendering hserved =>
      obtain ⟨assets, -, hasks, -, -⟩ := hserved
      exact ⟨shared.bundle, job, used, hasks.prepare, hanswer⟩

/-! ### Markup and tokens -/

/-- Rendering gives markup for code only, and puts an element around it. -/
theorem exists_element_of_run {bundle : Bundle} {job : Job} {engine : Engine}
    (hprepare : bundle.prepare action = .ok job)
    (hrun : job.rendering.run engine = .ok (.html markup)) :
    ∃ code attributes, action.code? = some code ∧
      markup = Markup.element engine.className attributes code := by
  cases action with
  | get request =>
    obtain rfl := Except.ok.inj hprepare
    cases hrun
  | html code language theme =>
    obtain ⟨own, pack, -, -, rfl⟩ := Bundle.renderJob_eq_ok hprepare
    dsimp only [Rendering.run] at hrun
    obtain ⟨found, hfound, heq⟩ := map_eq_ok_iff.1 hrun
    obtain ⟨attributes, hmarkup⟩ := Engine.exists_element_of_html hfound
    exact ⟨code, attributes, rfl, (Answer.html.inj heq).symm.trans hmarkup⟩
  | tokens code language theme =>
    obtain ⟨own, pack, -, -, rfl⟩ := Bundle.renderJob_eq_ok hprepare
    dsimp only [Rendering.run] at hrun
    obtain ⟨lines, -, heq⟩ := map_eq_ok_iff.1 hrun
    cases heq
  | htmlThemes code options =>
    obtain ⟨roles, -, hprepare⟩ := bind_eq_ok_iff.1 hprepare
    obtain ⟨pack, -, hprepare⟩ := bind_eq_ok_iff.1 hprepare
    obtain rfl := Except.ok.inj hprepare
    dsimp only [Rendering.run] at hrun
    obtain ⟨found, hfound, heq⟩ := map_eq_ok_iff.1 hrun
    obtain ⟨attributes, hmarkup⟩ := Engine.exists_element_of_htmlThemes hfound
    exact ⟨code, attributes, rfl, (Answer.html.inj heq).symm.trans hmarkup⟩

/-- Markup is an element around the code of the call. -/
theorem Returned.exists_element (h : Returned action (.html markup)) :
    ∃ code className attributes, action.code? = some code ∧
      markup = Markup.element className attributes code := by
  obtain ⟨bundle, job, engine, hprepare, hrun⟩ := h.exists_run
  obtain ⟨code, attributes, hcode, hmarkup⟩ := exists_element_of_run hprepare hrun
  exact ⟨code, engine.className, attributes, hcode, hmarkup⟩

/-- Tokens are those that an engine gives for the code of the call. -/
theorem Returned.exists_tokens {code : String} {language : LanguageReference}
    {theme : ThemeReference} (h : Returned (.tokens code language theme) (.tokens lines)) :
    ∃ (engine : Engine) (language theme : String),
      engine.tokens code language theme = .ok lines := by
  obtain ⟨bundle, job, engine, hprepare, hrun⟩ := h.exists_run
  obtain ⟨own, pack, -, -, rfl⟩ := Bundle.renderJob_eq_ok hprepare
  dsimp only [Rendering.run] at hrun
  obtain ⟨found, hfound, heq⟩ := map_eq_ok_iff.1 hrun
  exact ⟨engine, pack.name, own.name, Answer.tokens.inj heq ▸ hfound⟩

end Shared

end HighlightBundle
