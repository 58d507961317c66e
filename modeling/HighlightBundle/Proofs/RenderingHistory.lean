import HighlightBundle.Proofs.CallInvariant
import HighlightBundle.Proofs.CallsAlone
import HighlightBundle.Proofs.ShownTexts

/-!
# Rendering does not depend on history

What has happened on a shared highlighter before a call is in its slot: an engine with tables that
nobody can foresee, since names and aliases may be given to anything. A rendering call does not see
them. It registers its own definitions last, on the way of a creation as well as on the way of a
load, and then renders with their names.

* `Bundle.rendered?` is the answer of a rendering call in terms of what its own references resolve
  to, the markup as a text; no engine occurs in it.
* `History` are the states of a shared highlighter that calls can lead to, one after the other or
  interleaved. All that has to be known about them is `Fits`: the bundle and the class are those of
  the beginning.

The two ways to an engine fail in the same way on a theme without a name, which is why it does not
matter either which of them a call takes. A failure that is due is the one thing that would show,
and it only shows while there is no engine.
-/

namespace HighlightBundle

open Engine

/-- The answer, unless one of the themes that have to be registered has no name. -/
def answered (themes : List Theme) (answer : Answer) : Except Failure Answer :=
  if ∀ theme ∈ themes, theme.name ≠ "" then .ok answer else .error (.engine .unnamedTheme)

theorem answered_of_registration {themes : List Theme} (answer : Answer)
    (h : registration themes = .ok ()) : answered themes answer = .ok answer :=
  if_pos (registration_eq_ok_iff.1 h)

theorem answered_of_registration_error {themes : List Theme} {failure : EngineFailure}
    (answer : Answer) (h : registration themes = .error failure) :
    answered themes answer = .error (.engine failure) := by
  obtain rfl := registration_eq_error h
  refine if_neg fun hall ↦ ?_
  rw [registration_eq_ok_iff.2 hall] at h
  exact absurd h nofun

/-- What a rendering call returns, in terms of what its own references resolve to. -/
def Bundle.rendered? (bundle : Bundle) (className : Option String) :
    Action → Option (Except Failure Answer)
  | .get _ => none
  | .html code language theme => some do
    let theme ← bundle.resolveTheme theme
    let pack ← bundle.resolveLanguage language
    answered [theme] <| .html <| "<pre class=\"fake" ++ className.elim "" (" " ++ ·) ++
      "\" data-lang=\"" ++ pack.shownName ++ "\" data-theme=\"" ++ theme.name ++ "\"><code>" ++
        Markup.escape code ++ "</code></pre>"
  | .tokens code language theme => some do
    let theme ← bundle.resolveTheme theme
    let _ ← bundle.resolveLanguage language
    answered [theme] <| .tokens <| lineTokens theme.editorForeground 0 (pieces '\n' code.toList)
  | .htmlThemes code options => some do
    let roles ← bundle.resolveRoles options.setThemes
    let pack ← bundle.resolveLanguage options.language
    let names := Table.ofList (roles.map fun e ↦ (e.1, e.2.name))
    answered (roles.map Prod.snd) <| .html <| "<pre class=\"fake" ++
      className.elim "" (" " ++ ·) ++ "\" data-lang=\"" ++ pack.shownName ++
        "\" data-themes=\"" ++ " ".intercalate (names.toList.map fun e ↦ e.1 ++ ":" ++ e.2) ++
          "\"" ++ options.defaultColor.elim "" (fun role ↦ " data-default=\"" ++ role ++ "\"") ++
            "><code>" ++ Markup.escape code ++ "</code></pre>"

namespace Shared

variable {bundle : Bundle} {className : Option String} {shared : Shared} {loader : Loader}
  {action : Action} {job : Job} {assets : Assets} {request : Request}

/-- The bundle and the class of a shared highlighter, which are also those of its engine. -/
structure Fits (bundle : Bundle) (className : Option String) (shared : Shared) : Prop where
  bundle_eq : shared.bundle = bundle
  className_eq : shared.className = className
  engine : ∀ {engine}, shared.slot = some engine → engine.className = className

theorem fits_ofBundle (bundle : Bundle) (className : Option String) :
    (ofBundle bundle className).Fits bundle className :=
  ⟨rfl, rfl, nofun⟩

/-! ### Making sure of the engine -/

/-- While a shared highlighter is ready, an empty slot means that no failure is due. -/
theorem failures_eq_zero (hready : shared.isInitialized = true ∨ loader.failures = 0)
    (hslot : shared.slot = none) : loader.failures = 0 := by
  rw [isInitialized, hslot] at hready
  exact hready.resolve_left nofun

/-- **Both ways to an engine leave the assets there**, if no failure can come in between. -/
theorem Fits.ensure_eq_ok (h : shared.Fits bundle className)
    (hready : shared.isInitialized = true ∨ loader.failures = 0)
    (hresolve : bundle.resolve request = .ok assets)
    (hthemes : registration assets.themes = .ok ()) :
    ∃ engine later rest, shared.ensure loader request = (.ok engine, later, rest) ∧
      engine.Carries assets ∧ engine.className = className := by
  obtain rfl := h.bundle_eq
  rcases hslot : shared.slot with - | engine
  · have hensure := ensure_of_named hslot hresolve (failures_eq_zero hready hslot) hthemes
    exact ⟨_, _, _, hensure, stocked_carries _ _ _, h.className_eq⟩
  · have hensure : shared.ensure loader request = _ := ensure_of_some hslot hresolve
    rw [hthemes] at hensure
    refine ⟨_, _, _, hensure, load_carries engine assets, ?_⟩
    rw [load_className, h.engine hslot]

/-- Both ways fail on a theme without a name. -/
theorem Fits.ensure_eq_error {failure : EngineFailure} (h : shared.Fits bundle className)
    (hready : shared.isInitialized = true ∨ loader.failures = 0)
    (hresolve : bundle.resolve request = .ok assets)
    (hthemes : registration assets.themes = .error failure) :
    ∃ later rest, shared.ensure loader request = (.error (.engine failure), later, rest) := by
  obtain rfl := h.bundle_eq
  rcases hslot : shared.slot with - | engine
  · exact ⟨_, _, ensure_of_unnamed hslot hresolve (failures_eq_zero hready hslot) hthemes⟩
  · have hensure : shared.ensure loader request = _ := ensure_of_some hslot hresolve
    rw [hthemes] at hensure
    exact ⟨_, _, hensure⟩

/-- A call that renders the same with every engine that carries its assets has that answer. -/
theorem Fits.run_eq_answered {answer : Answer} (h : shared.Fits bundle className)
    (hready : shared.isInitialized = true ∨ loader.failures = 0)
    (hasks : bundle.Asks action job assets)
    (hrun : (∀ theme ∈ assets.themes, theme.name ≠ "") → ∀ engine : Engine, engine.Carries assets →
      engine.className = className → job.rendering.run engine = .ok answer) :
    (shared.run loader action).1 = answered assets.themes answer := by
  obtain rfl := h.bundle_eq
  rcases hthemes : registration assets.themes with failure | ⟨⟨⟩⟩
  · obtain ⟨later, rest, hensure⟩ := h.ensure_eq_error hready hasks.resolve hthemes
    rw [run_of_ensure_eq_error hasks.prepare hensure, answered_of_registration_error answer hthemes]
  · obtain ⟨engine, later, rest, hensure, hcarries, hclass⟩ :=
      h.ensure_eq_ok hready hasks.resolve hthemes
    have hanswer := hrun (registration_eq_ok_iff.1 hthemes) engine hcarries hclass
    rw [run_of_ensure_eq_ok hasks.prepare hensure, hanswer, answered_of_registration answer hthemes]
    rfl

/-! ### What a rendering call returns -/

/-- Rendering with one theme, in any state that fits. -/
theorem Fits.run_of_renderJob {language : LanguageReference} {theme : ThemeReference}
    {rendering : String → String → Rendering} {answer : LanguagePack → Theme → Answer}
    (h : shared.Fits bundle className)
    (hready : shared.isInitialized = true ∨ loader.failures = 0)
    (hprepare : bundle.prepare action = bundle.renderJob language theme rendering)
    (hrun : ∀ (pack : LanguagePack) (own : Theme) (engine : Engine), own.name ≠ "" →
      engine.Carries ⟨[own], [pack]⟩ → engine.className = className →
        (rendering pack.name own.name).run engine = .ok (answer pack own)) :
    (shared.run loader action).1 = (do
      let own ← bundle.resolveTheme theme
      let pack ← bundle.resolveLanguage language
      answered [own] (answer pack own)) := by
  obtain rfl := h.bundle_eq
  rw [Bundle.renderJob] at hprepare
  rcases htheme : shared.bundle.resolveTheme theme with failure | own
  · rw [htheme] at hprepare
    rw [run_of_prepare_eq_error hprepare]
    rfl
  · rcases hlanguage : shared.bundle.resolveLanguage language with failure | pack
    · rw [htheme, hlanguage] at hprepare
      rw [run_of_prepare_eq_error hprepare]
      rfl
    · rw [htheme, hlanguage] at hprepare
      have hasks : shared.bundle.Asks action _ ⟨[own], [pack]⟩ :=
        ⟨hprepare, Bundle.resolve_inlineRequest [own] pack⟩
      refine h.run_eq_answered hready hasks fun hnamed engine hcarries hclass ↦ ?_
      exact hrun pack own engine (hnamed own List.mem_cons_self) hcarries hclass

/-- Rendering with a theme for each role, in any state that fits. -/
theorem Fits.run_htmlThemes {code : String} {options : RoleOptions}
    (h : shared.Fits bundle className)
    (hready : shared.isInitialized = true ∨ loader.failures = 0) :
    (shared.run loader (.htmlThemes code options)).1 = (do
      let roles ← bundle.resolveRoles options.setThemes
      let pack ← bundle.resolveLanguage options.language
      answered (roles.map Prod.snd) <| .html <| Markup.element className
        (roleAttributes pack (Table.ofList (roles.map fun e ↦ (e.1, e.2.name)))
          options.defaultColor) code) := by
  obtain rfl := h.bundle_eq
  have hprepare : shared.bundle.prepare (.htmlThemes code options) = _ := rfl
  conv at hprepare => rhs; rw [Bundle.prepare]
  rcases hroles : shared.bundle.resolveRoles options.setThemes with failure | roles
  · rw [hroles] at hprepare
    rw [run_of_prepare_eq_error hprepare]
    rfl
  · rcases hlanguage : shared.bundle.resolveLanguage options.language with failure | pack
    · rw [hroles, hlanguage] at hprepare
      rw [run_of_prepare_eq_error hprepare]
      rfl
    · rw [hroles, hlanguage] at hprepare
      have hasks : shared.bundle.Asks (.htmlThemes code options) _ ⟨roles.map Prod.snd, [pack]⟩ :=
        ⟨hprepare, Bundle.resolve_inlineRequest (roles.map Prod.snd) pack⟩
      refine h.run_eq_answered hready hasks fun hnamed engine hcarries hclass ↦ ?_
      -- every role is rendered with the name of a theme that was asked for
      have hnames : ∀ e ∈ (Table.ofList (roles.map fun e ↦ (e.1, e.2.name))).toList,
          ∃ theme ∈ roles.map Prod.snd, e.2 = theme.name := by
        intro e he
        obtain ⟨role, hrole, rfl⟩ := List.mem_map.1 (Table.mem_of_mem_toList_ofList he)
        exact ⟨role.2, List.mem_map_of_mem hrole, rfl⟩
      rw [Rendering.run, hcarries.htmlThemes hnamed hnames, hclass]
      rfl

/-- **A rendering call returns what its own references resolve to decides**, in any state that
fits. -/
theorem Fits.run_eq_rendered {answer : Except Failure Answer} (h : shared.Fits bundle className)
    (hready : shared.isInitialized = true ∨ loader.failures = 0)
    (hanswer : bundle.rendered? className action = some answer) :
    (shared.run loader action).1 = answer := by
  cases action with
  | get request => exact absurd hanswer nofun
  | html code language theme =>
    obtain rfl := Option.some.inj hanswer
    have hprepare : bundle.prepare (.html code language theme) =
        bundle.renderJob language theme (.html code) := rfl
    refine h.run_of_renderJob hready hprepare fun pack own engine hname hcarries hclass ↦ ?_
    rw [Rendering.run, hcarries.html hname, hclass, Markup.element_oneTheme]
    rfl
  | tokens code language theme =>
    obtain rfl := Option.some.inj hanswer
    have hprepare : bundle.prepare (.tokens code language theme) =
        bundle.renderJob language theme (.tokens code) := rfl
    refine h.run_of_renderJob hready hprepare fun pack own engine hname hcarries hclass ↦ ?_
    rw [Rendering.run, hcarries.tokens hname, own.foreground?_eq]
    rfl
  | htmlThemes code options =>
    obtain rfl := Option.some.inj hanswer
    rw [h.run_htmlThemes hready]
    simp only [Markup.element_roles]

/-! ### Whatever has happened before -/

/-- The states of a shared highlighter that calls can lead to. How many creations fail may be set
anew before each call, so every call comes with a loader of its own. -/
inductive History (bundle : Bundle) (className : Option String) : Shared → Prop
  | new : History bundle className (ofBundle bundle className)
  | call {shared : Shared} (loader : Loader) (action : Action)
      (before : History bundle className shared) :
      History bundle className (shared.run loader action).2.1
  /-- Several calls at the same time, up to any moment. -/
  | crowd {shared : Shared} {loader : Loader} {actions : List Action} {moves : List (Nat × Turn)}
      {last : Crowd} (before : History bundle className shared)
      (hrun : (Crowd.ofActions shared loader actions).steps moves = some last) :
      History bundle className last.shared

/-- Another engine of the same class fits as well. -/
theorem Fits.put {engine : Engine} (h : shared.Fits bundle className)
    (hclass : engine.className = className) : (shared.put engine).Fits bundle className :=
  ⟨h.bundle_eq, h.className_eq, fun hslot ↦ Option.some.inj hslot ▸ hclass⟩

/-- Making sure of the engine changes neither the bundle nor the class. -/
theorem Fits.ensure (h : shared.Fits bundle className) (loader : Loader) (request : Request) :
    (shared.ensure loader request).2.1.Fits bundle className := by
  rcases hresolve : shared.bundle.resolve request with failure | assets
  · rw [ensure_of_resolve_eq_error hresolve]
    exact h
  · rcases hslot : shared.slot with - | engine
    · rcases Nat.eq_zero_or_pos loader.failures with hzero | hpos
      · rcases hthemes : registration assets.themes with failure | ⟨⟨⟩⟩
        · rw [ensure_of_unnamed hslot hresolve hzero hthemes]
          exact h
        · rw [ensure_of_named hslot hresolve hzero hthemes]
          exact h.put h.className_eq
      · rw [ensure_of_pos hslot hresolve hpos]
        exact h
    · rw [ensure_of_some hslot hresolve]
      exact h.put ((load_className engine assets).trans (h.engine hslot))

theorem Fits.run (h : shared.Fits bundle className) (loader : Loader) (action : Action) :
    (shared.run loader action).2.1.Fits bundle className := by
  rcases hprepare : shared.bundle.prepare action with failure | job
  · rw [run_of_prepare_eq_error hprepare]
    exact h
  · rw [run_snd_eq_ensure hprepare]
    exact h.ensure loader job.request

/-- The crowd fits, and so do the engines that are not in the slot yet. -/
structure CrowdFits (bundle : Bundle) (className : Option String) (crowd : Crowd) : Prop where
  shared : crowd.shared.Fits bundle className
  created : ∀ {caller : Nat} {job : Job} {engine : Engine},
    crowd.callers[caller]? = some (.created job engine) → engine.className = className

/-- A step of a call changes neither the bundle nor the class. -/
theorem CrowdFits.transition {crowd world : Crowd} {caller : Nat} {turn : Turn} {old new : Phase}
    (h : CrowdFits bundle className crowd) (hold : crowd.callers[caller]? = some old)
    (ht : Crowd.Transition crowd caller turn old world new) :
    CrowdFits bundle className (world.enter caller new) where
  shared := by
    rw [Crowd.enter_shared]
    cases ht with
    | published => exact h.shared.put (h.created hold)
    | themesLoaded hslot | languagesLoaded hslot =>
      have hclass := h.shared.engine hslot
      exact h.shared.put hclass
    | _ => exact h.shared
  created {other job engine} hother := by
    rcases eq_or_ne caller other with rfl | hne
    · rw [ht.callers_self hold] at hother
      obtain rfl := Option.some.inj hother
      cases ht with
      | built => exact h.shared.className_eq
    · rw [ht.callers_of_ne hne] at hother
      exact h.created hother

/-- Neither do calls that interleave. -/
theorem Fits.steps {actions : List Action} {moves : List (Nat × Turn)} {last : Crowd}
    (h : shared.Fits bundle className)
    (hrun : (Crowd.ofActions shared loader actions).steps moves = some last) :
    last.shared.Fits bundle className := by
  refine (Crowd.steps_induction (P := CrowdFits bundle className)
    (fun hcrowd hold ht ↦ hcrowd.transition hold ht) hrun ⟨h, fun hcaller ↦ ?_⟩).shared
  obtain ⟨action, hfresh⟩ := Crowd.eq_fresh_of_mem (List.mem_of_getElem? hcaller)
  exact absurd hfresh nofun

/-- **A state with a history fits.** -/
theorem History.fits (h : History bundle className shared) : shared.Fits bundle className := by
  induction h with
  | new => exact fits_ofBundle bundle className
  | call loader action _ ih => exact ih.run loader action
  | crowd _ hrun ih => exact ih.steps hrun

/-- **Rendering does not depend on history.** Take a state that calls can lead to, and a rendering
call before which the engine is there or no creation failure is due. It returns what the same call
returns as the first one of a new highlighter over the same bundle and with the same class, and that
is what its own references resolve to:

* markup is the text with the name of its own language, which is `plaintext` or the one of the last
  definition of its pack, and the name of its own theme;
* tokens, one for each line that is not empty, have the string that its own theme has for
  `editor.foreground` among the `colors` of its body, and no colour if there is no such string. -/
theorem rendering_ignores_history {new : Loader} (h : History bundle className shared)
    (hready : shared.isInitialized = true ∨ loader.failures = 0) (hnew : new.failures = 0)
    (haction : ∀ request, action ≠ .get request) :
    (shared.run loader action).1 = ((ofBundle bundle className).run new action).1 ∧
    bundle.rendered? className action = some (shared.run loader action).1 ∧
    (∀ code language theme markup, action = .html code language theme →
      (shared.run loader action).1 = .ok (.html markup) →
        ∃ own pack shown, bundle.resolveTheme theme = .ok own ∧
          bundle.resolveLanguage language = .ok pack ∧ pack.ShownAs shown ∧
          markup = "<pre class=\"fake" ++ className.elim "" (" " ++ ·) ++ "\" data-lang=\"" ++
            shown ++ "\" data-theme=\"" ++ own.name ++ "\"><code>" ++ Markup.escape code ++
              "</code></pre>") ∧
    ∀ code language theme lines, action = .tokens code language theme →
      (shared.run loader action).1 = .ok (.tokens lines) →
        ∃ own, bundle.resolveTheme theme = .ok own ∧
          (lines.map fun line ↦ line.map Token.content) = (pieces '\n' code.toList).map (fun line ↦
            if line = [] then [] else [String.ofList line]) ∧
          ∀ line ∈ lines, ∀ token ∈ line, ∀ color, token.color = some color ↔
            ∃ colors members, own.body.get? "colors" = some colors ∧
              colors.tree = .object members ∧ ("editor.foreground", .string color) ∈ members := by
  obtain ⟨answer, hanswer⟩ : ∃ answer, bundle.rendered? className action = some answer := by
    cases action with
    | get request => exact absurd rfl (haction request)
    | html | tokens | htmlThemes => exact ⟨_, rfl⟩
  have hrun := h.fits.run_eq_rendered hready hanswer
  have hfirst := (fits_ofBundle bundle className).run_eq_rendered (Or.inr hnew) hanswer
  refine ⟨hrun.trans hfirst.symm, hanswer.trans (congrArg some hrun.symm), ?_, ?_⟩
  · rintro code language theme markup rfl hok
    obtain rfl := hrun.symm.trans hok
    obtain ⟨own, htheme, hanswer⟩ := bind_eq_ok_iff.1 (Option.some.inj hanswer)
    obtain ⟨pack, hlanguage, hanswer⟩ := bind_eq_ok_iff.1 hanswer
    refine ⟨own, pack, pack.shownName, htheme, hlanguage, LanguagePack.shownAs_iff.2 rfl, ?_⟩
    rw [answered] at hanswer
    split at hanswer
    · exact (Answer.html.inj (Except.ok.inj hanswer)).symm
    · exact absurd hanswer nofun
  · rintro code language theme lines rfl hok
    obtain rfl := hrun.symm.trans hok
    obtain ⟨own, htheme, hanswer⟩ := bind_eq_ok_iff.1 (Option.some.inj hanswer)
    obtain ⟨pack, -, hanswer⟩ := bind_eq_ok_iff.1 hanswer
    refine ⟨own, htheme, ?_⟩
    rw [answered] at hanswer
    split at hanswer
    · obtain rfl := Answer.tokens.inj (Except.ok.inj hanswer)
      refine ⟨contents_lineTokens, fun line hline token htoken color ↦ ?_⟩
      rw [color_of_mem_lineTokens line hline token htoken]
      exact Theme.editorForeground_eq_some_iff
    · exact absurd hanswer nofun

/-- The engine holds another language under both aliases of the one that is asked for, and the next
creation is due to fail; the call does not notice. -/
theorem rendering_ignores_history_of_collision :
    ∃ shared : Shared, History ⟨.empty, .empty⟩ none shared ∧ shared.isInitialized = true ∧
      (shared.run ⟨1, 1⟩ (.html "x" (.inline (.single Sample.javascript)) (.inline Sample.day))).1 =
        ((ofBundle ⟨.empty, .empty⟩ none).run .fresh
          (.html "x" (.inline (.single Sample.javascript)) (.inline Sample.day))).1 := by
  have hhistory : History ⟨.empty, .empty⟩ none ((ofBundle ⟨.empty, .empty⟩ none).run .fresh
      (.get ⟨[.inline { Sample.day with kind := .dark }], [.inline (.single Sample.terse)]⟩)).2.1 :=
    .call _ _ .new
  refine ⟨_, hhistory, rfl, (rendering_ignores_history hhistory (Or.inl rfl) rfl ?_).1⟩
  rintro request ⟨⟩

end Shared

end HighlightBundle
