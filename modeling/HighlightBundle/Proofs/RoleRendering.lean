import HighlightBundle.Proofs.RenderingHistory
import HighlightBundle.Proofs.RequestedAssets

/-!
# Rendering with the roles that have a theme

The roles of a rendering call are set by other calls, one after the other. A role may be set several
times, and it may be set to nothing or to an id that asks for nothing. What counts is the last thing
that was written for a role, and whether it asks for something: `SetTo` says so in terms of the
settings, and it is all that rendering knows of them.

The roles that are set come out of a table in their order, and resolving keeps the order, so they
are one ascending list from the settings to the markup (`ascending_setThemes`,
`ascending_of_resolveRoles`). Two such lists with the same members are the same, which is why
settings with the same roles render the same.

The default colour is no role. It is passed on as it was chosen, and appears in one attribute.
-/

namespace HighlightBundle

/-- A call that sets roles. -/
inductive RoleSetting where
  | theme (role : String) (reference : ThemeReference)
  /-- From left to right, some of the roles possibly without a theme. -/
  | themes (roles : List (String × Option ThemeReference))

namespace RoleSetting

/-- What the call writes. -/
def writes : RoleSetting → List (String × Option ThemeReference)
  | theme role reference => [(role, some reference)]
  | themes roles => roles

/-- The role is set to the reference: that is what was written last for it, and it asks for
something. -/
def SetTo (settings : List RoleSetting) (role : String) (r : ThemeReference) : Prop :=
  (settings.flatMap writes).reverse.lookup role = some (some r) ∧ r.isBlank = false

/-- The same roles are set to the same. -/
def SameRoles (settings others : List RoleSetting) : Prop :=
  ∀ role r, SetTo settings role r ↔ SetTo others role r

end RoleSetting

open RoleSetting (SameRoles SetTo writes)

/-! ### The roles that are set -/

namespace RoleOptions

/-- Sets the roles of one call. -/
def apply (options : RoleOptions) : RoleSetting → RoleOptions
  | .theme role reference => options.withTheme role reference
  | .themes roles => options.withThemes roles

/-- The options that settings make, with a default colour if one is chosen. -/
def built (language : LanguageReference) (settings : List RoleSetting) :
    Option String → RoleOptions
  | none => settings.foldl apply (ofLanguage language)
  | some color => (settings.foldl apply (ofLanguage language)).withDefaultColor color

variable {language : LanguageReference} {settings others : List RoleSetting}
  {color : Option String} {role : String} {r : ThemeReference}

theorem foldl_apply (options : RoleOptions) : settings.foldl apply options =
    { options with themes := options.themes.insertAll (settings.flatMap writes) } := by
  induction settings generalizing options with
  | nil => rfl
  | cons setting rest ih =>
    rw [List.foldl_cons, ih, List.flatMap_cons, Table.insertAll_append]
    cases setting <;> rfl

/-- The last setting of every role is in the table. -/
theorem built_eq : built language settings color =
    ⟨language, .ofList (settings.flatMap writes), color⟩ := by
  cases color <;> rw [built, foldl_apply] <;> rfl

theorem built_language : (built language settings color).language = language := by
  rw [built_eq]

theorem built_defaultColor : (built language settings color).defaultColor = color := by
  rw [built_eq]

theorem ascending_setThemes (options : RoleOptions) : Ascending options.setThemes := by
  refine List.Pairwise.filter _ ?_
  refine List.Pairwise.filterMap _ (fun a b hlt a' ha b' hb ↦ ?_) options.themes.ascending
  obtain ⟨_, -, rfl⟩ := Option.map_eq_some_iff.1 ha
  obtain ⟨_, -, rfl⟩ := Option.map_eq_some_iff.1 hb
  exact hlt

theorem mem_setThemes_iff {options : RoleOptions} : (role, r) ∈ options.setThemes ↔
    options.themes.get? role = some (some r) ∧ r.isBlank = false := by
  rw [setThemes, List.mem_filter, List.mem_filterMap, ← Table.mem_toList_iff, Bool.not_eq_true']
  refine and_congr_left' ⟨?_, fun hmem ↦ ⟨(role, some r), hmem, rfl⟩⟩
  rintro ⟨⟨role', reference⟩, hmem, hmap⟩
  obtain ⟨r', rfl, heq⟩ := Option.map_eq_some_iff.1 hmap
  cases heq
  exact hmem

/-- **The roles with a theme are those that are set to one.** -/
theorem mem_setThemes_built :
    (role, r) ∈ (built language settings color).setThemes ↔ SetTo settings role r := by
  rw [mem_setThemes_iff, built_eq, Table.get?_ofList, SetTo]

/-- Settings with the same roles make the same list of roles, whatever the default colour is. -/
theorem setThemes_built_eq (h : SameRoles settings others) (color color' : Option String) :
    (built language settings color).setThemes = (built language others color').setThemes := by
  refine Table.eq_of_ascending (ascending_setThemes _) (ascending_setThemes _) ?_
  rintro ⟨role, r⟩
  rw [mem_setThemes_built, mem_setThemes_built, h role r]

end RoleOptions

/-- The rendering call with the options that settings make. -/
def Action.withRoles (code : String) (language : LanguageReference) (settings : List RoleSetting)
    (color : Option String) : Action :=
  .htmlThemes code (.built language settings color)

/-! ### Resolving the roles -/

namespace Bundle

variable {bundle : Bundle} {set : List (String × ThemeReference)} {roles : List (String × Theme)}

/-- Every role keeps its place. -/
theorem ascending_of_resolveRoles (h : bundle.resolveRoles set = .ok roles) (hset : Ascending set) :
    Ascending roles := by
  have hkeys : roles.map Prod.fst = set.map Prod.fst :=
    map_of_mapM_eq_ok (fun x y hxy ↦ by
      obtain ⟨theme, -, hpair⟩ := bind_eq_ok_iff.1 hxy
      exact congrArg Prod.fst (Except.ok.inj hpair).symm) h
  have hpairwise : (set.map Prod.fst).Pairwise (· < ·) := List.pairwise_map.2 hset
  exact List.pairwise_map.1 (hkeys ▸ hpairwise)

/-- The theme of a role is the one that its reference stands for. -/
theorem mem_of_resolveRoles (h : bundle.resolveRoles set = .ok roles) {role : String}
    {theme : Theme} : (role, theme) ∈ roles ↔
      ∃ r, (role, r) ∈ set ∧ bundle.resolveTheme r = .ok theme := by
  rw [mem_of_mapM_eq_ok h]
  constructor
  · rintro ⟨⟨role', r⟩, hset, hresult⟩
    obtain ⟨theme', htheme, hpair⟩ := bind_eq_ok_iff.1 hresult
    cases Except.ok.inj hpair
    exact ⟨r, hset, htheme⟩
  · rintro ⟨r, hset, htheme⟩
    exact ⟨(role, r), hset, bind_eq_ok_iff.2 ⟨theme, htheme, rfl⟩⟩

/-- When every theme is there, all roles have theirs. -/
theorem exists_resolveRoles
    (hthemes : ∀ role r, (role, r) ∈ set → ∃ theme, bundle.resolveTheme r = .ok theme) :
    ∃ roles, bundle.resolveRoles set = .ok roles := by
  rcases hresult : bundle.resolveRoles set with failure | roles
  · obtain ⟨⟨role, r⟩, hset, hfailed⟩ := exists_mem_of_mapM_eq_error hresult
    obtain ⟨theme, htheme⟩ := hthemes role r hset
    rw [htheme] at hfailed
    exact absurd hfailed nofun
  · exact ⟨roles, rfl⟩

/-! ### What is looked up -/

theorem mem_eventsUntilFailure {ρ α : Type} {events : ρ → List Event}
    {resolve : ρ → Except Failure α} {rs : List ρ} {event : Event}
    (h : event ∈ eventsUntilFailure events resolve rs) : ∃ r ∈ rs, event ∈ events r := by
  induction rs with
  | nil => exact absurd h List.not_mem_nil
  | cons r rest ih =>
    rw [eventsUntilFailure] at h
    rcases List.mem_append.1 h with hfirst | hrest
    · exact ⟨r, List.mem_cons_self, hfirst⟩
    · rcases hr : resolve r with failure | x
      · rw [hr] at hrest
        exact absurd hrest List.not_mem_nil
      · rw [hr] at hrest
        obtain ⟨r', hr', hevent⟩ := ih hrest
        exact ⟨r', List.mem_cons_of_mem r hr', hevent⟩

/-- Nothing is looked up for definitions that are at hand. -/
theorem resolveEvents_inlineRequest (themes : List Theme) (pack : LanguagePack) :
    bundle.resolveEvents (inlineRequest themes pack) = [] := by
  refine List.eq_nil_iff_forall_not_mem.2 fun event hevent ↦ ?_
  rcases List.mem_append.1 hevent with hthemes | hlanguage
  · obtain ⟨r, hr, hevent⟩ := mem_eventsUntilFailure hthemes
    obtain ⟨theme, -, rfl⟩ := List.mem_map.1 (List.mem_filter.1 hr).1
    exact absurd hevent List.not_mem_nil
  · split at hlanguage
    · obtain ⟨r, hr, hevent⟩ := mem_eventsUntilFailure hlanguage
      obtain rfl := List.mem_singleton.1 hr
      exact absurd hevent List.not_mem_nil
    · exact absurd hlanguage List.not_mem_nil

/-- No theme is looked up for a language. -/
theorem resolving_theme_not_mem_languageEvents {id : String} (r : LanguageReference) :
    .note (.resolving .theme id) ∉ languageEvents r := by
  cases r with
  | plaintext | inline pack => exact List.not_mem_nil
  | bundled id' =>
    rw [languageEvents]
    split <;> simp

/-- The themes that are looked up are those of the roles with a theme. -/
theorem resolving_mem_prepareEvents {code id : String} {options : RoleOptions}
    (h : .note (.resolving .theme id) ∈ bundle.prepareEvents (.htmlThemes code options)) :
    ∃ role, (role, .bundled id) ∈ options.setThemes := by
  rcases List.mem_append.1 h with hthemes | hlanguage
  · obtain ⟨r, hr, hevent⟩ := mem_eventsUntilFailure hthemes
    obtain ⟨⟨role, r⟩, hset, rfl⟩ := List.mem_map.1 hr
    cases r with
    | inline theme => exact absurd hevent List.not_mem_nil
    | bundled id' =>
      cases List.mem_singleton.1 hevent
      exact ⟨role, hset⟩
  · split at hlanguage
    · exact absurd hlanguage (resolving_theme_not_mem_languageEvents _)
    · exact absurd hlanguage List.not_mem_nil

end Bundle

/-! ### What a call does besides rendering -/

namespace Shared

variable {bundle : Bundle} {className : Option String} {shared : Shared} {loader : Loader}
  {action action' : Action} {request : Request} {assets : Assets} {code id : String}
  {options options' : RoleOptions} {roles : List (String × Theme)} {pack : LanguagePack}

/-- The names of the themes in the engine, and none while there is no engine. -/
def loadedThemes (shared : Shared) : List String :=
  match shared.slot with
  | none => []
  | some engine => engine.loadedThemes

/-- Calls that look up the same and ask for the same leave the same behind. -/
theorem sameEffects (loader : Loader)
    (hevents : shared.bundle.prepareEvents action = shared.bundle.prepareEvents action')
    (hrequest : (shared.bundle.prepare action).map Job.request =
      (shared.bundle.prepare action').map Job.request) :
    (shared.run loader action).2 = (shared.run loader action').2 ∧
      shared.runEvents action = shared.runEvents action' := by
  rcases hprepare : shared.bundle.prepare action with failure | job <;>
    rcases hprepare' : shared.bundle.prepare action' with failure' | job' <;>
      rw [hprepare, hprepare'] at hrequest
  · rw [run_of_prepare_eq_error hprepare, run_of_prepare_eq_error hprepare', runEvents, runEvents,
      hprepare, hprepare', hevents]
    exact ⟨rfl, rfl⟩
  · cases hrequest
  · cases hrequest
  · have hsame : job.request = job'.request := Except.ok.inj hrequest
    refine ⟨by rw [run_snd_eq_ensure hprepare, run_snd_eq_ensure hprepare', hsame], ?_⟩
    simp only [runEvents, hprepare, hprepare', hevents, hsame]

/-- Making sure of the engine adds the names of the themes that are asked for, and no others. -/
theorem mem_loadedThemes_ensure (hready : shared.isInitialized = true ∨ loader.failures = 0)
    (hresolve : shared.bundle.resolve request = .ok assets)
    (hnamed : ∀ theme ∈ assets.themes, theme.name ≠ "") {name : String} :
    name ∈ (shared.ensure loader request).2.1.loadedThemes ↔
      name ∈ shared.loadedThemes ∨ ∃ theme ∈ assets.themes, theme.name = name := by
  rw [← isSome_lastNamed_iff_of_named hnamed]
  rcases hslot : shared.slot with - | engine
  · rw [ensure_of_named hslot hresolve (failures_eq_zero hready hslot)
      (Engine.registration_eq_ok_iff.2 hnamed)]
    have hnone : name ∉ shared.loadedThemes := by
      rw [loadedThemes, hslot]
      exact List.not_mem_nil
    have hholds := Engine.stocked_holds (loader.creations + 1) shared.className assets
    have hthemes := hholds.themes name
    rw [List.flatMap_singleton] at hthemes
    rw [or_iff_right hnone, ← hthemes]
    exact Engine.mem_loadedThemes_iff
  · rw [ensure_of_some hslot hresolve]
    have hthemes := engine.get?_load_themes assets name
    show name ∈ (engine.load assets).2.loadedThemes ↔ _
    rw [Engine.mem_loadedThemes_iff, hthemes, Option.isSome_or, Bool.or_eq_true, or_comm,
      ← Engine.mem_loadedThemes_iff, loadedThemes, hslot]

/-- Making sure of the engine looks nothing up besides the request. -/
theorem resolving_not_mem_ensureEvents {kind : AssetKind}
    (hnothing : shared.bundle.resolveEvents request = []) :
    .note (.resolving kind id) ∉ shared.ensureEvents request := by
  rw [ensureEvents]
  rcases shared.slot with - | engine
  · simp only [Highlighter.createEvents, hnothing, List.nil_append]
    rcases shared.bundle.resolve request with failure | assets <;> simp [Engine.createEvents]
  · simp only [Highlighter.loadEvents, hnothing, List.nil_append]
    rcases shared.bundle.resolve request with failure | assets
    · exact List.not_mem_nil
    · simp only [Engine.loadEvents, Engine.themeBatchEvents, Engine.languageBatchEvents]
      split <;> split <;> simp

/-- The only themes that a call looks up are those of its roles. -/
theorem resolving_mem_runEvents
    (h : .note (.resolving .theme id) ∈ shared.runEvents (.htmlThemes code options)) :
    ∃ role, (role, .bundled id) ∈ options.setThemes := by
  rcases List.mem_append.1 h with hprepared | hensured
  · exact Bundle.resolving_mem_prepareEvents hprepared
  · rcases hprepare : shared.bundle.prepare (.htmlThemes code options) with failure | job
    · rw [hprepare] at hensured
      exact absurd hensured List.not_mem_nil
    · rw [hprepare] at hensured
      -- what is asked for then are definitions that are at hand
      obtain ⟨request, hget, -⟩ | ⟨themes, pack, hrequest, -⟩ := Bundle.names_of_prepare hprepare
      · exact absurd hget nofun
      · refine absurd hensured (resolving_not_mem_ensureEvents ?_)
        rw [hrequest, Bundle.resolveEvents_inlineRequest]

/-! ### The call as a whole -/

/-- A call knows of its roles only which of them have a theme, and the default colour has no part in
what it leaves behind. -/
theorem sameEffects_htmlThemes (loader : Loader) (hlanguage : options.language = options'.language)
    (hset : options.setThemes = options'.setThemes) :
    (shared.run loader (.htmlThemes code options)).2 =
        (shared.run loader (.htmlThemes code options')).2 ∧
      shared.runEvents (.htmlThemes code options) =
        shared.runEvents (.htmlThemes code options') := by
  refine sameEffects loader ?_ ?_
  · simp only [Bundle.prepareEvents, hset, hlanguage]
  · simp only [Bundle.prepare, hset, hlanguage]
    rcases shared.bundle.resolveRoles options'.setThemes with failure | roles
    · rfl
    · rcases shared.bundle.resolveLanguage options'.language with failure | pack <;> rfl

/-- Nor has the default colour a part in its failures. -/
theorem Fits.run_htmlThemes_eq_error_iff (h : shared.Fits bundle className)
    (hready : shared.isInitialized = true ∨ loader.failures = 0)
    (hlanguage : options.language = options'.language)
    (hset : options.setThemes = options'.setThemes) (failure : Failure) :
    (shared.run loader (.htmlThemes code options)).1 = .error failure ↔
      (shared.run loader (.htmlThemes code options')).1 = .error failure := by
  rw [h.run_htmlThemes hready, h.run_htmlThemes hready, hset, hlanguage]
  rcases bundle.resolveRoles options'.setThemes with failure' | roles
  · exact Iff.rfl
  · rcases bundle.resolveLanguage options'.language with failure' | pack
    · exact Iff.rfl
    · show answered _ _ = _ ↔ answered _ _ = _
      rw [answered, answered]
      split
      · exact iff_of_false (fun h ↦ by cases h) (fun h ↦ by cases h)
      · exact Iff.rfl

/-- The markup shows the roles, each with the name of its theme. -/
theorem Fits.run_htmlThemes_of_named (h : shared.Fits bundle className)
    (hready : shared.isInitialized = true ∨ loader.failures = 0)
    (hroles : bundle.resolveRoles options.setThemes = .ok roles)
    (hlanguage : bundle.resolveLanguage options.language = .ok pack)
    (hnamed : ∀ e ∈ roles, e.2.name ≠ "") :
    (shared.run loader (.htmlThemes code options)).1 = .ok (.html (Markup.element className
      (Engine.roleAttributes pack (.ofList (roles.map fun e ↦ (e.1, e.2.name)))
        options.defaultColor) code)) := by
  have hthemes : ∀ theme ∈ roles.map Prod.snd, theme.name ≠ "" := List.forall_mem_map.2 hnamed
  rw [h.run_htmlThemes hready, hroles, hlanguage]
  exact if_pos hthemes

/-- Ascending roles are in their order in the markup. -/
theorem element_of_ascending (hroles : Ascending roles) (defaultColor : Option String) :
    Markup.element className (Engine.roleAttributes pack
        (.ofList (roles.map fun e ↦ (e.1, e.2.name))) defaultColor) code =
      "<pre class=\"fake" ++ className.elim "" (" " ++ ·) ++ "\" data-lang=\"" ++
        pack.shownName ++ "\" data-themes=\"" ++
          " ".intercalate (roles.map fun e ↦ e.1 ++ ":" ++ e.2.name) ++ "\"" ++
            defaultColor.elim "" (fun role ↦ " data-default=\"" ++ role ++ "\"") ++ "><code>" ++
              Markup.escape code ++ "</code></pre>" := by
  have hascending : Ascending (roles.map fun e ↦ (e.1, e.2.name)) := List.pairwise_map.2 hroles
  have htable : Table.ofList (roles.map fun e ↦ (e.1, e.2.name)) = ⟨_, hascending⟩ :=
    Table.ofList_toList ⟨_, hascending⟩
  rw [Markup.element_roles, htable, List.map_map]
  rfl

/-! ### Calls with settings -/

variable {language : LanguageReference} {settings others : List RoleSetting}
  {color color' : Option String}

theorem sameEffects_withRoles (loader : Loader) (hsame : SameRoles settings others) :
    (shared.run loader (.withRoles code language settings color)).2 =
        (shared.run loader (.withRoles code language others color')).2 ∧
      shared.runEvents (.withRoles code language settings color) =
        shared.runEvents (.withRoles code language others color') :=
  sameEffects_htmlThemes loader (RoleOptions.built_language.trans RoleOptions.built_language.symm)
    (RoleOptions.setThemes_built_eq hsame color color')

/-- Settings of the same roles make the same call. -/
theorem run_withRoles_eq (hsame : SameRoles settings others) :
    shared.run loader (.withRoles code language settings color) =
      shared.run loader (.withRoles code language others color) := by
  have hprepare : shared.bundle.prepare (.withRoles code language settings color) =
      shared.bundle.prepare (.withRoles code language others color) := by
    simp only [Action.withRoles, Bundle.prepare, RoleOptions.setThemes_built_eq hsame color color,
      RoleOptions.built_language, RoleOptions.built_defaultColor]
  rw [run, run, hprepare]

/-- With all its themes there, a call shows its roles and adds the names of their themes. -/
theorem Fits.run_withRoles (h : shared.Fits bundle className)
    (hready : shared.isInitialized = true ∨ loader.failures = 0)
    (hroles : bundle.resolveRoles (RoleOptions.built language settings none).setThemes = .ok roles)
    (hlanguage : bundle.resolveLanguage language = .ok pack)
    (hnamed : ∀ e ∈ roles, e.2.name ≠ "") :
    ∃ (later : Shared) (rest : Loader),
      (∀ name, name ∈ later.loadedThemes ↔
        name ∈ shared.loadedThemes ∨ ∃ e ∈ roles, e.2.name = name) ∧
      ∀ color, shared.run loader (.withRoles code language settings color) =
        (.ok (.html (Markup.element className (Engine.roleAttributes pack
          (.ofList (roles.map fun e ↦ (e.1, e.2.name))) color) code)), later, rest) := by
  obtain rfl := h.bundle_eq
  have hself : SameRoles settings settings := fun _ _ ↦ Iff.rfl
  have hown (color : Option String) : shared.bundle.resolveLanguage
      (RoleOptions.built language settings color).language = .ok pack := by
    rw [RoleOptions.built_language, hlanguage]
  obtain ⟨job, hprepare, hrequest⟩ :
      ∃ job, shared.bundle.prepare (.withRoles code language settings none) = .ok job ∧
        job.request = Bundle.inlineRequest (roles.map Prod.snd) pack :=
    ⟨_, bind_eq_ok_iff.2 ⟨roles, hroles, bind_eq_ok_iff.2 ⟨pack, hown none, rfl⟩⟩, rfl⟩
  refine ⟨(shared.run loader (.withRoles code language settings none)).2.1,
    (shared.run loader (.withRoles code language settings none)).2.2, fun name ↦ ?_,
    fun color ↦ Prod.ext ?_ (sameEffects_withRoles loader hself).1⟩
  · have hresolve : shared.bundle.resolve job.request = .ok ⟨roles.map Prod.snd, [pack]⟩ := by
      rw [hrequest, Bundle.resolve_inlineRequest]
    rw [run_snd_eq_ensure hprepare,
      mem_loadedThemes_ensure hready hresolve (List.forall_mem_map.2 hnamed)]
    simp only [List.mem_map, exists_exists_and_eq_and]
  · rw [← RoleOptions.setThemes_built_eq hself color none] at hroles
    rw [Action.withRoles, h.run_htmlThemes_of_named hready hroles (hown color) hnamed,
      RoleOptions.built_defaultColor]

/-- **Rendering uses exactly the roles that have a theme.** Take a state that calls can lead to, in
which the engine is there or no creation failure is due, a language, and settings of roles.

* If the language is there, and for every role that is set its theme, with a name, then the call
  succeeds. The markup is a text with one entry for each of these roles, in their order, with the
  name of its theme, and the names of these themes are added to those of the engine, and no others.
* No theme is looked up but those of the roles that are set.
* Settings that set the same roles make the same call: other roles have no part in it.
* The default colour has no part in it either, whatever it names, but for its own attribute. -/
theorem rendering_uses_the_set_roles (hhistory : History bundle className shared)
    (hready : shared.isInitialized = true ∨ loader.failures = 0) (language : LanguageReference)
    (settings : List RoleSetting) (code : String) :
    (∀ pack, bundle.resolveLanguage language = .ok pack →
      (∀ role r, SetTo settings role r →
        ∃ theme, bundle.resolveTheme r = .ok theme ∧ theme.name ≠ "") →
      ∃ (roles : List (String × Theme)) (later : Shared) (rest : Loader),
        Ascending roles ∧
        (∀ role theme, (role, theme) ∈ roles ↔
          ∃ r, SetTo settings role r ∧ bundle.resolveTheme r = .ok theme) ∧
        (∀ name, name ∈ later.loadedThemes ↔
          name ∈ shared.loadedThemes ∨ ∃ e ∈ roles, e.2.name = name) ∧
        ∀ color, shared.run loader (.withRoles code language settings color) =
          (.ok (.html ("<pre class=\"fake" ++ className.elim "" (" " ++ ·) ++ "\" data-lang=\"" ++
            pack.shownName ++ "\" data-themes=\"" ++
              " ".intercalate (roles.map fun e ↦ e.1 ++ ":" ++ e.2.name) ++ "\"" ++
                color.elim "" (fun role ↦ " data-default=\"" ++ role ++ "\"") ++ "><code>" ++
                  Markup.escape code ++ "</code></pre>")), later, rest)) ∧
    (∀ color id, .note (.resolving .theme id) ∈
        shared.runEvents (.withRoles code language settings color) →
      ∃ role, SetTo settings role (.bundled id)) ∧
    (∀ others color, SameRoles settings others →
      shared.run loader (.withRoles code language settings color) =
        shared.run loader (.withRoles code language others color) ∧
      shared.runEvents (.withRoles code language settings color) =
        shared.runEvents (.withRoles code language others color)) ∧
    ∀ color color',
      (shared.run loader (.withRoles code language settings color)).2 =
        (shared.run loader (.withRoles code language settings color')).2 ∧
      shared.runEvents (.withRoles code language settings color) =
        shared.runEvents (.withRoles code language settings color') ∧
      ∀ failure, (shared.run loader (.withRoles code language settings color)).1 = .error failure ↔
        (shared.run loader (.withRoles code language settings color')).1 = .error failure := by
  have hfits := hhistory.fits
  refine ⟨fun pack hlanguage hthemes ↦ ?_, fun color id hevent ↦ ?_, fun others color hsame ↦
    ⟨run_withRoles_eq hsame, (sameEffects_withRoles loader hsame).2⟩, fun color color' ↦ ?_⟩
  · obtain ⟨roles, hroles⟩ : ∃ roles,
        bundle.resolveRoles (RoleOptions.built language settings none).setThemes = .ok roles :=
      Bundle.exists_resolveRoles fun role r hset ↦
        (hthemes role r (RoleOptions.mem_setThemes_built.1 hset)).imp fun _ htheme ↦ htheme.1
    have hmem : ∀ role theme, (role, theme) ∈ roles ↔
        ∃ r, SetTo settings role r ∧ bundle.resolveTheme r = .ok theme := fun role theme ↦ by
      simp only [Bundle.mem_of_resolveRoles hroles, RoleOptions.mem_setThemes_built]
    have hnamed : ∀ e ∈ roles, e.2.name ≠ "" := fun ⟨role, theme⟩ he ↦ by
      obtain ⟨r, hset, htheme⟩ := (hmem role theme).1 he
      obtain ⟨theme', htheme', hname⟩ := hthemes role r hset
      cases htheme.symm.trans htheme'
      exact hname
    obtain ⟨later, rest, hadded, hrun⟩ := hfits.run_withRoles hready hroles hlanguage hnamed
    have hascending : Ascending roles :=
      Bundle.ascending_of_resolveRoles hroles (RoleOptions.ascending_setThemes _)
    refine ⟨roles, later, rest, hascending, hmem, hadded, fun color ↦ ?_⟩
    rw [hrun color, element_of_ascending hascending]
  · obtain ⟨role, hset⟩ := resolving_mem_runEvents hevent
    exact ⟨role, RoleOptions.mem_setThemes_built.1 hset⟩
  · have hself : SameRoles settings settings := fun _ _ ↦ Iff.rfl
    obtain ⟨hlater, hevents⟩ := sameEffects_withRoles loader hself
    exact ⟨hlater, hevents, hfits.run_htmlThemes_eq_error_iff hready
      (RoleOptions.built_language.trans RoleOptions.built_language.symm)
      (RoleOptions.setThemes_built_eq hself color color')⟩

/-- One role is set to a theme that is missing and then to another one, and one to a theme that is
missing and then to an id that asks for nothing. There is an engine, so it does not matter that the
next creation would fail. -/
theorem rendering_uses_the_set_roles_of_overwriting :
    ∃ (bundle : Bundle) (shared later : Shared) (rest : Loader) (dusk : ThemeReference),
      History bundle none shared ∧ shared.loadedThemes = ["night"] ∧
      shared.run ⟨1, 1⟩ (.withRoles "x" .plaintext [.theme "light" (.bundled "missing"),
          .themes [("light", some (.bundled "day")), ("dim", some (.bundled "missing")),
            ("old", none), ("dark", some dusk)], .theme "dim" (.bundled " ")] (some "dim")) =
        (.ok (.html <| "<pre class=\"fake\" data-lang=\"plaintext\" " ++
          "data-themes=\"dark:dusk light:day\" data-default=\"dim\"><code>x</code></pre>"),
          later, rest) ∧
      (∀ name, name ∈ later.loadedThemes ↔ name = "night" ∨ name = "dusk" ∨ name = "day") := by
  let dusk : Theme := { Sample.day with name := "dusk" }
  let bundle := Bundle.empty.addTheme Sample.day
  let settings : List RoleSetting := [.theme "light" (.bundled "missing"),
    .themes [("light", some (.bundled "day")), ("dim", some (.bundled "missing")), ("old", none),
      ("dark", some (.inline dusk))], .theme "dim" (.bundled " ")]
  let shared := ((ofBundle bundle none).run .fresh
    (.get ⟨[.inline { Sample.day with name := "night" }], []⟩)).2.1
  have hhistory : History bundle none shared := .call _ _ .new
  have hready : shared.isInitialized = true ∨ (⟨1, 1⟩ : Loader).failures = 0 := Or.inl rfl
  have hset : (RoleOptions.built .plaintext settings none).setThemes =
      [("dark", .inline dusk), ("light", .bundled "day")] := by decide +kernel
  have hSetTo (role : String) (r : ThemeReference) : SetTo settings role r ↔
      (role, r) ∈ [("dark", .inline dusk), ("light", .bundled "day")] := by
    rw [← hset, RoleOptions.mem_setThemes_built]
  have hday : bundle.resolveTheme (.bundled "day") = .ok Sample.day := by decide +kernel
  obtain ⟨roles, later, rest, hascending, hroles, hadded, hrun⟩ :=
    (rendering_uses_the_set_roles hhistory hready .plaintext settings "x").1 .plaintext rfl
      fun role r hr ↦ by
        simp only [hSetTo, List.mem_cons, List.not_mem_nil, or_false, Prod.mk.injEq] at hr
        rcases hr with ⟨-, rfl⟩ | ⟨-, rfl⟩
        · exact ⟨dusk, rfl, by decide⟩
        · exact ⟨Sample.day, hday, by decide⟩
  have hsorted : Ascending [("dark", dusk), ("light", Sample.day)] := by
    unfold Ascending
    decide +kernel
  obtain rfl : roles = [("dark", dusk), ("light", Sample.day)] := by
    refine Table.eq_of_ascending hascending hsorted ?_
    rintro ⟨role, theme⟩
    simp only [hroles, hSetTo, List.mem_cons, List.not_mem_nil, or_false, Prod.mk.injEq]
    constructor
    · rintro ⟨r, ⟨rfl, rfl⟩ | ⟨rfl, rfl⟩, htheme⟩
      · exact Or.inl ⟨rfl, (Except.ok.inj htheme).symm⟩
      · exact Or.inr ⟨rfl, Except.ok.inj (htheme.symm.trans hday)⟩
    · rintro (⟨rfl, rfl⟩ | ⟨rfl, rfl⟩)
      · exact ⟨_, Or.inl ⟨rfl, rfl⟩, rfl⟩
      · exact ⟨_, Or.inr ⟨rfl, rfl⟩, hday⟩
  have hnight : shared.loadedThemes = ["night"] := by decide +kernel
  refine ⟨bundle, shared, later, rest, .inline dusk, hhistory, hnight, ?_, fun name ↦ ?_⟩
  · refine (hrun (some "dim")).trans ?_
    exact congrArg (fun markup ↦ (Except.ok (Answer.html markup), later, rest)) (by decide +kernel)
  · rw [hadded, hnight]
    simp [eq_comm, dusk, Sample.day]

end Shared

end HighlightBundle
