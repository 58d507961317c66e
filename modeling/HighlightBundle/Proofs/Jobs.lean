import HighlightBundle.Proofs.EngineContents
import HighlightBundle.Proofs.MayFail
import HighlightBundle.Shared.Basic

/-!
# What a call asks for and what it renders with

A call becomes a job, and the request of the job becomes assets; `Bundle.Asks` holds both steps
together, because everything that happens to a call on its way happens with the same assets.

Rendering uses names, and they are the names of the assets: a rendering call resolves its own
references first and then asks for the definitions that it found (`resolve_inlineRequest`), so what
it asks for and what it renders with cannot differ. That is `Asks.run_eq_ok`: with an engine that
knows the assets of a call, rendering does not fail.
-/

namespace HighlightBundle

namespace Bundle

variable {bundle : Bundle} {action : Action} {job : Job} {assets : Assets} {engine : Engine}

/-! ### Asking for definitions that are at hand -/

/-- Definitions resolve to themselves, in every bundle. -/
theorem resolve_inlineRequest (themes : List Theme) (pack : LanguagePack) :
    bundle.resolve (inlineRequest themes pack) = .ok ⟨themes, [pack]⟩ := by
  have hfilter : (themes.map ThemeReference.inline).filter (fun r ↦ !r.isBlank) =
      themes.map .inline := by
    refine List.filter_eq_self.2 fun r hr ↦ ?_
    obtain ⟨theme, -, rfl⟩ := List.mem_map.1 hr
    rfl
  have hthemes : bundle.resolveThemes (themes.map .inline) = .ok themes := by
    have hall := mapM_map_eq_ok (f := bundle.resolveTheme) (g := .inline) (k := id)
      (fun _ ↦ rfl) themes
    rw [resolveThemes, hfilter, hall, List.map_id]
  rw [resolve, inlineRequest, hthemes]
  rfl

/-- A request resolves when its themes and its languages do. -/
theorem resolve_eq_ok_iff {request : Request} : bundle.resolve request = .ok assets ↔
    bundle.resolveThemes request.themes = .ok assets.themes ∧
      bundle.resolveLanguages request.languages = .ok assets.packs := by
  rw [resolve, bind_eq_ok_iff]
  constructor
  · rintro ⟨themes, hthemes, h⟩
    obtain ⟨packs, hpacks, h⟩ := bind_eq_ok_iff.1 h
    obtain rfl : Assets.mk themes packs = assets := Except.ok.inj h
    exact ⟨hthemes, hpacks⟩
  · rintro ⟨hthemes, hpacks⟩
    exact ⟨assets.themes, hthemes, bind_eq_ok_iff.2 ⟨assets.packs, hpacks, rfl⟩⟩

/-- Only a missing id can make resolving fail. -/
theorem resolveTheme_eq_error {reference : ThemeReference} {failure : Failure}
    (h : bundle.resolveTheme reference = .error failure) :
    ∃ id, reference = .bundled id ∧ failure = .notBundled .theme id := by
  cases reference with
  | inline theme => exact absurd h nofun
  | bundled id =>
    rw [resolveTheme] at h
    split at h
    · exact absurd h nofun
    · exact ⟨id, rfl, (Except.error.inj h).symm⟩

theorem resolveLanguage_eq_error {reference : LanguageReference} {failure : Failure}
    (h : bundle.resolveLanguage reference = .error failure) :
    ∃ id, reference = .bundled id ∧ failure = .notBundled .language id := by
  cases reference with
  | plaintext | inline pack => exact absurd h nofun
  | bundled id =>
    rw [resolveLanguage] at h
    split at h
    · exact absurd h nofun
    · split at h
      · exact absurd h nofun
      · exact ⟨id, rfl, (Except.error.inj h).symm⟩

/-- So a request fails with a missing id. -/
theorem resolve_eq_error {request : Request} {failure : Failure}
    (h : bundle.resolve request = .error failure) : ∃ kind id, failure = .notBundled kind id := by
  rw [resolve] at h
  rcases bind_eq_error_iff.1 h with hthemes | ⟨themes, -, h⟩
  · obtain ⟨reference, -, href⟩ := exists_mem_of_mapM_eq_error hthemes
    obtain ⟨id, -, rfl⟩ := resolveTheme_eq_error href
    exact ⟨.theme, id, rfl⟩
  · rcases bind_eq_error_iff.1 h with hlanguages | ⟨packs, -, h⟩
    · obtain ⟨reference, -, href⟩ := exists_mem_of_mapM_eq_error hlanguages
      obtain ⟨id, -, rfl⟩ := resolveLanguage_eq_error href
      exact ⟨.language, id, rfl⟩
    · exact absurd h nofun

/-! ### Jobs -/

/-- The job of a call, and the assets that its request resolves to. -/
structure Asks (bundle : Bundle) (action : Action) (job : Job) (assets : Assets) : Prop where
  prepare : bundle.prepare action = .ok job
  resolve : bundle.resolve job.request = .ok assets

/-- A call asks for one thing. -/
theorem Asks.unique {job' : Job} {assets' : Assets} (h : bundle.Asks action job assets)
    (h' : bundle.Asks action job' assets') : job = job' ∧ assets = assets' := by
  obtain rfl : job = job' := Except.ok.inj (h.prepare.symm.trans h'.prepare)
  exact ⟨rfl, Except.ok.inj (h.resolve.symm.trans h'.resolve)⟩

end Bundle

/-- The names that a rendering uses are those of the pack and of some of the themes. -/
def Rendering.Names (themes : List Theme) (pack : LanguagePack) : Rendering → Prop
  | .nothing => False
  | .html _ language theme | .tokens _ language theme =>
    language = pack.name ∧ ∃ t ∈ themes, theme = t.name
  | .htmlThemes _ language names _ =>
    language = pack.name ∧ ∀ e ∈ names.toList, ∃ t ∈ themes, e.2 = t.name

namespace Bundle

variable {bundle : Bundle} {action : Action} {job : Job} {assets : Assets} {engine : Engine}

theorem renderJob_eq_ok {language : LanguageReference} {theme : ThemeReference}
    {rendering : String → String → Rendering}
    (h : bundle.renderJob language theme rendering = .ok job) :
    ∃ t pack, bundle.resolveTheme theme = .ok t ∧ bundle.resolveLanguage language = .ok pack ∧
      job = ⟨inlineRequest [t] pack, rendering pack.name t.name⟩ := by
  obtain ⟨t, ht, h⟩ := bind_eq_ok_iff.1 h
  obtain ⟨pack, hp, h⟩ := bind_eq_ok_iff.1 h
  exact ⟨t, pack, ht, hp, (Except.ok.inj h).symm⟩

theorem renderJob_eq_error {language : LanguageReference} {theme : ThemeReference}
    {rendering : String → String → Rendering} {failure : Failure}
    (h : bundle.renderJob language theme rendering = .error failure) :
    ∃ kind id, failure = .notBundled kind id := by
  rcases bind_eq_error_iff.1 h with htheme | ⟨t, -, h⟩
  · obtain ⟨id, -, rfl⟩ := resolveTheme_eq_error htheme
    exact ⟨.theme, id, rfl⟩
  · rcases bind_eq_error_iff.1 h with hlanguage | ⟨pack, -, h⟩
    · obtain ⟨id, -, rfl⟩ := resolveLanguage_eq_error hlanguage
      exact ⟨.language, id, rfl⟩
    · exact absurd h nofun

/-- Preparing a call fails with a missing id. -/
theorem prepare_eq_error {failure : Failure} (h : bundle.prepare action = .error failure) :
    ∃ kind id, failure = .notBundled kind id := by
  cases action with
  | get request => exact absurd h nofun
  | html code language theme | tokens code language theme => exact renderJob_eq_error h
  | htmlThemes code options =>
    rcases bind_eq_error_iff.1 h with hroles | ⟨roles, -, h⟩
    · obtain ⟨role, -, hrole⟩ := exists_mem_of_mapM_eq_error hroles
      rcases bind_eq_error_iff.1 hrole with htheme | ⟨t, -, h⟩
      · obtain ⟨id, -, rfl⟩ := resolveTheme_eq_error htheme
        exact ⟨.theme, id, rfl⟩
      · exact absurd h nofun
    · rcases bind_eq_error_iff.1 h with hlanguage | ⟨pack, -, h⟩
      · obtain ⟨id, -, rfl⟩ := resolveLanguage_eq_error hlanguage
        exact ⟨.language, id, rfl⟩
      · exact absurd h nofun

/-- A call that renders asks for definitions and names them; any other call renders nothing. -/
theorem names_of_prepare (h : bundle.prepare action = .ok job) :
    (∃ request, action = .get request ∧ job = ⟨request, .nothing⟩) ∨
      ∃ themes pack, job.request = inlineRequest themes pack ∧ job.rendering.Names themes pack := by
  cases action with
  | get request => exact Or.inl ⟨request, rfl, (Except.ok.inj h).symm⟩
  | html code language theme =>
    obtain ⟨t, pack, -, -, rfl⟩ := renderJob_eq_ok h
    exact Or.inr ⟨[t], pack, rfl, rfl, t, List.mem_cons_self, rfl⟩
  | tokens code language theme =>
    obtain ⟨t, pack, -, -, rfl⟩ := renderJob_eq_ok h
    exact Or.inr ⟨[t], pack, rfl, rfl, t, List.mem_cons_self, rfl⟩
  | htmlThemes code options =>
    obtain ⟨roles, -, h⟩ := bind_eq_ok_iff.1 h
    obtain ⟨pack, -, h⟩ := bind_eq_ok_iff.1 h
    obtain rfl := Except.ok.inj h
    refine Or.inr ⟨roles.map Prod.snd, pack, rfl, rfl, fun e he ↦ ?_⟩
    obtain ⟨r, hr, rfl⟩ := List.mem_map.1 (Table.mem_of_mem_toList_ofList he)
    exact ⟨r.2, List.mem_map_of_mem hr, rfl⟩

end Bundle

namespace Engine

variable {engine : Engine} {pack : LanguagePack} {themes : List Theme}

/-! ### Rendering with what is known -/

/-- The name of a known pack stands for a language, also when it stands for plain text. -/
theorem exists_languageName (h : engine.KnowsLanguages [pack]) :
    ∃ name, engine.languageName pack.name = .ok name := by
  rw [languageName]
  split
  · exact ⟨_, rfl⟩
  · rename_i hplain
    rw [LanguagePack.name] at hplain ⊢
    split at hplain
    · rename_i language hmain
      have hkey : engine.hasLanguage language.name = true :=
        h pack List.mem_cons_self language (List.mem_of_getLast? hmain) _
          (List.mem_append_right _ List.mem_cons_self)
      obtain ⟨found, hfound⟩ := Table.contains_iff_exists.1 hkey
      exact ⟨found.name, by rw [hfound]⟩
    · exact absurd (by decide +kernel) hplain

/-- A known theme is found. -/
theorem exists_theme {theme : Theme} (h : engine.KnowsThemes themes) (ht : theme ∈ themes) :
    ∃ found, engine.theme theme.name = .ok found := by
  obtain ⟨found, hfound⟩ := Table.contains_iff_exists.1 (h theme ht)
  exact ⟨found, by rw [Engine.theme, hfound]⟩

/-- So every role gets a name. -/
theorem exists_roleNames : ∀ {roles : List (String × String)},
    (∀ e ∈ roles, ∃ found, engine.theme e.2 = .ok found) →
      ∃ names, engine.roleNames roles = .ok names
  | [], _ => ⟨[], rfl⟩
  | e :: roles, h => by
    obtain ⟨found, hfound⟩ := h e List.mem_cons_self
    obtain ⟨names, hnames⟩ :=
      exists_roleNames fun e' he' ↦ h e' (List.mem_cons_of_mem e he')
    refine ⟨(e.1, found.name) :: names, ?_⟩
    rw [roleNames, List.mapM_cons, hfound]
    exact bind_eq_ok_iff.2 ⟨_, rfl, bind_eq_ok_iff.2 ⟨names, hnames, rfl⟩⟩

end Engine

/-- Rendering with names of known assets does not fail. -/
theorem Rendering.run_eq_ok {engine : Engine} {rendering : Rendering} {themes : List Theme}
    {pack : LanguagePack} (h : engine.Knows ⟨themes, [pack]⟩) (hr : rendering.Names themes pack) :
    ∃ answer, rendering.run engine = .ok answer := by
  obtain ⟨name, hname⟩ := Engine.exists_languageName h.languages
  cases rendering with
  | nothing => exact hr.elim
  | html code language theme =>
    obtain ⟨rfl, t, ht, rfl⟩ := hr
    obtain ⟨found, hfound⟩ := Engine.exists_theme h.themes ht
    exact ⟨_, by rw [run, Engine.html, hname, hfound]; rfl⟩
  | tokens code language theme =>
    obtain ⟨rfl, t, ht, rfl⟩ := hr
    obtain ⟨found, hfound⟩ := Engine.exists_theme h.themes ht
    exact ⟨_, by rw [run, Engine.tokens, hname, hfound]; rfl⟩
  | htmlThemes code language names color =>
    obtain ⟨rfl, hall⟩ := hr
    obtain ⟨roles, hroles⟩ : ∃ roles, engine.roleNames names.toList = .ok roles := by
      refine Engine.exists_roleNames fun e he ↦ ?_
      obtain ⟨t, ht, heq⟩ := hall e he
      exact heq ▸ Engine.exists_theme h.themes ht
    obtain ⟨markup, hmarkup⟩ :
        ∃ markup, engine.htmlThemes code pack.name names color = .ok markup :=
      ⟨_, bind_eq_ok_iff.2 ⟨name, hname, bind_eq_ok_iff.2 ⟨roles, hroles, rfl⟩⟩⟩
    exact ⟨_, by rw [run, hmarkup]; rfl⟩

/-- **What a call asked for is what it renders with**, so with an engine that knows it, rendering
does not fail. -/
theorem Bundle.Asks.run_eq_ok {bundle : Bundle} {action : Action} {job : Job} {assets : Assets}
    {engine : Engine} (h : bundle.Asks action job assets) (hk : engine.Knows assets) :
    ∃ answer, job.rendering.run engine = .ok answer := by
  rcases names_of_prepare h.prepare with ⟨request, -, rfl⟩ | ⟨themes, pack, hrequest, hnames⟩
  · exact ⟨_, rfl⟩
  · have hassets : Assets.mk themes [pack] = assets :=
      Except.ok.inj ((resolve_inlineRequest themes pack).symm.trans (hrequest ▸ h.resolve))
    exact Rendering.run_eq_ok (hassets ▸ hk) hnames

/-! ### Assets for examples -/

namespace Sample

/-- A light theme without colours. -/
def day : Theme := ⟨"day", none, .light, .empty⟩

/-- A theme that cannot be registered. -/
def nameless : Theme := ⟨"", none, .dark, .empty⟩

/-- A language with two aliases. -/
def javascript : Language := ⟨"javascript", "source.js", none, ["js", "node"], [], .empty⟩

/-- Another language, whose name and alias are aliases of the first. -/
def terse : Language := ⟨"js", "source.terse", none, ["node"], [], .empty⟩

end Sample

end HighlightBundle
