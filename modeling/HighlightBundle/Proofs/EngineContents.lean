import HighlightBundle.Highlighter
import HighlightBundle.Proofs.TableLookup

/-!
# What an engine knows

Loading is seen through two tables, and most of what has to be said about them does not ask which
definition a key stands for, only whether there is one:

* `Engine.Knows` says that the assets of a load are there, every theme under its name and every
  definition of every pack under its name and its aliases;
* `Engine.Extends` compares two states of one engine, the later of which has at least the keys of
  the earlier one.

Every operation of an engine extends it, whether it succeeds or not (`loadThemes_extends`,
`loadLanguages_extends`), so what is known stays known (`Knows.extends`).

A theme without a name is the one thing that a load can fail on. `registration` is the outcome of
the batch, and only its success makes all themes of the batch known.
-/

namespace HighlightBundle

namespace Engine

variable {engine later last : Engine} {assets : Assets} {themes : List Theme}
  {packs : List LanguagePack} {loader : Loader} {className : Option String}

/-! ### Known assets -/

/-- The name of every theme has an entry. -/
def KnowsThemes (engine : Engine) (themes : List Theme) : Prop :=
  ∀ theme ∈ themes, engine.themes.contains theme.name = true

/-- The name and the aliases of every definition of every pack have an entry. -/
def KnowsLanguages (engine : Engine) (packs : List LanguagePack) : Prop :=
  ∀ pack ∈ packs, ∀ language ∈ pack.languages, ∀ key ∈ language.keys,
    engine.hasLanguage key = true

/-- Everything that a request resolved to is there. -/
structure Knows (engine : Engine) (assets : Assets) : Prop where
  themes : engine.KnowsThemes assets.themes
  languages : engine.KnowsLanguages assets.packs

/-- The same engine at a later time: no key has been lost. -/
structure Extends (engine later : Engine) : Prop where
  serial : later.serial = engine.serial
  className : later.className = engine.className
  themes : ∀ name, engine.themes.contains name = true → later.themes.contains name = true
  languages : ∀ key, engine.hasLanguage key = true → later.hasLanguage key = true

theorem Extends.refl (engine : Engine) : engine.Extends engine :=
  ⟨rfl, rfl, fun _ h ↦ h, fun _ h ↦ h⟩

theorem Extends.trans (h : engine.Extends later) (h' : later.Extends last) :
    engine.Extends last where
  serial := h'.serial.trans h.serial
  className := h'.className.trans h.className
  themes name hname := h'.themes name (h.themes name hname)
  languages key hkey := h'.languages key (h.languages key hkey)

theorem KnowsThemes.extends (h : engine.KnowsThemes themes) (he : engine.Extends later) :
    later.KnowsThemes themes :=
  fun theme ht ↦ he.themes _ (h theme ht)

theorem KnowsLanguages.extends (h : engine.KnowsLanguages packs) (he : engine.Extends later) :
    later.KnowsLanguages packs :=
  fun pack hp language hl key hk ↦ he.languages _ (h pack hp language hl key hk)

/-- **What is known stays known.** -/
theorem Knows.extends (h : engine.Knows assets) (he : engine.Extends later) :
    later.Knows assets :=
  ⟨h.themes.extends he, h.languages.extends he⟩

/-! ### The outcome of a batch of themes -/

/-- A batch of themes succeeds exactly when all of them have a name. -/
theorem registration_eq_ok_iff :
    registration themes = .ok () ↔ ∀ theme ∈ themes, theme.name ≠ "" := by
  rw [registration]
  split
  · rename_i h
    obtain ⟨theme, ht, hname⟩ := List.any_eq_true.1 h
    refine iff_of_false (by simp) fun hall ↦ hall theme ht ?_
    exact String.isEmpty_iff.1 hname
  · rename_i h
    refine iff_of_true rfl fun theme ht hname ↦ h ?_
    exact List.any_eq_true.2 ⟨theme, ht, String.isEmpty_iff.2 hname⟩

/-- A batch of themes fails when one of them has no name. -/
theorem registration_eq_error_iff :
    registration themes = .error .unnamedTheme ↔ ∃ theme ∈ themes, theme.name = "" := by
  rw [registration]
  split
  · rename_i h
    obtain ⟨theme, ht, hname⟩ := List.any_eq_true.1 h
    exact iff_of_true rfl ⟨theme, ht, String.isEmpty_iff.1 hname⟩
  · rename_i h
    refine iff_of_false nofun ?_
    rintro ⟨theme, ht, hname⟩
    exact h (List.any_eq_true.2 ⟨theme, ht, String.isEmpty_iff.2 hname⟩)

/-- A batch of themes fails in one way. -/
theorem registration_eq_error {failure : EngineFailure} (h : registration themes = .error failure) :
    failure = .unnamedTheme := by
  rw [registration] at h
  split at h
  · exact (Except.error.inj h).symm
  · exact absurd h (by simp)

/-! ### Registering -/

/-- The entries of a list of packs are its definitions, each under its keys. -/
theorem mem_languageEntries {key : String} {language : Language} :
    (key, language) ∈ languageEntries packs ↔
      ∃ pack ∈ packs, language ∈ pack.languages ∧ key ∈ language.keys := by
  simp only [languageEntries, List.mem_flatMap, List.mem_map, Prod.mk.injEq]
  constructor
  · rintro ⟨pack, hp, l, hl, k, hk, rfl, rfl⟩
    exact ⟨pack, hp, hl, hk⟩
  · rintro ⟨pack, hp, hl, hk⟩
    exact ⟨pack, hp, language, hl, key, hk, rfl, rfl⟩

/-- The entries of a list of themes are those with a name, each under it. -/
theorem mem_themeEntries {name : String} {theme : Theme} :
    (name, theme) ∈ themeEntries themes ↔ theme ∈ themes ∧ theme.name ≠ "" ∧ theme.name = name := by
  simp only [themeEntries, List.mem_map, List.mem_filter, Prod.mk.injEq]
  constructor
  · rintro ⟨t, ⟨ht, hname⟩, rfl, rfl⟩
    exact ⟨ht, fun h ↦ by simp [h] at hname, rfl⟩
  · rintro ⟨ht, hname, rfl⟩
    exact ⟨theme, ⟨ht, by simpa using hname⟩, rfl, rfl⟩

theorem registerLanguages_extends (engine : Engine) (packs : List LanguagePack) :
    engine.Extends (engine.registerLanguages packs) :=
  ⟨rfl, rfl, fun _ h ↦ h, fun _ h ↦ Table.contains_insertAll_of_contains h⟩

theorem registerThemes_extends (engine : Engine) (themes : List Theme) :
    engine.Extends (engine.registerThemes themes) :=
  ⟨rfl, rfl, fun _ h ↦ Table.contains_insertAll_of_contains h, fun _ h ↦ h⟩

/-- Registered definitions are known. -/
theorem registerLanguages_knows (engine : Engine) (packs : List LanguagePack) :
    (engine.registerLanguages packs).KnowsLanguages packs := by
  intro pack hp language hl key hk
  refine Table.contains_insertAll.2 (Or.inl (List.mem_map.2 ⟨(key, language), ?_, rfl⟩))
  exact mem_languageEntries.2 ⟨pack, hp, hl, hk⟩

/-- Registered themes are known, if none of them is without a name. -/
theorem registerThemes_knows (engine : Engine) (h : registration themes = .ok ()) :
    (engine.registerThemes themes).KnowsThemes themes := by
  intro theme ht
  refine Table.contains_insertAll.2 (Or.inl (List.mem_map.2 ⟨(theme.name, theme), ?_, rfl⟩))
  exact mem_themeEntries.2 ⟨ht, registration_eq_ok_iff.1 h theme ht, rfl⟩

/-! ### Loading -/

theorem loadThemes_extends (engine : Engine) (themes : List Theme) :
    engine.Extends (engine.loadThemes themes).2 :=
  ⟨rfl, rfl, (registerThemes_extends engine themes).themes, fun _ h ↦ h⟩

theorem loadLanguages_extends (engine : Engine) (packs : List LanguagePack) :
    engine.Extends (engine.loadLanguages packs) :=
  ⟨rfl, rfl, fun _ h ↦ h, (registerLanguages_extends engine packs).languages⟩

theorem loadThemes_knows (engine : Engine) (h : registration themes = .ok ()) :
    (engine.loadThemes themes).2.KnowsThemes themes :=
  registerThemes_knows engine h

theorem loadLanguages_knows (engine : Engine) (packs : List LanguagePack) :
    (engine.loadLanguages packs).KnowsLanguages packs :=
  registerLanguages_knows engine packs

/-! ### Building -/

/-- The engine that a creation with that number builds, if it builds one. -/
def stocked (serial : Nat) (className : Option String) (assets : Assets) : Engine :=
  ((blank serial className).registerLanguages assets.packs).registerThemes assets.themes

theorem stocked_knows (serial : Nat) (h : registration assets.themes = .ok ()) :
    (stocked serial className assets).Knows assets where
  themes := registerThemes_knows _ h
  languages := (registerLanguages_knows _ _).extends (registerThemes_extends _ _)

/-- A failure that is due is used up, whatever was asked for. -/
theorem build_of_pos (h : 0 < loader.failures) : build loader assets className =
    (.error .creationFailed, { loader with failures := loader.failures - 1 }) := by
  rw [build, if_pos h]

/-- When no failure is due, the themes decide. -/
theorem build_of_eq_zero (h : loader.failures = 0) : build loader assets className =
    ((registration assets.themes).map fun _ ↦ stocked loader.creations className assets,
      loader) := by
  rw [build, if_neg (by omega)]
  rfl

end Engine

end HighlightBundle
