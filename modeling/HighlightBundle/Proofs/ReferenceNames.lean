import Mathlib.Data.List.Induction
import HighlightBundle.Proofs.BundleEdits
import HighlightBundle.Proofs.CallsAlone
import HighlightBundle.Proofs.LoadedRendering

/-!
# The name of a reference, and the names that the engine has

A bundle and an engine name languages in two ways. The keys of a bundle are the names and the
aliases of its languages and whatever was made a key by hand; the keys of an engine are the names
and the aliases in the definitions that it was given, and nothing else reaches it. So code can be
rendered under the name of a reference exactly when that name asks for plain text or is declared by
a definition of the pack that the reference stands for (`LanguagePack.Declares`,
`Engine.html_stocked`).

Which keys of a bundle are declared is a matter of its edits. Adding a language makes keys of names
that it declares. Adding an alias by hand does not touch the definition, so its key stands for a
pack that may know nothing of it, until a language that declares the name is added over it. A key is
`Bundle.Redeclared` if that has happened after every alias by that name, and this is what makes the
names of references agree with those of the engine (`Bundle.declares_of_redeclared`). Without it
they may differ: the engine does not know the language by an alias that was added by hand.
-/

namespace HighlightBundle

/-- A definition of the pack has this name or this alias. -/
def LanguagePack.Declares (pack : LanguagePack) (name : String) : Prop :=
  ∃ language ∈ pack.languages, name ∈ language.keys

instance (pack : LanguagePack) (name : String) : Decidable (pack.Declares name) :=
  inferInstanceAs (Decidable (∃ language ∈ pack.languages, name ∈ language.keys))

/-- The language that an edit adds, if it adds one. -/
def Edit.added? : Edit → Option Language
  | language added => some added
  | languageFile files path => (Language.ofFile files path).toOption
  | newAlias _ _ | theme _ | themeFile _ _ => none

/-- Whenever an alias by this name was added by hand, a language that declares the name was added
later. -/
def Bundle.Redeclared (edits : List Edit) (name : String) : Prop :=
  ∀ before key after, edits = before ++ .newAlias key name :: after →
    ∃ edit ∈ after, ∃ language, edit.added? = some language ∧ name ∈ language.keys

namespace Engine

variable {serial : Nat} {className : Option String} {pack : LanguagePack} {own : Theme}
  {name : String}

/-- A new engine has the keys that its pack declares. -/
theorem hasLanguage_stocked_iff {themes : List Theme} :
    (stocked serial className ⟨themes, [pack]⟩).hasLanguage name = true ↔ pack.Declares name := by
  have hkeys : (stocked serial className ⟨themes, [pack]⟩).hasLanguage name = true ↔
      name ∈ (languageEntries [pack]).map Prod.fst ∨
        (Table.empty : Table Language).contains name = true := Table.contains_insertAll
  rw [hkeys, or_iff_left nofun]
  constructor
  · intro hname
    obtain ⟨⟨key, language⟩, hentry, rfl⟩ := List.mem_map.1 hname
    obtain ⟨_, hpack, hlanguage, hkey⟩ := mem_languageEntries.1 hentry
    obtain rfl := List.mem_singleton.1 hpack
    exact ⟨language, hlanguage, hkey⟩
  · rintro ⟨language, hlanguage, hkey⟩
    exact List.mem_map.2
      ⟨(name, language), mem_languageEntries.2 ⟨pack, List.mem_cons_self, hlanguage, hkey⟩, rfl⟩

/-- **Rendering with a new engine, under any name.** It works for plain text and for the names that
the pack declares; any other name is the failure. -/
theorem html_stocked (hname : own.name ≠ "") (name code : String) :
    ((∃ markup, (stocked serial className ⟨[own], [pack]⟩).html code name own.name = .ok markup) ↔
      isPlaintext name = true ∨ pack.Declares name) ∧
    (¬(isPlaintext name = true ∨ pack.Declares name) →
      (stocked serial className ⟨[own], [pack]⟩).html code name own.name =
        .error (.notLoaded .language name)) := by
  have htheme : (stocked serial className ⟨[own], [pack]⟩).theme own.name = .ok own :=
    (stocked_carries serial className ⟨[own], [pack]⟩).theme_self hname
  rw [html, htheme, languageName]
  by_cases hplain : isPlaintext name = true
  · rw [if_pos hplain]
    exact ⟨iff_of_true ⟨_, rfl⟩ (Or.inl hplain), fun h ↦ absurd (Or.inl hplain) h⟩
  · have hkeys : (stocked serial className ⟨[own], [pack]⟩).hasLanguage name = true ↔
        pack.Declares name := hasLanguage_stocked_iff
    rw [if_neg hplain, or_iff_right hplain, ← hkeys, hasLanguage, Table.contains]
    rcases (stocked serial className ⟨[own], [pack]⟩).languages.get? name with - | language
    · refine ⟨iff_of_false ?_ Bool.false_ne_true, fun _ ↦ rfl⟩
      rintro ⟨markup, hmarkup⟩
      cases hmarkup
    · exact ⟨iff_of_true ⟨_, rfl⟩ rfl, fun h ↦ absurd rfl h⟩

end Engine

namespace Bundle

variable {bundle : Bundle} {edits : List Edit} {edit : Edit} {name : String}
  {pack : LanguagePack}

/-! ### Where a key comes from -/

theorem declares_packFor (bundle : Bundle) {language : Language} (h : name ∈ language.keys) :
    (bundle.packFor language).Declares name :=
  ⟨language, List.mem_append_right _ (List.mem_singleton_self language), h⟩

/-- What is found after a language was added was found before, or is declared. -/
theorem get?_addLanguage_cases {language : Language}
    (hget : (bundle.addLanguage language).languages.get? name = some pack) :
    pack.Declares name ∨ name ∉ language.keys ∧ bundle.languages.get? name = some pack := by
  rw [get?_addLanguage] at hget
  split at hget
  · rename_i hkey
    obtain rfl := Option.some.inj hget
    exact Or.inl (bundle.declares_packFor hkey)
  · rename_i hkey
    exact Or.inr ⟨hkey, hget⟩

/-- **What an edit can do to a key**: it makes it a declared one, or gives it a pack by hand, or
leaves it alone, and then it adds no language that declares it. -/
theorem get?_apply_cases (hget : (edit.apply bundle).languages.get? name = some pack) :
    pack.Declares name ∨ (∃ key, edit = .newAlias key name) ∨
      bundle.languages.get? name = some pack ∧
        ∀ language, edit.added? = some language → name ∉ language.keys := by
  cases edit with
  | language added =>
    refine (get?_addLanguage_cases hget).imp_right fun ⟨hkey, hbefore⟩ ↦ Or.inr ⟨hbefore, ?_⟩
    intro language hadded
    obtain rfl := Option.some.inj hadded
    exact hkey
  | languageFile files path =>
    rcases apply_languageFile_cases bundle files path with ⟨added, hfile, hrun⟩ | ⟨_, hfile, hrun⟩
    · rw [Edit.apply, hrun] at hget
      refine (get?_addLanguage_cases hget).imp_right fun ⟨hkey, hbefore⟩ ↦ Or.inr ⟨hbefore, ?_⟩
      intro language hadded
      rw [Edit.added?, hfile] at hadded
      obtain rfl : added = language := Option.some.inj hadded
      exact hkey
    · rw [Edit.apply, hrun] at hget
      refine Or.inr (Or.inr ⟨hget, fun language hadded ↦ ?_⟩)
      rw [Edit.added?, hfile] at hadded
      cases hadded
  | newAlias key newKey =>
    rcases get?_addAlias_eq_some hget with hbefore | ⟨rfl, -⟩
    · exact Or.inr (Or.inr ⟨hbefore, fun _ hadded ↦ by cases hadded⟩)
    · exact Or.inr (Or.inl ⟨key, rfl⟩)
  | theme added => exact Or.inr (Or.inr ⟨hget, fun _ hadded ↦ by cases hadded⟩)
  | themeFile files path =>
    refine Or.inr (Or.inr ⟨?_, fun _ hadded ↦ by cases hadded⟩)
    rcases apply_themeFile_cases bundle files path with ⟨_, -, hrun⟩ | ⟨_, -, hrun⟩
    · rwa [Edit.apply, hrun] at hget
    · rwa [Edit.apply, hrun] at hget

/-- An edit that adds no language with this name has no part in it. -/
theorem Redeclared.of_concat (h : Redeclared (edits ++ [edit]) name)
    (hadded : ∀ language, edit.added? = some language → name ∉ language.keys) :
    Redeclared edits name := by
  intro before key after hsplit
  have hlonger : edits ++ [edit] = before ++ .newAlias key name :: (after ++ [edit]) := by
    rw [hsplit, List.append_assoc, List.cons_append]
  obtain ⟨later, hlater, language, hlanguage, hkey⟩ := h before key _ hlonger
  rcases List.mem_append.1 hlater with hmem | hmem
  · exact ⟨later, hmem, language, hlanguage, hkey⟩
  · obtain rfl := List.mem_singleton.1 hmem
    exact absurd hkey (hadded language hlanguage)

/-- The last edit does not add an alias by a name that is redeclared. -/
theorem Redeclared.ne_newAlias (h : Redeclared (edits ++ [edit]) name) (key : String) :
    edit ≠ .newAlias key name := by
  rintro rfl
  obtain ⟨_, hmem, -⟩ := h edits key [] rfl
  exact absurd hmem List.not_mem_nil

/-- **A redeclared key is declared by the pack under it.** -/
theorem declares_of_redeclared {edits : List Edit} (h : Redeclared edits name)
    (hget : (ofEdits edits).languages.get? name = some pack) : pack.Declares name := by
  -- from the last edit to the first: the one that made the entry is not an alias by hand
  induction edits using List.reverseRecOn with
  | nil => exact absurd hget nofun
  | append_singleton edits edit ih =>
    rw [ofEdits_concat] at hget
    rcases get?_apply_cases hget with hdeclares | ⟨key, hedit⟩ | ⟨hbefore, hadded⟩
    · exact hdeclares
    · exact absurd hedit (h.ne_newAlias key)
    · exact ih (h.of_concat hadded) hbefore

/-! ### References -/

/-- The name of a pack is declared by it, unless it is plain text. -/
theorem isPlaintext_or_declares_name (pack : LanguagePack) :
    isPlaintext pack.name = true ∨ pack.Declares pack.name := by
  rw [LanguagePack.name]
  rcases hmain : pack.main? with - | language
  · exact Or.inl (by decide +kernel)
  · refine Or.inr ⟨language, List.mem_of_getLast? hmain, ?_⟩
    exact List.mem_append_right _ (List.mem_singleton_self language.name)

/-- The name of a reference is declared by what it stands for, or asks for plain text, if it is not
one that was given to a pack by hand. -/
theorem isPlaintext_or_declares_reference {reference : LanguageReference}
    (hresolve : (ofEdits edits).resolveLanguage reference = .ok pack)
    (h : ∀ id, reference = .bundled id → Redeclared edits id) :
    isPlaintext reference.name = true ∨ pack.Declares reference.name := by
  cases reference with
  | plaintext => exact Or.inl (by decide +kernel)
  | inline given =>
    obtain rfl : given = pack := Except.ok.inj hresolve
    exact isPlaintext_or_declares_name given
  | bundled id =>
    rw [resolveLanguage] at hresolve
    split at hresolve
    · rename_i hplain
      exact Or.inl hplain
    · split at hresolve
      · rename_i found hget
        obtain rfl := Except.ok.inj hresolve
        exact Or.inr (declares_of_redeclared (h id rfl) hget)
      · cases hresolve

/-- **Under which names a loaded language can be rendered.** After any edits, a highlighter for one
language reference and one theme reference that resolve has an engine with which

* code can be rendered under the name of the reference exactly when the name asks for plain text or
  is declared by the pack that the reference stands for, and otherwise that name is the failure;
* so it can be, for every code, unless the reference is an id that was made an alias by hand and
  that no language added later declares;
* and under the name of the pack it always can. -/
theorem renders_by_declared_names {edits : List Edit} {reference : LanguageReference}
    {pack : LanguagePack} {themeReference : ThemeReference} {theme : Theme} {loader : Loader}
    (hlanguage : (ofEdits edits).resolveLanguage reference = .ok pack)
    (hblank : themeReference.isBlank = false)
    (htheme : (ofEdits edits).resolveTheme themeReference = .ok theme) (hname : theme.name ≠ "")
    (hfailures : loader.failures = 0) (className : Option String) :
    ∃ engine,
      Highlighter.create (ofEdits edits) loader ⟨[themeReference], [reference]⟩ className =
        (.ok ⟨ofEdits edits, engine⟩, loader.asked) ∧
      (∀ code, (∃ markup, engine.html code reference.name theme.name = .ok markup) ↔
        isPlaintext reference.name = true ∨ pack.Declares reference.name) ∧
      (∀ code, ¬(isPlaintext reference.name = true ∨ pack.Declares reference.name) →
        engine.html code reference.name theme.name =
          .error (.notLoaded .language reference.name)) ∧
      ((∀ id, reference = .bundled id → Redeclared edits id) →
        ∀ code, ∃ markup, engine.html code reference.name theme.name = .ok markup) ∧
      ∀ code, ∃ markup, engine.html code pack.name theme.name = .ok markup := by
  have hresolve : (ofEdits edits).resolve ⟨[themeReference], [reference]⟩ =
      .ok ⟨[theme], [pack]⟩ := by
    refine resolve_eq_ok_iff.2 ⟨?_, ?_⟩
    · rw [resolveThemes, List.filter_cons_of_pos (by rw [hblank]; rfl), List.filter_nil,
        List.mapM_cons, htheme]
      rfl
    · rw [resolveLanguages, List.mapM_cons, hlanguage]
      rfl
  have hregister : Engine.registration [theme] = .ok () :=
    Engine.registration_eq_ok_iff.2 fun t ht ↦ List.mem_singleton.1 ht ▸ hname
  have hcreate : Highlighter.create (ofEdits edits) loader ⟨[themeReference], [reference]⟩
      className = (.ok ⟨ofEdits edits,
        Engine.stocked (loader.creations + 1) className ⟨[theme], [pack]⟩⟩, loader.asked) := by
    rw [Highlighter.create, hresolve]
    simp only [Shared.create_of_eq_zero hfailures, hregister]
    rfl
  refine ⟨_, hcreate, fun code ↦ (Engine.html_stocked hname reference.name code).1,
    fun code ↦ (Engine.html_stocked hname reference.name code).2, fun h code ↦ ?_, fun code ↦ ?_⟩
  · exact (Engine.html_stocked hname reference.name code).1.2
      (isPlaintext_or_declares_reference hlanguage h)
  · exact (Engine.html_stocked hname pack.name code).1.2 (isPlaintext_or_declares_name pack)

/-- A language with an alias that was added by hand, and a theme. -/
def aliased : List Edit :=
  [.language Sample.javascript, .theme Sample.day, .newAlias "javascript" "ecmascript"]

/-- The alias that was added by hand resolves, and it is not a name that the engine has. -/
theorem renders_by_declared_names_of_newAlias :
    ∃ engine,
      Highlighter.create (ofEdits aliased) .fresh ⟨[.bundled "day"], [.bundled "ecmascript"]⟩ none =
        (.ok ⟨ofEdits aliased, engine⟩, Loader.fresh.asked) ∧
      (∀ code, engine.html code "ecmascript" "day" = .error (.notLoaded .language "ecmascript")) ∧
      ∀ code, ∃ markup, engine.html code "javascript" "day" = .ok markup := by
  have hlanguage : (ofEdits aliased).resolveLanguage (.bundled "ecmascript") =
      .ok (.single Sample.javascript) := by decide +kernel
  have htheme : (ofEdits aliased).resolveTheme (.bundled "day") = .ok Sample.day := by
    decide +kernel
  have hfailures : Loader.fresh.failures = 0 := rfl
  obtain ⟨engine, hcreate, -, hunknown, -, hpack⟩ :=
    renders_by_declared_names hlanguage (by decide +kernel) htheme (by decide) hfailures none
  exact ⟨engine, hcreate, fun code ↦ hunknown code (by decide +kernel), hpack⟩

/-- So the engine does not know every language by the name of the reference that it was asked for
by. -/
theorem not_forall_renders_by_reference_name : ¬∀ (edits : List Edit)
    (reference : LanguageReference) (pack : LanguagePack) (themeReference : ThemeReference)
    (theme : Theme) (highlighter : Highlighter) (code : String),
    (ofEdits edits).resolveLanguage reference = .ok pack → themeReference.isBlank = false →
      (ofEdits edits).resolveTheme themeReference = .ok theme → theme.name ≠ "" →
        (Highlighter.create (ofEdits edits) .fresh ⟨[themeReference], [reference]⟩ none).1 =
          .ok highlighter →
        ∃ markup, highlighter.engine.html code reference.name theme.name = .ok markup := by
  intro h
  let engine := Engine.stocked 1 none ⟨[Sample.day], [.single Sample.javascript]⟩
  obtain ⟨markup, hmarkup⟩ := h aliased (.bundled "ecmascript") (.single Sample.javascript)
    (.bundled "day") Sample.day ⟨ofEdits aliased, engine⟩ "x" (by decide +kernel)
    (by decide +kernel) (by decide +kernel) (by decide) (by decide +kernel)
  have hfails : (engine.html "x" "ecmascript" "day").toOption = none := by decide +kernel
  have hsome : (engine.html "x" "ecmascript" "day").toOption = some markup :=
    congrArg Except.toOption hmarkup
  exact absurd (hsome.symm.trans hfails) nofun

end Bundle

end HighlightBundle
