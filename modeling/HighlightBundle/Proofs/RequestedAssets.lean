import HighlightBundle.Proofs.AssetSequences

/-!
# What a request asks for

A request is a matter of references, and what it asks for is a matter of a bundle. In a bundle in
which every reference stands for something, `Request.assetsIn` are the assets of a request: the
themes of the references that are not blank, and the packs of all languages, each at the place of
its reference. Resolving gives exactly these (`resolve_of_hasAll`), so what is said of a request in
the following modules is said in terms of the lists `themesIn` and `definitionsIn`, and references
that ask for nothing do not occur.

Engines look for the last of several definitions with a key. Whether there is one, and that it is
one of the list, is all that is needed of the search: `isSome_lastWithKey_iff` and
`mem_of_lastWithKey`, and the same for themes.
-/

namespace HighlightBundle

namespace Request

/-- The themes that a request asks for. -/
def themesIn (request : Request) (bundle : Bundle) : List Theme :=
  request.withoutBlank.themes.filterMap fun r ↦ (bundle.resolveTheme r).toOption

/-- The packs that a request asks for, the empty ones of plain text included. -/
def packsIn (request : Request) (bundle : Bundle) : List LanguagePack :=
  request.languages.filterMap fun r ↦ (bundle.resolveLanguage r).toOption

/-- The definitions of languages that a request asks for. -/
def definitionsIn (request : Request) (bundle : Bundle) : List Language :=
  (request.packsIn bundle).flatMap LanguagePack.languages

/-- Everything that a request asks for. -/
def assetsIn (request : Request) (bundle : Bundle) : Assets :=
  ⟨request.themesIn bundle, request.packsIn bundle⟩

variable {bundle : Bundle} {request : Request} {theme : Theme}

/-- A theme is asked for by a reference that is not blank. -/
theorem mem_themesIn : theme ∈ request.themesIn bundle ↔
    ∃ r ∈ request.themes, r.isBlank = false ∧ bundle.resolveTheme r = .ok theme := by
  simp only [themesIn, withoutBlank, List.mem_filterMap, List.mem_filter, toOption_eq_some_iff,
    Bool.not_eq_true', and_assoc]

/-- **Where every reference stands for something, a request resolves to what it asks for.** -/
theorem resolve_of_hasAll (hall : bundle.HasAll request.withoutBlank) :
    bundle.resolve request = .ok (request.assetsIn bundle) := by
  obtain ⟨assets, hlookUp⟩ := Bundle.hasAll_iff.1 hall
  obtain ⟨hthemes, hpacks⟩ := Bundle.resolve_eq_ok_iff.1 hlookUp
  have hassets : request.assetsIn bundle = assets := by
    rw [assetsIn, themesIn, packsIn, filterMap_of_mapM_eq_ok hpacks]
    exact congrArg (Assets.mk · assets.packs) (filterMap_of_mapM_eq_ok hthemes)
  exact hassets ▸ hlookUp

/-- No theme is asked for when all references to themes are blank. -/
theorem themesIn_eq_nil_iff (hall : bundle.HasAll request.withoutBlank) :
    request.themesIn bundle = [] ↔ ∀ r ∈ request.themes, r.isBlank = true := by
  constructor
  · intro hnil r hr
    rcases hblank : r.isBlank with - | -
    · have hneeded : r ∈ request.withoutBlank.themes :=
        List.mem_filter.2 ⟨hr, by rw [hblank]; rfl⟩
      obtain ⟨theme, htheme⟩ := Bundle.hasTheme_iff.1 (hall.1 r hneeded)
      have hmem : theme ∈ request.themesIn bundle := mem_themesIn.2 ⟨r, hr, hblank, htheme⟩
      exact absurd (hnil ▸ hmem) List.not_mem_nil
    · rfl
  · intro hblank
    refine List.eq_nil_iff_forall_not_mem.2 fun theme htheme ↦ ?_
    obtain ⟨r, hr, hnot, -⟩ := mem_themesIn.1 htheme
    exact Bool.false_ne_true (hnot.symm.trans (hblank r hr))

/-- No pack is asked for only when no language is. -/
theorem packsIn_eq_nil_iff (hall : bundle.HasAll request.withoutBlank) :
    request.packsIn bundle = [] ↔ request.languages = [] := by
  constructor
  · intro hnil
    refine List.eq_nil_iff_forall_not_mem.2 fun r hr ↦ ?_
    obtain ⟨pack, hpack⟩ := Bundle.hasLanguage_iff.1 (hall.2 r hr)
    have hmem : pack ∈ request.packsIn bundle :=
      List.mem_filterMap.2 ⟨r, hr, toOption_eq_some_iff.2 hpack⟩
    exact List.not_mem_nil (hnil ▸ hmem)
  · intro hnil
    rw [packsIn, hnil, List.filterMap_nil]

end Request

/-! ### What the search from the end finds -/

section

variable {key name : String} {definitions : List Language} {last : Language}
  {themes : List Theme} {found : Theme}

/-- There is a last definition with a key if there is one with it. -/
theorem isSome_lastWithKey_iff : (lastWithKey key definitions).isSome = true ↔
    ∃ language ∈ definitions, key ∈ language.keys := by
  simp only [lastWithKey, List.find?_isSome, List.mem_reverse, decide_eq_true_eq,
    Language.mem_keys_iff]

theorem mem_of_lastWithKey (h : lastWithKey key definitions = some last) :
    last ∈ definitions ∧ key ∈ last.keys := by
  rw [lastWithKey] at h
  have hkey := List.find?_some h
  exact ⟨List.mem_reverse.1 (List.mem_of_find?_eq_some h),
    Language.mem_keys_iff.2 (of_decide_eq_true hkey)⟩

/-- There is a last theme of a name if there is one of it, and it is a name. -/
theorem isSome_lastNamed_iff : (lastNamed name themes).isSome = true ↔
    ∃ theme ∈ themes, theme.name = name ∧ theme.name ≠ "" := by
  simp only [lastNamed, List.find?_isSome, List.mem_reverse, decide_eq_true_eq]

/-- Where all themes have a name, there is a last one of each name. -/
theorem isSome_lastNamed_iff_of_named (hnamed : ∀ theme ∈ themes, theme.name ≠ "") :
    (lastNamed name themes).isSome = true ↔ ∃ theme ∈ themes, theme.name = name := by
  rw [isSome_lastNamed_iff]
  exact exists_congr fun theme ↦ and_congr_right fun htheme ↦ and_iff_left (hnamed theme htheme)

theorem mem_of_lastNamed (h : lastNamed name themes = some found) :
    found ∈ themes ∧ found.name = name := by
  rw [lastNamed] at h
  have hname := List.find?_some h
  exact ⟨List.mem_reverse.1 (List.mem_of_find?_eq_some h), (of_decide_eq_true hname).1⟩

/-- A name is loaded if a theme stands under it. -/
theorem Engine.mem_loadedThemes_iff {engine : Engine} :
    name ∈ engine.loadedThemes ↔ (engine.themes.get? name).isSome = true := by
  simp only [loadedThemes, Table.keys, List.mem_map, Prod.exists, Option.isSome_iff_exists,
    ← Table.mem_toList_iff, exists_and_right, exists_eq_right]

end

end HighlightBundle
