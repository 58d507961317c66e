import HighlightBundle.Files
import HighlightBundle.Proofs.FirstOfName
import HighlightBundle.Proofs.TableLookup

/-!
# Edits of a bundle

There are five ways to change a bundle: a language or a theme is added, as a definition or from a
file, and a key gets one more name. An `Edit` is one of them with its arguments, and
`Bundle.ofEdits` is where edits lead from the bundle without anything. Nothing is asked of them:
names, aliases and embedded names may collide in any way, a language may be added again, and it may
embed itself or one that embeds it.

What holds of the tables nevertheless is `Bundle.Tidy`, which every edit keeps (`Tidy.apply`), and
no edit loses a key (`within_apply`). That packs have no repetitions is not a matter of what the
table was before: a pack is made of the first definition of each name, whatever list it is made
from (`nodup_packFor`).

The pack of an added language is described without the recursion that makes it: `firstOccurrences`
says of every place of a list whether the definition there is the first of its name.
-/

namespace HighlightBundle

/-- A change of a bundle. Each file is looked for in files of its own. -/
inductive Edit where
  | language (added : Language)
  | languageFile (files : Files) (path : String)
  | newAlias (key newKey : String)
  | theme (added : Theme)
  | themeFile (files : Files) (path : String)

namespace Edit

/-- The answer of an edit that may fail, and the bundle after it. -/
def settle (bundle : Bundle) : Except Failure Bundle → Except Failure Unit × Bundle
  | .ok after => (.ok (), after)
  | .error failure => (.error failure, bundle)

/-- The answer of the edit, and the bundle after it. -/
def run (bundle : Bundle) : Edit → Except Failure Unit × Bundle
  | language added => (.ok (), bundle.addLanguage added)
  | languageFile files path => settle bundle (bundle.addLanguageFrom files path)
  | newAlias key newKey => (.ok (), bundle.addAlias key newKey)
  | theme added => (.ok (), bundle.addTheme added)
  | themeFile files path => settle bundle (bundle.addThemeFrom files path)

/-- The bundle after the edit. -/
def apply (bundle : Bundle) (edit : Edit) : Bundle :=
  (edit.run bundle).2

end Edit

namespace Bundle

/-- The bundle that the edits lead to. -/
def ofEdits (edits : List Edit) : Bundle :=
  edits.foldl Edit.apply .empty

/-- What holds of the tables of a bundle, however it was made. -/
structure Tidy (bundle : Bundle) : Prop where
  /-- No key stands for plain text. -/
  nonempty : ∀ {key pack}, bundle.languages.get? key = some pack → pack.languages ≠ []
  /-- A pack has one definition of each name. -/
  nodup : ∀ {key pack}, bundle.languages.get? key = some pack →
    (pack.languages.map Language.name).Nodup
  /-- A theme is under its own name. -/
  ownName : ∀ {key theme}, bundle.themes.get? key = some theme → theme.name = key

/-- Every key of the one bundle is a key of the other. -/
structure Within (before after : Bundle) : Prop where
  languages : ∀ {key}, before.containsLanguage key = true → after.containsLanguage key = true
  themes : ∀ {key}, before.containsTheme key = true → after.containsTheme key = true

/-- The definitions of a list that are the first ones of their name, in order, without those that
have the given name. -/
def firstOccurrences (own : String) (whole : List Language) : List Language :=
  (whole.zipIdx.filter fun e : Language × Nat ↦ decide <|
    e.1.name ≠ own ∧ ∀ earlier ∈ whole.take e.2, earlier.name ≠ e.1.name).map Prod.fst

/-- What is there when a language has been added: its name and its aliases stand for one pack, the
language behind the first definitions of the packs that it embeds, and all else is as it was. -/
structure Added (before : Bundle) (language : Language) (after : Bundle) : Prop where
  pack : ∃ pack : LanguagePack,
    (∀ key, key = language.name ∨ key ∈ language.aliases → after.languages.get? key = some pack) ∧
    pack.languages = firstOccurrences language.name
      ((language.embedded.filterMap before.languages.get?).flatMap LanguagePack.languages) ++
        [language]
  others : ∀ {key}, key ≠ language.name → key ∉ language.aliases →
    after.languages.get? key = before.languages.get? key
  themes : after.themes = before.themes

/-- What is there when a key has got one more name: the new key stands for what the key stood for.
If that was nothing, nothing has changed, and all else is as it was in any case. -/
structure AliasAdded (before : Bundle) (key newKey : String) (after : Bundle) : Prop where
  pack : ∀ {pack}, before.languages.get? key = some pack →
    after.languages.get? newKey = some pack
  missing : before.languages.get? key = none → after = before
  others : ∀ {other}, other ≠ newKey → after.languages.get? other = before.languages.get? other
  themes : after.themes = before.themes

/-- What is there when a theme has been added: it is under its name, and all else is as it was. -/
structure ThemeAdded (before : Bundle) (theme : Theme) (after : Bundle) : Prop where
  own : after.themes.get? theme.name = some theme
  others : ∀ {other}, other ≠ theme.name → after.themes.get? other = before.themes.get? other
  languages : after.languages = before.languages

variable {bundle before after last : Bundle} {language : Language} {pack : LanguagePack}
  {theme : Theme} {key newKey : String} {edits : List Edit} {edit : Edit}

theorem ofEdits_concat (edits : List Edit) (edit : Edit) :
    ofEdits (edits ++ [edit]) = edit.apply (ofEdits edits) :=
  List.foldl_append

/-! ### What is in the tables after an addition -/

theorem get?_addLanguage (bundle : Bundle) (language : Language) (key : String) :
    (bundle.addLanguage language).languages.get? key =
      if key ∈ language.keys then some (bundle.packFor language)
      else bundle.languages.get? key :=
  Table.get?_insertAll_map_const language.keys

theorem get?_addTheme (bundle : Bundle) (theme : Theme) (key : String) :
    (bundle.addTheme theme).themes.get? key =
      if key = theme.name then some theme else bundle.themes.get? key :=
  Table.get?_insert

/-- What the key stands for is under the new key, and if it stands for nothing, what was there. -/
theorem get?_addAlias (bundle : Bundle) (key newKey other : String) :
    (bundle.addAlias key newKey).languages.get? other =
      if other = newKey then (bundle.languages.get? key).or (bundle.languages.get? other)
      else bundle.languages.get? other := by
  rw [addAlias]
  rcases bundle.languages.get? key with - | pack
  · rw [Option.none_or, ite_self]
  · rw [Option.some_or]
    exact Table.get?_insert

/-- What is found when a key has got one more name was there before, under one of the two. -/
theorem get?_addAlias_eq_some (h : (bundle.addAlias key newKey).languages.get? other = some pack) :
    bundle.languages.get? other = some pack ∨
      other = newKey ∧ bundle.languages.get? key = some pack := by
  rw [get?_addAlias] at h
  split at h
  · next hother =>
    rcases Option.or_eq_some_iff.1 h with hkey | ⟨-, hbefore⟩
    · exact Or.inr ⟨hother, hkey⟩
    · exact Or.inl hbefore
  · exact Or.inl h

theorem themes_addAlias (bundle : Bundle) (key newKey : String) :
    (bundle.addAlias key newKey).themes = bundle.themes := by
  rw [addAlias]
  split <;> rfl

/-! ### The pack of an added language -/

/-- The definitions of the packs under some keys, one pack after the other. -/
theorem flatMap_definitionsAt (bundle : Bundle) (names : List String) :
    names.flatMap bundle.definitionsAt =
      (names.filterMap bundle.languages.get?).flatMap LanguagePack.languages := by
  induction names with
  | nil => rfl
  | cons name rest ih =>
    rw [List.flatMap_cons, ih, definitionsAt, List.filterMap_cons]
    rcases bundle.languages.get? name with - | pack
    · rfl
    · rw [List.flatMap_cons]

/-- Behind a front part whose names have been seen, the first definition of a name is one that has
no other before it in the whole list. -/
theorem firstOfName_eq_filter {own : String} {front rest : List Language} {seen : List String}
    (hseen : ∀ name, name ∈ seen ↔ name = own ∨ ∃ x ∈ front, x.name = name) :
    firstOfName seen rest = ((rest.zipIdx front.length).filter fun e : Language × Nat ↦ decide <|
      e.1.name ≠ own ∧ ∀ earlier ∈ (front ++ rest).take e.2, earlier.name ≠ e.1.name).map
        Prod.fst := by
  induction rest generalizing front seen with
  | nil => rfl
  | cons x rest ih =>
    have hfront : (front ++ x :: rest).take front.length = front := List.take_left
    have hmem : x.name ∈ seen ↔ ¬(x.name ≠ own ∧ ∀ earlier ∈ front, earlier.name ≠ x.name) := by
      rw [hseen]
      by_cases hown : x.name = own <;> simp [hown]
    have hlength : (front ++ [x]).length = front.length + 1 := List.length_append
    have hwhole : (front ++ [x]) ++ rest = front ++ x :: rest := List.append_assoc ..
    have hconcat : ∀ name, (∃ y ∈ front ++ [x], y.name = name) ↔
        x.name = name ∨ ∃ y ∈ front, y.name = name := by
      intro name
      simp [or_and_right, exists_or, or_comm]
    rw [List.zipIdx_cons]
    by_cases hx : x.name ∈ seen
    · have hnext : ∀ name, name ∈ seen ↔ name = own ∨ ∃ y ∈ front ++ [x], y.name = name := by
        intro name
        rw [hconcat, or_left_comm, ← hseen]
        exact ⟨Or.inr, Or.rec (fun heq ↦ heq ▸ hx) id⟩
      have hrest := ih hnext
      rw [hlength, hwhole] at hrest
      rw [firstOfName_cons_of_mem hx, List.filter_cons_of_neg, hrest]
      rw [hfront, decide_eq_true_eq]
      exact hmem.1 hx
    · have hnext : ∀ name, name ∈ x.name :: seen ↔
          name = own ∨ ∃ y ∈ front ++ [x], y.name = name := by
        intro name
        rw [hconcat, or_left_comm, ← hseen, List.mem_cons, eq_comm]
      have hrest := ih hnext
      rw [hlength, hwhole] at hrest
      rw [firstOfName_cons_of_not_mem hx, List.filter_cons_of_pos, List.map_cons, hrest]
      rw [hfront, decide_eq_true_eq]
      exact Decidable.not_not.1 fun hnot ↦ hx (hmem.2 hnot)

/-- **The first of each name, place by place.** -/
theorem firstOfName_eq_firstOccurrences (own : String) (whole : List Language) :
    firstOfName [own] whole = firstOccurrences own whole := by
  have hseen : ∀ name, name ∈ [own] ↔ name = own ∨ ∃ x ∈ ([] : List Language), x.name = name := by
    simp
  exact firstOfName_eq_filter hseen

theorem nodup_packFor (bundle : Bundle) (language : Language) :
    ((bundle.packFor language).languages.map Language.name).Nodup := by
  have hfirst := nodup_firstOfName [language.name]
    (language.embedded.flatMap bundle.definitionsAt)
  show ((firstOfName [language.name] _ ++ [language]).map Language.name).Nodup
  rw [List.map_append, List.nodup_append]
  refine ⟨hfirst, List.pairwise_singleton _ _, ?_⟩
  rintro name hname other hother rfl
  obtain ⟨x, hx, rfl⟩ := List.mem_map.1 hname
  -- the name of the language itself counts as seen
  have hnot : x.name ∉ [language.name] := (mem_of_mem_firstOfName hx).2
  exact hnot hother

/-- **What adding a language does.** -/
theorem added_addLanguage (bundle : Bundle) (language : Language) :
    Added bundle language (bundle.addLanguage language) where
  pack := by
    refine ⟨bundle.packFor language, fun key hkey ↦ ?_, ?_⟩
    · rw [get?_addLanguage, if_pos (Language.mem_keys_iff.2 hkey)]
    · rw [packFor, firstOfName_eq_firstOccurrences, flatMap_definitionsAt]
  others {key} hname haliases := by
    have hkey : key ∉ language.keys := fun h ↦ (Language.mem_keys_iff.1 h).elim hname haliases
    rw [get?_addLanguage, if_neg hkey]
  themes := rfl

/-- **What one more name for a key does.** -/
theorem aliasAdded_addAlias (bundle : Bundle) (key newKey : String) :
    AliasAdded bundle key newKey (bundle.addAlias key newKey) where
  pack hkey := by rw [get?_addAlias, if_pos rfl, hkey, Option.some_or]
  missing hkey := by rw [addAlias, hkey]
  others hother := by rw [get?_addAlias, if_neg hother]
  themes := bundle.themes_addAlias key newKey

/-- **What adding a theme does.** -/
theorem themeAdded_addTheme (bundle : Bundle) (theme : Theme) :
    ThemeAdded bundle theme (bundle.addTheme theme) where
  own := by rw [get?_addTheme, if_pos rfl]
  others hother := by rw [get?_addTheme, if_neg hother]
  languages := rfl

/-- A cycle: a language is added again when one that embeds it has taken its name. -/
example :
    let a : Language := ⟨"a", "source.a", none, [], ["b", "a"], .empty⟩
    let b : Language := ⟨"b", "source.b", none, ["a"], ["a"], .empty⟩
    (ofEdits [.language a, .language b]).definitionsAt "a" = [a, b] ∧
      (ofEdits [.language a, .language b, .language a]).definitionsAt "a" = [b, a] := by
  decide +kernel

/-! ### What every edit keeps -/

theorem tidy_empty : empty.Tidy :=
  ⟨nofun, nofun, nofun⟩

theorem Tidy.addLanguage (h : bundle.Tidy) (language : Language) :
    (bundle.addLanguage language).Tidy where
  nonempty hget := by
    rw [get?_addLanguage] at hget
    split at hget
    · obtain rfl := Option.some.inj hget
      exact List.append_ne_nil_of_right_ne_nil _ (List.cons_ne_nil language [])
    · exact h.nonempty hget
  nodup hget := by
    rw [get?_addLanguage] at hget
    split at hget
    · obtain rfl := Option.some.inj hget
      exact bundle.nodup_packFor language
    · exact h.nodup hget
  ownName hget := h.ownName hget

theorem Tidy.addAlias (h : bundle.Tidy) (key newKey : String) :
    (bundle.addAlias key newKey).Tidy where
  nonempty hget := (get?_addAlias_eq_some hget).elim h.nonempty fun hother ↦ h.nonempty hother.2
  nodup hget := (get?_addAlias_eq_some hget).elim h.nodup fun hother ↦ h.nodup hother.2
  ownName hget := by
    rw [themes_addAlias] at hget
    exact h.ownName hget

theorem Tidy.addTheme (h : bundle.Tidy) (theme : Theme) : (bundle.addTheme theme).Tidy where
  nonempty hget := h.nonempty hget
  nodup hget := h.nodup hget
  ownName hget := by
    rw [get?_addTheme] at hget
    split at hget
    · rename_i hkey
      rw [← Option.some.inj hget, hkey]
    · exact h.ownName hget

/-- A definition file is an edit by its definition, or no edit at all. -/
theorem apply_languageFile_cases (bundle : Bundle) (files : Files) (path : String) :
    (∃ language, Language.ofFile files path = .ok language ∧
      (Edit.languageFile files path).run bundle = (.ok (), bundle.addLanguage language)) ∨
    ∃ failure, Language.ofFile files path = .error failure ∧
      (Edit.languageFile files path).run bundle = (.error failure, bundle) := by
  rw [Edit.run, addLanguageFrom]
  rcases Language.ofFile files path with failure | language
  · exact Or.inr ⟨failure, rfl, rfl⟩
  · exact Or.inl ⟨language, rfl, rfl⟩

theorem apply_themeFile_cases (bundle : Bundle) (files : Files) (path : String) :
    (∃ theme, Theme.ofFile files path = .ok theme ∧
      (Edit.themeFile files path).run bundle = (.ok (), bundle.addTheme theme)) ∨
    ∃ failure, Theme.ofFile files path = .error failure ∧
      (Edit.themeFile files path).run bundle = (.error failure, bundle) := by
  rw [Edit.run, addThemeFrom]
  rcases Theme.ofFile files path with failure | theme
  · exact Or.inr ⟨failure, rfl, rfl⟩
  · exact Or.inl ⟨theme, rfl, rfl⟩

/-- Whatever is kept by adding definitions and aliases is kept by every edit. -/
theorem apply_induction {P : Bundle → Prop} (h : P bundle)
    (hlanguage : ∀ language, P (bundle.addLanguage language))
    (halias : ∀ key newKey, P (bundle.addAlias key newKey))
    (htheme : ∀ theme, P (bundle.addTheme theme)) (edit : Edit) : P (edit.apply bundle) := by
  cases edit with
  | language added => exact hlanguage added
  | newAlias key newKey => exact halias key newKey
  | theme added => exact htheme added
  | languageFile files path =>
    rw [Edit.apply]
    rcases apply_languageFile_cases bundle files path with ⟨language, -, hrun⟩ | ⟨failure, -, hrun⟩
    · rw [hrun]
      exact hlanguage language
    · rw [hrun]
      exact h
  | themeFile files path =>
    rw [Edit.apply]
    rcases apply_themeFile_cases bundle files path with ⟨theme, -, hrun⟩ | ⟨failure, -, hrun⟩
    · rw [hrun]
      exact htheme theme
    · rw [hrun]
      exact h

/-- **Every edit keeps the tables tidy.** -/
theorem Tidy.apply (h : bundle.Tidy) (edit : Edit) : (edit.apply bundle).Tidy :=
  apply_induction h h.addLanguage h.addAlias h.addTheme edit

theorem tidy_ofEdits (edits : List Edit) : (ofEdits edits).Tidy :=
  List.foldlRecOn edits _ tidy_empty fun _ h edit _ ↦ h.apply edit

theorem Within.refl (bundle : Bundle) : bundle.Within bundle :=
  ⟨id, id⟩

theorem Within.trans (h : before.Within after) (h' : after.Within last) : before.Within last :=
  ⟨fun hkey ↦ h'.languages (h.languages hkey), fun hkey ↦ h'.themes (h.themes hkey)⟩

/-- **No edit loses a key.** -/
theorem within_apply (bundle : Bundle) (edit : Edit) : bundle.Within (edit.apply bundle) := by
  refine apply_induction (Within.refl bundle) (fun language ↦ ?_) (fun key newKey ↦ ?_)
    (fun theme ↦ ?_) edit
  · exact ⟨Table.contains_insertAll_of_contains, id⟩
  · rw [addAlias]
    split
    · exact ⟨fun hkey ↦ Table.contains_insert.2 (Or.inr hkey), id⟩
    · exact Within.refl bundle
  · exact ⟨id, fun hkey ↦ Table.contains_insert.2 (Or.inr hkey)⟩

theorem within_ofEdits_append (edits more : List Edit) :
    (ofEdits edits).Within (ofEdits (edits ++ more)) := by
  have hfold : ofEdits (edits ++ more) = more.foldl Edit.apply (ofEdits edits) := List.foldl_append
  rw [hfold]
  exact List.foldlRecOn more _ (Within.refl _) fun after h edit _ ↦
    h.trans (within_apply after edit)

/-- **What edits do to the tables of a bundle.** After any edits from the bundle without anything,
with keys and embedded names that may collide in any way,

* the tables are `Tidy`, and whatever edits follow, no key is lost;
* adding a language does what `Added` says, one more name for a key what `AliasAdded` says, and
  adding a theme what `ThemeAdded` says, and nothing else;
* a definition file is an addition of the definition in it, and where there is none to be read, the
  failure is that of the file and the bundle is as it was. -/
theorem edits_leave_tidy_tables (edits : List Edit) :
    (ofEdits edits).Tidy ∧ (∀ more, (ofEdits edits).Within (ofEdits (edits ++ more))) ∧
    (∀ language, (ofEdits edits).Added language ((ofEdits edits).addLanguage language)) ∧
    (∀ key newKey,
      (ofEdits edits).AliasAdded key newKey ((ofEdits edits).addAlias key newKey)) ∧
    (∀ theme, (ofEdits edits).ThemeAdded theme ((ofEdits edits).addTheme theme)) ∧
    (∀ files path,
      (∃ language, Language.ofFile files path = .ok language ∧
        (Edit.languageFile files path).run (ofEdits edits) =
          (.ok (), (ofEdits edits).addLanguage language)) ∨
      ∃ failure, Language.ofFile files path = .error failure ∧
        (Edit.languageFile files path).run (ofEdits edits) = (.error failure, ofEdits edits)) ∧
    ∀ files path,
      (∃ theme, Theme.ofFile files path = .ok theme ∧
        (Edit.themeFile files path).run (ofEdits edits) =
          (.ok (), (ofEdits edits).addTheme theme)) ∨
      ∃ failure, Theme.ofFile files path = .error failure ∧
        (Edit.themeFile files path).run (ofEdits edits) = (.error failure, ofEdits edits) :=
  ⟨tidy_ofEdits edits, within_ofEdits_append edits, added_addLanguage _, aliasAdded_addAlias _,
    themeAdded_addTheme _, apply_languageFile_cases _, apply_themeFile_cases _⟩

end Bundle

end HighlightBundle
