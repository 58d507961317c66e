import Mathlib.Data.List.Nodup
import HighlightBundle.Proofs.Listings
import HighlightBundle.Proofs.ReferenceNames

/-!
# Whether the order of a table can be seen in a listing

Where several keys are for languages of one name, a listing shows the one whose pack is met first.
So the order in which the table is gone through can be seen exactly if that makes a difference,
which is to say if what the keys are for has two definitions of one name. `Bundle.OneMainOfName`
says that it has not.

* Every definition that a key is for is shown in some order (`exists_order_of_isMain`), so two of
  one name are two listings.
* If there is one of each name, a listing has all of them in the order of their names, and nothing
  is left to the order of the table (`listLanguages_eq`).

The edits of a bundle do not promise this. What a key is for was added by one of them
(`mem_added_of_isMain`), so it holds if no language is added again with another definition. If one
is, the new definition takes over its own name and its own aliases, and an alias that only the old
one has is still for the old one. Themes are another matter: their keys are their names.
-/

namespace HighlightBundle.Bundle

/-- There is one definition of each name among those that the keys are for. -/
def OneMainOfName (bundle : Bundle) : Prop :=
  ∀ x y, bundle.IsMain x → bundle.IsMain y → x.name = y.name → x = y

variable {bundle : Bundle} {packs : List LanguagePack} {pack : LanguagePack}
  {language : Language} {edits : List Edit} {edit : Edit}

/-! ### Languages in two orders -/

section

variable {order order' : List (String × LanguagePack)}

theorem mem_mains_iff (horder : order.Perm bundle.languages.toList) :
    language ∈ (order.map Prod.snd).filterMap LanguagePack.main? ↔ bundle.IsMain language := by
  rw [List.mem_filterMap, isMain_iff horder]

/-- The definitions that the keys are for may be looked through in any order. -/
theorem oneMainOfName_iff (horder : order.Perm bundle.languages.toList) :
    bundle.OneMainOfName ↔ OneOfName ((order.map Prod.snd).filterMap LanguagePack.main?) := by
  constructor
  · intro h x hx y hy hname
    exact h x y ((mem_mains_iff horder).1 hx) ((mem_mains_iff horder).1 hy) hname
  · intro h x y hx hy hname
    exact h x ((mem_mains_iff horder).2 hx) y ((mem_mains_iff horder).2 hy) hname

instance (bundle : Bundle) : Decidable bundle.OneMainOfName :=
  decidable_of_iff _ (oneMainOfName_iff (.refl bundle.languages.toList)).symm

/-- If there is one definition of each name, a listing has everything that the keys are for. -/
theorem mem_listLanguages_iff_isMain (h : bundle.OneMainOfName)
    (horder : order.Perm bundle.languages.toList) :
    language ∈ listLanguages (order.map Prod.snd) ↔ bundle.IsMain language := by
  rw [mem_listLanguages_iff, mem_firstOfName_iff ((oneMainOfName_iff horder).1 h),
    mem_mains_iff horder, and_iff_left List.not_mem_nil]

/-- **With one definition of each name, the listing is the same in every order.** -/
theorem listLanguages_eq (h : bundle.OneMainOfName) (horder : order.Perm bundle.languages.toList)
    (horder' : order'.Perm bundle.languages.toList) :
    listLanguages (order.map Prod.snd) = listLanguages (order'.map Prod.snd) :=
  eq_of_pairwise_lt (ascending_listLanguages _) (ascending_listLanguages _) fun x ↦ by
    rw [mem_listLanguages_iff_isMain h horder, mem_listLanguages_iff_isMain h horder']

/-- What the first pack is for is listed. -/
theorem mem_listLanguages_cons (h : pack.main? = some language) :
    language ∈ listLanguages (pack :: packs) := by
  rw [mem_listLanguages_iff, List.filterMap_cons_some h,
    firstOfName_cons_of_not_mem List.not_mem_nil]
  exact List.mem_cons_self

/-- **Whatever a key is for is listed in some order**: one that begins with this key. -/
theorem exists_order_of_isMain (h : bundle.IsMain language) :
    ∃ order : List (String × LanguagePack), order.Perm bundle.languages.toList ∧
      language ∈ listLanguages (order.map Prod.snd) := by
  obtain ⟨key, pack, hget, hmain⟩ := h
  obtain ⟨before, after, hsplit⟩ := List.mem_iff_append.1 (Table.mem_toList_iff.2 hget)
  refine ⟨(key, pack) :: (before ++ after), ?_, mem_listLanguages_cons hmain⟩
  rw [hsplit]
  exact List.perm_middle.symm

/-- If the listing is the same in every order, there is one definition of each name. -/
theorem oneMainOfName_of_listLanguages_eq
    (h : ∀ order order' : List (String × LanguagePack), order.Perm bundle.languages.toList →
      order'.Perm bundle.languages.toList →
        listLanguages (order.map Prod.snd) = listLanguages (order'.map Prod.snd)) :
    bundle.OneMainOfName := by
  intro x y hx hy hname
  obtain ⟨order, horder, hlisted⟩ := exists_order_of_isMain hx
  obtain ⟨order', horder', hlisted'⟩ := exists_order_of_isMain hy
  rw [← h order order' horder horder'] at hlisted'
  -- one listing has both, and it has each name once
  exact List.inj_on_of_nodup_map (nodup_listLanguages _) hlisted hlisted' hname

end

/-! ### What edits make the keys stand for -/

/-- A language is what its own pack is for. -/
theorem getLast?_packFor (bundle : Bundle) (language : Language) :
    (bundle.packFor language).languages.getLast? = some language :=
  List.getLast?_concat

theorem isMain_addLanguage {added : Language} (h : (bundle.addLanguage added).IsMain language) :
    bundle.IsMain language ∨ added = language := by
  obtain ⟨key, pack, hget, hmain⟩ := h
  rw [get?_addLanguage] at hget
  split at hget
  · obtain rfl := Option.some.inj hget
    exact Or.inr (Option.some.inj ((getLast?_packFor bundle added).symm.trans hmain))
  · exact Or.inl ⟨key, pack, hget, hmain⟩

/-- **What a key is for after an edit** is what one was for before, or what the edit adds. -/
theorem isMain_apply (h : (edit.apply bundle).IsMain language) :
    bundle.IsMain language ∨ edit.added? = some language := by
  cases edit with
  | language added => exact (isMain_addLanguage h).imp_right (congrArg some)
  | languageFile files path =>
    rw [Edit.apply] at h
    rcases apply_languageFile_cases bundle files path with ⟨added, hfile, hrun⟩ | ⟨_, -, hrun⟩
    · rw [hrun] at h
      refine (isMain_addLanguage h).imp_right fun heq ↦ ?_
      rw [Edit.added?, hfile, heq]
      rfl
    · rw [hrun] at h
      exact Or.inl h
  | newAlias key newKey =>
    obtain ⟨other, pack, hget, hmain⟩ := h
    rcases get?_addAlias_eq_some hget with hget | ⟨-, hget⟩
    · exact Or.inl ⟨other, pack, hget, hmain⟩
    · exact Or.inl ⟨key, pack, hget, hmain⟩
  | theme added => exact Or.inl h
  | themeFile files path =>
    rw [Edit.apply] at h
    rcases apply_themeFile_cases bundle files path with ⟨_, -, hrun⟩ | ⟨_, -, hrun⟩
    · rw [hrun] at h
      exact Or.inl h
    · rw [hrun] at h
      exact Or.inl h

/-- **What a key is for was added.** -/
theorem mem_added_of_isMain {edits : List Edit} (h : (ofEdits edits).IsMain language) :
    language ∈ edits.filterMap Edit.added? := by
  induction edits using List.reverseRecOn with
  | nil =>
    obtain ⟨key, pack, hget, -⟩ := h
    cases hget
  | append_singleton edits edit ih =>
    rw [ofEdits_concat] at h
    rw [List.filterMap_append, List.mem_append]
    refine (isMain_apply h).imp ih fun hadded ↦ ?_
    rw [List.filterMap_cons_some hadded]
    exact List.mem_cons_self

/-- If no language is added with two definitions, the keys are for one of each name. -/
theorem oneMainOfName_of_added (h : OneOfName (edits.filterMap Edit.added?)) :
    (ofEdits edits).OneMainOfName :=
  fun x y hx hy hname ↦ h x (mem_added_of_isMain hx) y (mem_added_of_isMain hy) hname

/-! ### Themes in two orders -/

/-- **Where themes are under their own names, their listing is the same in every order.** -/
theorem listThemes_eq (h : bundle.Tidy) {order order' : List (String × Theme)}
    (horder : order.Perm bundle.themes.toList) (horder' : order'.Perm bundle.themes.toList) :
    listThemes (order.map Prod.snd) = listThemes (order'.map Prod.snd) := by
  have hkeys : bundle.themes.values.map Theme.name = bundle.themes.toList.map Prod.fst := by
    rw [Table.values, List.map_map]
    exact List.map_congr_left fun e he ↦ h.ownName (Table.mem_toList_iff.1 he)
  have hascending {some : List (String × Theme)} (hsome : some.Perm bundle.themes.toList) :
      ((listThemes (some.map Prod.snd)).map Theme.name).Pairwise (· < ·) := by
    have hlists : bundle.ListsThemes (listThemes (some.map Prod.snd)) := listsThemes hsome
    refine pairwise_lt_of_nodup hlists.ascending ?_
    rw [(hlists.values.map Theme.name).nodup_iff, hkeys]
    exact bundle.themes.nodup_keys
  refine eq_of_pairwise_lt (hascending horder) (hascending horder') fun x ↦ ?_
  rw [(listsThemes horder).values.mem_iff, (listsThemes horder').values.mem_iff]

/-! ### Both listings -/

/-- **When the order of the tables cannot be seen.** After any edits, among them languages that are
added again with other definitions,

* the listing of the languages is the same in every order exactly if the keys are for one definition
  of each name;
* which is so if no two languages of one name and different definitions were added;
* and the listing of the themes is the same in every order. -/
theorem listed_in_one_way_iff (edits : List Edit) :
    ((∀ order order' : List (String × LanguagePack),
        order.Perm (ofEdits edits).languages.toList →
          order'.Perm (ofEdits edits).languages.toList →
            listLanguages (order.map Prod.snd) = listLanguages (order'.map Prod.snd)) ↔
      (ofEdits edits).OneMainOfName) ∧
    (OneOfName (edits.filterMap Edit.added?) → (ofEdits edits).OneMainOfName) ∧
    ∀ order order' : List (String × Theme), order.Perm (ofEdits edits).themes.toList →
      order'.Perm (ofEdits edits).themes.toList →
        listThemes (order.map Prod.snd) = listThemes (order'.map Prod.snd) :=
  ⟨⟨oneMainOfName_of_listLanguages_eq, fun h _ _ ↦ listLanguages_eq h⟩, oneMainOfName_of_added,
    fun _ _ ↦ listThemes_eq (tidy_ofEdits edits)⟩

/-- A language with an alias, and a new definition of it without the alias. -/
def redefined : List Edit := [.language ⟨"zig", "source.old", none, ["a"], [], .empty⟩,
  .language ⟨"zig", "source.new", none, [], [], .empty⟩]

/-- The alias is still for the old definition, so the order decides. When it is given to the new one
by hand, the order does not matter, although two definitions were added. -/
theorem listed_in_one_way_iff_of_redefined :
    (¬∀ order order' : List (String × LanguagePack),
      order.Perm (ofEdits redefined).languages.toList →
        order'.Perm (ofEdits redefined).languages.toList →
          listLanguages (order.map Prod.snd) = listLanguages (order'.map Prod.snd)) ∧
    ∀ order order' : List (String × LanguagePack),
      order.Perm (ofEdits (redefined ++ [.newAlias "zig" "a"])).languages.toList →
        order'.Perm (ofEdits (redefined ++ [.newAlias "zig" "a"])).languages.toList →
          listLanguages (order.map Prod.snd) = listLanguages (order'.map Prod.snd) :=
  ⟨mt (listed_in_one_way_iff redefined).1.1 (by decide +kernel),
    (listed_in_one_way_iff (redefined ++ [.newAlias "zig" "a"])).1.2 (by decide +kernel)⟩

/-- So a listing of the languages may depend on the order of the table. -/
theorem not_forall_listed_in_one_way : ¬∀ (edits : List Edit)
    (order order' : List (String × LanguagePack)),
    order.Perm (ofEdits edits).languages.toList → order'.Perm (ofEdits edits).languages.toList →
      listLanguages (order.map Prod.snd) = listLanguages (order'.map Prod.snd) := by
  intro h
  have hone : (ofEdits redefined).OneMainOfName := oneMainOfName_of_listLanguages_eq (h redefined)
  exact absurd hone (by decide +kernel)

end HighlightBundle.Bundle
