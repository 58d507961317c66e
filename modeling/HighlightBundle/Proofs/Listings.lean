import HighlightBundle.Proofs.FirstOfName
import HighlightBundle.Proofs.TableLookup

/-!
# What a listing holds

A listing goes through the values of a table in whatever order they come, and an order is here what
it is for a table, a permutation of its entries. Two things can be said of every listing, for any
tables and any order:

* the languages are listed with each name once, in the order of the names, and what is listed is the
  main language of a pack in the table (`Bundle.ListsLanguages`);
* the themes are all listed, each as often as there are keys for it (`Bundle.ListsThemes`).

Nothing is said of which language is listed where several main languages have one name: that is the
one whose pack was met first, which depends on the order.

Sorting by a name is one operation for both kinds of assets. Where the names are distinct they
strictly increase (`pairwise_lt_of_nodup`), and then the list is the only one with its members
(`eq_of_pairwise_lt`).
-/

namespace HighlightBundle

/-! ### Sorting by names -/

section

variable {α : Type} {name : α → String} {names : List String} {xs ys : List α}

/-- What is sorted by name is in the order of the names, equal ones next to each other. -/
theorem pairwise_le_mergeSort (name : α → String) (xs : List α) :
    ((xs.mergeSort fun a b ↦ decide (name a ≤ name b)).map name).Pairwise (· ≤ ·) := by
  have htrans (a b c : α) (hab : decide (name a ≤ name b) = true)
      (hbc : decide (name b ≤ name c) = true) : decide (name a ≤ name c) = true :=
    decide_eq_true (String.le_trans (of_decide_eq_true hab) (of_decide_eq_true hbc))
  have htotal (a b : α) : (decide (name a ≤ name b) || decide (name b ≤ name a)) = true := by
    rw [Bool.or_eq_true, decide_eq_true_eq, decide_eq_true_eq]
    exact String.le_total (name a) (name b)
  exact List.pairwise_map.2
    ((List.pairwise_mergeSort htrans htotal xs).imp fun hle ↦ of_decide_eq_true hle)

/-- Distinct names in order strictly increase. -/
theorem pairwise_lt_of_nodup (hle : names.Pairwise (· ≤ ·)) (hnodup : names.Nodup) :
    names.Pairwise (· < ·) :=
  (hle.and hnodup).imp fun ⟨hle, hne⟩ ↦ lt_of_not_lt_of_ne (String.not_lt.2 hle) hne.symm

/-- **With strictly increasing names there is one order.** -/
theorem eq_of_pairwise_lt (hxs : (xs.map name).Pairwise (· < ·))
    (hys : (ys.map name).Pairwise (· < ·)) (h : ∀ x, x ∈ xs ↔ x ∈ ys) : xs = ys := by
  have hascending {zs : List α} (hzs : (zs.map name).Pairwise (· < ·)) :
      Ascending (zs.map fun z ↦ (name z, z)) := List.pairwise_map.2 (List.pairwise_map.1 hzs)
  have hentries : xs.map (fun x ↦ (name x, x)) = ys.map fun y ↦ (name y, y) :=
    Table.eq_of_ascending (hascending hxs) (hascending hys) fun e ↦ by simp only [List.mem_map, h]
  have hvalues (zs : List α) : (zs.map fun z ↦ (name z, z)).map Prod.snd = zs := by
    rw [List.map_map]
    exact List.map_id zs
  rw [← hvalues xs, hentries, hvalues]

end

/-- The values that are met when the entries of a table are gone through in some order. -/
theorem Table.mem_values_of_perm {α : Type} {table : Table α} {order : List (String × α)}
    (horder : order.Perm table.toList) {value : α} :
    value ∈ order.map Prod.snd ↔ ∃ key, table.get? key = some value := by
  simp only [List.mem_map, Prod.exists, exists_eq_right, horder.mem_iff, mem_toList_iff]

namespace Bundle

/-- The language is what some key is for: the last definition of a pack that is not empty. -/
def IsMain (bundle : Bundle) (language : Language) : Prop :=
  ∃ key pack, bundle.languages.get? key = some pack ∧ pack.languages.getLast? = some language

/-- What a list of the languages of a bundle is. -/
structure ListsLanguages (bundle : Bundle) (listing : List Language) : Prop where
  /-- The names strictly increase, by code points. -/
  ascending : (listing.map Language.name).Pairwise (· < ·)
  /-- They are the names of what the keys are for. -/
  names : ∀ name, name ∈ listing.map Language.name ↔
    ∃ language, bundle.IsMain language ∧ language.name = name
  /-- Each definition that is listed is itself what some key is for. -/
  isMain : ∀ language ∈ listing, bundle.IsMain language

/-- What a list of the themes of a bundle is. -/
structure ListsThemes (bundle : Bundle) (listing : List Theme) : Prop where
  /-- The names never decrease, by code points. -/
  ascending : (listing.map Theme.name).Pairwise (· ≤ ·)
  /-- The themes are those in the table, each as often as it is there. -/
  values : listing.Perm bundle.themes.values

variable {bundle : Bundle} {packs : List LanguagePack} {pack : LanguagePack} {language : Language}
  {themes : List Theme}

/-! ### Languages -/

theorem nodup_listLanguages (packs : List LanguagePack) :
    ((listLanguages packs).map Language.name).Nodup :=
  ((List.mergeSort_perm _ _).map Language.name).nodup_iff.2 (nodup_firstOfName [] _)

/-- **The names of a listing strictly increase.** -/
theorem ascending_listLanguages (packs : List LanguagePack) :
    ((listLanguages packs).map Language.name).Pairwise (· < ·) :=
  pairwise_lt_of_nodup (pairwise_le_mergeSort Language.name _) (nodup_listLanguages packs)

theorem mem_listLanguages_iff : language ∈ listLanguages packs ↔
    language ∈ firstOfName [] (packs.filterMap LanguagePack.main?) :=
  List.mem_mergeSort

/-- What is listed is what a pack is for. -/
theorem exists_pack_of_mem_listLanguages (h : language ∈ listLanguages packs) :
    ∃ pack ∈ packs, pack.main? = some language :=
  List.mem_filterMap.1 (mem_of_mem_firstOfName (mem_listLanguages_iff.1 h)).1

/-- No name is left out. -/
theorem exists_mem_listLanguages (hpack : pack ∈ packs) (hmain : pack.main? = some language) :
    ∃ listed ∈ listLanguages packs, listed.name = language.name := by
  have hmem : language ∈ packs.filterMap LanguagePack.main? :=
    List.mem_filterMap.2 ⟨pack, hpack, hmain⟩
  obtain ⟨listed, hlisted, hname⟩ := exists_mem_firstOfName hmem List.not_mem_nil
  exact ⟨listed, mem_listLanguages_iff.2 hlisted, hname⟩

/-- What the keys are for, when the entries are gone through in some order. -/
theorem isMain_iff {order : List (String × LanguagePack)}
    (horder : order.Perm bundle.languages.toList) :
    bundle.IsMain language ↔ ∃ pack ∈ order.map Prod.snd, pack.main? = some language := by
  simp only [Table.mem_values_of_perm horder, IsMain, LanguagePack.main?]
  constructor
  · rintro ⟨key, pack, hget, hmain⟩
    exact ⟨pack, ⟨key, hget⟩, hmain⟩
  · rintro ⟨pack, ⟨key, hget⟩, hmain⟩
    exact ⟨key, pack, hget, hmain⟩

/-- **In every order of the table the languages are listed.** -/
theorem listsLanguages {order : List (String × LanguagePack)}
    (horder : order.Perm bundle.languages.toList) :
    bundle.ListsLanguages (listLanguages (order.map Prod.snd)) where
  ascending := ascending_listLanguages _
  names name := by
    constructor
    · intro hname
      obtain ⟨language, hlisted, rfl⟩ := List.mem_map.1 hname
      exact ⟨language, (isMain_iff horder).2 (exists_pack_of_mem_listLanguages hlisted), rfl⟩
    · rintro ⟨language, hmain, rfl⟩
      obtain ⟨pack, hpack, hmain⟩ := (isMain_iff horder).1 hmain
      obtain ⟨listed, hlisted, hname⟩ := exists_mem_listLanguages hpack hmain
      exact List.mem_map.2 ⟨listed, hlisted, hname⟩
  isMain language hlisted :=
    (isMain_iff horder).2 (exists_pack_of_mem_listLanguages hlisted)

/-! ### Themes -/

theorem perm_listThemes (themes : List Theme) : (listThemes themes).Perm themes :=
  List.mergeSort_perm _ _

/-- **In every order of the table the themes are listed.** -/
theorem listsThemes {order : List (String × Theme)} (horder : order.Perm bundle.themes.toList) :
    bundle.ListsThemes (listThemes (order.map Prod.snd)) where
  ascending := pairwise_le_mergeSort Theme.name _
  values := (perm_listThemes _).trans (horder.map Prod.snd)

/-! ### Both listings -/

/-- **The listings are sorted and complete.** Take any tables, and the entries of each of them in
any order. The list of languages that comes of the one has each name once and in order, the names
being those of what the keys are for, and the list of themes that comes of the other has all themes
in the order of their names. -/
theorem listings_are_sorted_and_complete (bundle : Bundle)
    {languages : List (String × LanguagePack)} {themes : List (String × Theme)}
    (hlanguages : languages.Perm bundle.languages.toList)
    (hthemes : themes.Perm bundle.themes.toList) :
    bundle.ListsLanguages (listLanguages (languages.map Prod.snd)) ∧
      bundle.ListsThemes (listThemes (themes.map Prod.snd)) :=
  ⟨listsLanguages hlanguages, listsThemes hthemes⟩

/-- Tables from elsewhere: an empty pack, keys that are no names, two languages of one name and two
themes of one name. -/
def mixed : Bundle where
  languages := .ofList [("", .plaintext), ("a", .single (language "js" "source.old")),
    ("b", .single (language "js" "source.new")),
    ("z", ⟨[language "js" "source.old", language "html" "text.html"]⟩)]
  themes := .ofList [("x", theme .dark), ("y", theme .light)]
where
  language (name scopeName : String) : Language := ⟨name, scopeName, none, [], [], .empty⟩
  theme (kind : ThemeKind) : Theme := ⟨"day", none, kind, .empty⟩

/-- From the last entry to the first, the newer language of the two is the one that is listed. -/
theorem listings_are_sorted_and_complete_of_mixed :
    let languages := mixed.languages.toList.reverse
    let themes := mixed.themes.toList.reverse
    (languages.Perm mixed.languages.toList ∧ themes.Perm mixed.themes.toList) ∧
      mixed.ListsLanguages (listLanguages (languages.map Prod.snd)) ∧
      mixed.ListsThemes (listThemes (themes.map Prod.snd)) ∧
      (listLanguages (languages.map Prod.snd)).map Language.scopeName =
        ["text.html", "source.new"] ∧
      (listThemes (themes.map Prod.snd)).map Theme.kind = [.light, .dark] := by
  intro languages themes
  have hlanguages : languages.Perm mixed.languages.toList := List.reverse_perm _
  have hthemes : themes.Perm mixed.themes.toList := List.reverse_perm _
  obtain ⟨hlisted, hthemesListed⟩ := listings_are_sorted_and_complete mixed hlanguages hthemes
  refine ⟨⟨hlanguages, hthemes⟩, hlisted, hthemesListed, ?_, ?_⟩
  -- in this order nothing is left to sort
  · rw [listLanguages, List.mergeSort_of_pairwise (by decide +kernel)]
    decide +kernel
  · rw [listThemes, List.mergeSort_of_pairwise (by decide +kernel)]
    decide +kernel

end Bundle

end HighlightBundle
