import Mathlib.Data.List.Basic
import HighlightBundle.Proofs.BundleEdits

/-!
# Languages that have nothing to do with each other

Adding a language reads the entries of the names that it embeds and writes the entries of its own
keys. Two languages are `Unrelated` if neither of them writes what the other one writes or reads,
and then it cannot be seen which of them was added first.

This is not shown by exchanging neighbours. A list of unrelated languages has a description without
any order in it, `Bundle.AddedTogether`: every language stands for the pack that it would have had
alone, over the bundle of the beginning, and nothing else has changed. The lemma that carries it is
`packFor_addLanguage`, a language does not see an unrelated one that was added before. As there is
only one bundle of this description (`AddedTogether.unique`), all orders of the list lead to it, and
so does going through definition files with these languages in them.

The bundle of the beginning may be any. Keys that it has may be written over, and the languages that
are embedded may be there already, but none of them may be added along with the others.
-/

namespace HighlightBundle

namespace Language

/-- No key of one of the languages is a key of the other one, or embedded in it. A language may
embed itself. -/
structure Unrelated (x y : Language) : Prop where
  keys : ∀ key ∈ x.keys, key ∉ y.keys
  embeddedLeft : ∀ name ∈ x.embedded, name ∉ y.keys
  embeddedRight : ∀ name ∈ y.embedded, name ∉ x.keys

variable {x y : Language}

theorem unrelated_iff : x.Unrelated y ↔ (∀ key ∈ x.keys, key ∉ y.keys) ∧
    (∀ name ∈ x.embedded, name ∉ y.keys) ∧ ∀ name ∈ y.embedded, name ∉ x.keys :=
  ⟨fun h ↦ ⟨h.keys, h.embeddedLeft, h.embeddedRight⟩, fun ⟨hkeys, hleft, hright⟩ ↦
    ⟨hkeys, hleft, hright⟩⟩

instance (x y : Language) : Decidable (x.Unrelated y) :=
  decidable_of_iff _ unrelated_iff.symm

theorem Unrelated.symm (h : x.Unrelated y) : y.Unrelated x :=
  ⟨fun key hy hx ↦ h.keys key hx hy, h.embeddedRight, h.embeddedLeft⟩

end Language

namespace Bundle

/-- The bundle with the languages added, one after the other. -/
def addLanguages (bundle : Bundle) (languages : List Language) : Bundle :=
  languages.foldl addLanguage bundle

/-- The bundle after going through definition files of languages. Those that cannot be read leave
it as it is. -/
def scan (bundle : Bundle) (files : Files) (paths : List String) : Bundle :=
  paths.foldl (fun bundle path ↦ (Edit.languageFile files path).apply bundle) bundle

/-- The languages in definition files, those files left out that cannot be read. -/
def languagesIn (files : Files) (paths : List String) : List Language :=
  paths.filterMap fun path ↦ (Language.ofFile files path).toOption

/-- What is there when languages have been added that do not see each other: under its keys each of
them has the pack that it would have alone, and everything else is as it was. -/
structure AddedTogether (before : Bundle) (languages : List Language) (after : Bundle) : Prop where
  packs : ∀ {language key}, language ∈ languages → key ∈ language.keys →
    after.languages.get? key = some (before.packFor language)
  others : ∀ {key}, (∀ language ∈ languages, key ∉ language.keys) →
    after.languages.get? key = before.languages.get? key
  themes : after.themes = before.themes

variable {bundle before after after' : Bundle} {x language : Language}
  {languages order : List Language}

/-! ### What a language sees of another one -/

/-- A language that is unrelated to one that was added before does not see it. -/
theorem packFor_addLanguage (h : x.Unrelated language) :
    (bundle.addLanguage x).packFor language = bundle.packFor language := by
  have hlookUp : ∀ name ∈ language.embedded,
      (bundle.addLanguage x).definitionsAt name = bundle.definitionsAt name := by
    intro name hname
    rw [definitionsAt, definitionsAt, get?_addLanguage, if_neg (h.embeddedRight name hname)]
  rw [packFor, packFor, List.flatMap_congr hlookUp]

/-- **Unrelated languages are added side by side.** -/
theorem addedTogether_addLanguages (bundle : Bundle)
    (h : languages.Pairwise Language.Unrelated) :
    bundle.AddedTogether languages (bundle.addLanguages languages) := by
  induction languages generalizing bundle with
  | nil => exact ⟨fun hmem ↦ absurd hmem List.not_mem_nil, fun _ ↦ rfl, rfl⟩
  | cons x rest ih =>
    obtain ⟨hx, hrest⟩ := List.pairwise_cons.1 h
    have hafter := ih (bundle.addLanguage x) hrest
    constructor
    · intro language key hmem hkey
      rcases List.mem_cons.1 hmem with rfl | hmem
      · -- the keys of the first language are not written again
        have hkept := hafter.others fun other hother ↦ (hx other hother).keys key hkey
        rw [get?_addLanguage, if_pos hkey] at hkept
        exact hkept
      · have hpack := hafter.packs hmem hkey
        rw [packFor_addLanguage (hx language hmem)] at hpack
        exact hpack
    · intro key hkey
      obtain ⟨hfirst, hothers⟩ := List.forall_mem_cons.1 hkey
      have hkept := hafter.others hothers
      rw [get?_addLanguage, if_neg hfirst] at hkept
      exact hkept
    · exact hafter.themes

/-- The description leaves no choice, and it does not depend on the order of the list. -/
theorem AddedTogether.unique (h : before.AddedTogether languages after)
    (h' : before.AddedTogether order after') (horder : ∀ x, x ∈ order ↔ x ∈ languages) :
    after' = after := by
  have hlanguages : after'.languages = after.languages := by
    refine Table.eq_of_get?_eq fun key ↦ ?_
    by_cases hkey : ∃ language ∈ languages, key ∈ language.keys
    · obtain ⟨language, hmem, hkey⟩ := hkey
      rw [h.packs hmem hkey, h'.packs ((horder language).2 hmem) hkey]
    · have hnone : ∀ language ∈ languages, key ∉ language.keys :=
        fun language hmem hlanguage ↦ hkey ⟨language, hmem, hlanguage⟩
      rw [h.others hnone, h'.others fun language hmem ↦ hnone language ((horder language).1 hmem)]
  have hthemes : after'.themes = after.themes := h'.themes.trans h.themes.symm
  cases after
  cases after'
  cases hlanguages
  cases hthemes
  rfl

/-! ### Definition files -/

/-- Going through definition files is adding the languages in them. -/
theorem scan_eq_addLanguages (bundle : Bundle) (files : Files) (paths : List String) :
    bundle.scan files paths = bundle.addLanguages (languagesIn files paths) := by
  induction paths generalizing bundle with
  | nil => rfl
  | cons path rest ih =>
    have hfirst : bundle.scan files (path :: rest) =
        ((Edit.languageFile files path).apply bundle).scan files rest := rfl
    rw [hfirst, ih, Edit.apply, languagesIn, languagesIn, List.filterMap_cons]
    rcases apply_languageFile_cases bundle files path with ⟨_, hfile, hrun⟩ | ⟨_, hfile, hrun⟩
    · rw [hrun, hfile]
      rfl
    · rw [hrun, hfile]
      rfl

/-! ### The order of additions -/

/-- **The order in which unrelated languages are added makes no difference.** Take any bundle, and
languages of which no two share a key and none embeds a key of another one.

* In any order they lead to the same bundle, entry by entry and definition by definition.
* In it each of them has the pack that it would have alone, and everything else is as it was.
* Going through definition files leads there as well, if these are the languages in them, in any
  order and with files in between that cannot be read. -/
theorem addition_order_is_irrelevant (bundle : Bundle)
    (h : languages.Pairwise Language.Unrelated) :
    (∀ order : List Language, order.Perm languages →
      bundle.addLanguages order = bundle.addLanguages languages) ∧
    bundle.AddedTogether languages (bundle.addLanguages languages) ∧
    ∀ files paths, (languagesIn files paths).Perm languages →
      bundle.scan files paths = bundle.addLanguages languages := by
  have hall := addedTogether_addLanguages bundle h
  have horders : ∀ order : List Language, order.Perm languages →
      bundle.addLanguages order = bundle.addLanguages languages := by
    intro order horder
    have hpairwise : order.Pairwise Language.Unrelated :=
      (horder.pairwise_iff Language.Unrelated.symm).2 h
    exact hall.unique (addedTogether_addLanguages bundle hpairwise) fun x ↦ horder.mem_iff
  refine ⟨horders, hall, fun files paths hpaths ↦ ?_⟩
  rw [scan_eq_addLanguages]
  exact horders _ hpaths

/-- Two languages embed one that is there, one of them also itself by its alias and the other one
something that is nowhere; the third takes over both keys of a language that is there. -/
theorem addition_order_is_irrelevant_of_overwriting :
    ∃ (bundle : Bundle) (html markdown notes : Language),
      [html, markdown, notes].Pairwise Language.Unrelated ∧
      (bundle.definitionsAt "txt2tags").map Language.scopeName = ["text.old"] ∧
      bundle.addLanguages [notes, html, markdown] = bundle.addLanguages [html, markdown, notes] ∧
      (bundle.addLanguages [html, markdown, notes]).definitionsAt "txt2tags" = [notes] ∧
      ((bundle.addLanguages [html, markdown, notes]).definitionsAt "htm").map Language.name =
        ["css", "html"] := by
  let css : Language := ⟨"css", "source.css", none, [], [], .empty⟩
  let old : Language := ⟨"t2t", "text.old", none, ["txt2tags"], [], .empty⟩
  let html : Language := ⟨"html", "text.html", none, ["htm"], ["css", "htm"], .empty⟩
  let markdown : Language := ⟨"markdown", "text.md", none, ["md"], ["css", "yaml"], .empty⟩
  let notes : Language := ⟨"txt2tags", "text.notes", none, ["t2t", "notes"], [], .empty⟩
  let bundle := (empty.addLanguage css).addLanguage old
  have hunrelated : [html, markdown, notes].Pairwise Language.Unrelated := by decide +kernel
  obtain ⟨horders, htogether, -⟩ := addition_order_is_irrelevant bundle hunrelated
  have hnotes : (bundle.addLanguages [html, markdown, notes]).languages.get? "txt2tags" =
      some (bundle.packFor notes) :=
    htogether.packs (List.mem_of_getLast? rfl) (by decide +kernel)
  have hhtml : (bundle.addLanguages [html, markdown, notes]).languages.get? "htm" =
      some (bundle.packFor html) :=
    htogether.packs List.mem_cons_self (by decide +kernel)
  refine ⟨bundle, html, markdown, notes, hunrelated, by decide +kernel, ?_, ?_, ?_⟩
  · exact horders _ (by decide +kernel)
  · rw [definitionsAt, hnotes]
    decide +kernel
  · rw [definitionsAt, hhtml]
    decide +kernel

/-- A language that embeds another one sees whether it is there. -/
example :
    let css : Language := ⟨"css", "source.css", none, [], [], .empty⟩
    let html : Language := ⟨"html", "text.html", none, [], ["css"], .empty⟩
    empty.addLanguages [css, html] ≠ empty.addLanguages [html, css] := by
  decide +kernel

end Bundle

end HighlightBundle
