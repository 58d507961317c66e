import HighlightBundle.Proofs.DumpRoundTrip
import HighlightBundle.Proofs.FirstOfName

/-!
# Bundles made from files, and their dumps

Whatever definitions files give, no member of a body has the key of a field
(`BodiesApart.apply`, for each step in the making of a bundle), so a dump of the bundle says the
same as the bundle. Reading it back can fail in one way only: a definition stands deeper in a dump
than in a file of its own, by the three brackets around a language or the two around a theme
(`nesting_treeOf_le_iff`), and a definition that just keeps to the limit in its file is refused in
the dump (`ofFile_of_write_dump`).
-/

namespace HighlightBundle

open Json

/-- A step in the making of a bundle from files, which may be others at each step. -/
inductive FileAddition where
  | language (files : Files) (path : String)
  | theme (files : Files) (path : String)
  | newAlias (key newKey : String)

namespace FileAddition

/-- The bundle after the step. Where no definition can be read it stays as it was. -/
def apply (bundle : Bundle) : FileAddition → Bundle
  | language files path => (bundle.addLanguageFrom files path).toOption.getD bundle
  | theme files path => (bundle.addThemeFrom files path).toOption.getD bundle
  | newAlias key newKey => bundle.addAlias key newKey

end FileAddition

namespace Bundle

variable {bundle : Bundle} {languages : List (String × LanguagePack)}
  {themes : List (String × Theme)} {step : FileAddition} {files later : Files} {path : String}
  {depth : Nat}

/-- The bundle that the steps lead to. -/
def ofFileAdditions (steps : List FileAddition) : Bundle :=
  steps.foldl FileAddition.apply .empty

/-! ### Bodies are apart from fields -/

theorem bodiesApart_empty : empty.BodiesApart :=
  ⟨nofun, nofun⟩

theorem BodiesApart.definitionsAt (h : bundle.BodiesApart) (key : String) :
    ∀ x ∈ bundle.definitionsAt key, x.BodyApart := by
  intro x hx
  rw [Bundle.definitionsAt] at hx
  split at hx
  · rename_i pack hget
    exact h.languages (key, pack) (Table.mem_of_lookup_eq_some hget) x hx
  · exact absurd hx List.not_mem_nil

theorem BodiesApart.addLanguage (h : bundle.BodiesApart) {language : Language}
    (hlanguage : language.BodyApart) : (bundle.addLanguage language).BodiesApart := by
  have hpack : ∀ x ∈ (bundle.packFor language).languages, x.BodyApart := by
    intro x hx
    rcases List.mem_append.1 hx with hx | hx
    · obtain ⟨key, -, hx⟩ := List.mem_flatMap.1 (mem_of_mem_firstOfName hx).1
      exact h.definitionsAt key x hx
    · exact List.mem_singleton.1 hx ▸ hlanguage
  refine ⟨fun e he ↦ ?_, h.themes⟩
  rcases Table.mem_toList_insertAll he with he | he
  · obtain ⟨key, -, rfl⟩ := List.mem_map.1 he
    exact hpack
  · exact h.languages e he

theorem BodiesApart.addTheme (h : bundle.BodiesApart) {theme : Theme} (htheme : theme.BodyApart) :
    (bundle.addTheme theme).BodiesApart := by
  refine ⟨h.languages, fun e he ↦ ?_⟩
  rcases mem_insertEntry he with rfl | he
  · exact htheme
  · exact h.themes e he

theorem BodiesApart.addAlias (h : bundle.BodiesApart) (key newKey : String) :
    (bundle.addAlias key newKey).BodiesApart := by
  rw [Bundle.addAlias]
  split
  · rename_i pack hget
    refine ⟨fun e he ↦ ?_, h.themes⟩
    rcases mem_insertEntry he with rfl | he
    · exact h.languages (key, pack) (Table.mem_of_lookup_eq_some hget)
    · exact h.languages e he
  · exact h

/-- A definition is read from a file as from its text. -/
theorem exists_of_readDefinition_eq_ok {α : Type} {reader : Text → Except Fault α} {x : α}
    (h : files.readDefinition path reader = .ok x) : ∃ text, reader text = .ok x := by
  rw [Files.readDefinition] at h
  split at h
  · exact absurd h nofun
  · exact absurd h nofun
  · rename_i content _
    refine ⟨content.text, ?_⟩
    cases hread : reader content.text <;> rw [hread] at h
    · exact absurd h nofun
    · exact congrArg Except.ok (Except.ok.inj h)

/-- **Every step keeps bodies apart from fields.** -/
theorem BodiesApart.apply (h : bundle.BodiesApart) (step : FileAddition) :
    (step.apply bundle).BodiesApart := by
  cases step with
  | language files path =>
    rw [FileAddition.apply, addLanguageFrom]
    rcases hread : Language.ofFile files path with - | language
    · exact h
    · obtain ⟨text, htext⟩ := exists_of_readDefinition_eq_ok hread
      exact h.addLanguage (Language.bodyApart_of_ofText htext)
  | theme files path =>
    rw [FileAddition.apply, addThemeFrom]
    rcases hread : Theme.ofFile files path with - | theme
    · exact h
    · obtain ⟨text, htext⟩ := exists_of_readDefinition_eq_ok hread
      exact h.addTheme (Theme.bodyApart_of_ofText htext)
  | newAlias key newKey => exact h.addAlias key newKey

theorem bodiesApart_ofFileAdditions (steps : List FileAddition) :
    (ofFileAdditions steps).BodiesApart :=
  List.foldlRecOn steps _ bodiesApart_empty fun _ h step _ ↦ h.apply step

/-! ### How deep a dump is -/

/-- Every definition leaves room for the brackets that stand around it in a dump. -/
structure Shallow (bundle : Bundle) : Prop where
  languages : ∀ e ∈ bundle.languages.toList, ∀ x ∈ e.2.languages, x.tree.nesting + 3 ≤ depthLimit
  themes : ∀ e ∈ bundle.themes.toList, e.2.tree.nesting + 2 ≤ depthLimit

instance (bundle : Bundle) : Decidable bundle.Shallow :=
  decidable_of_iff (
      (∀ e ∈ bundle.languages.toList, ∀ x ∈ e.2.languages, x.tree.nesting + 3 ≤ depthLimit) ∧
        ∀ e ∈ bundle.themes.toList, e.2.tree.nesting + 2 ≤ depthLimit)
    ⟨fun h ↦ ⟨h.1, h.2⟩, fun h ↦ ⟨h.languages, h.themes⟩⟩

theorem shallow_iff (hlanguages : languages.Perm bundle.languages.toList)
    (hthemes : themes.Perm bundle.themes.toList) :
    bundle.Shallow ↔ (treeOf languages themes).nesting ≤ depthLimit := by
  refine Iff.trans ?_ (nesting_treeOf_le_iff : _ ≤ depthLimit - 3 + 3 ↔ _).symm
  constructor
  · intro h
    exact ⟨fun e he x hx ↦ Nat.le_sub_of_add_le (h.languages e (hlanguages.mem_iff.1 he) x hx),
      fun e he ↦ Nat.le_sub_of_add_le (h.themes e (hthemes.mem_iff.1 he))⟩
  · rintro ⟨hpacks, hthemed⟩
    exact ⟨fun e he x hx ↦ Nat.add_le_add_right (hpacks e (hlanguages.mem_iff.2 he) x hx) 3,
      fun e he ↦ Nat.add_le_add_right (hthemed e (hthemes.mem_iff.2 he)) 2⟩

/-! ### Reading what was dumped -/

/-- **A bundle made from files is read back from its dump exactly if it is shallow**, in whatever
order the entries of the two tables were written; if it is not, reading the dump fails. -/
theorem ofFile_of_write_dump {steps : List FileAddition}
    (hlanguages : languages.Perm (ofFileAdditions steps).languages.toList)
    (hthemes : themes.Perm (ofFileAdditions steps).themes.toList)
    (hlegible : (treeOf languages themes).Legible)
    (hwrite : files.write path (.dump ((treeOf languages themes).write.map .char)) = .ok later) :
    ((ofFileAdditions steps).Shallow → ofFile later path = .ok (ofFileAdditions steps)) ∧
      (¬(ofFileAdditions steps).Shallow → ∃ failure, ofFile later path = .error failure) := by
  have hread := readWhole_written (reads_read hlanguages hthemes
    (bodiesApart_ofFileAdditions steps) hlegible) depthLimit
  rw [shallow_iff hlanguages hthemes, ofFile_of_write hwrite]
  constructor
  · intro hnesting
    rw [ofText, hread.1 hnesting]
    rfl
  · intro hnesting
    obtain ⟨fault, hfault⟩ := hread.2 hnesting
    rw [ofText, hfault]
    exact ⟨_, rfl⟩

/-- A definition file that holds what is in front, some brackets one in another, and a brace. -/
def deepFile (start : String) (depth : Nat) : Files :=
  Files.empty.makeFile "deep.json" <| .bytes <| List.map (·.toNat.toUInt8) <|
    start.toList ++ List.replicate depth '[' ++ List.replicate depth ']' ++ ['\x7d']

/-- The language in a file with so many brackets. -/
def deepLanguage (depth : Nat) : FileAddition :=
  .language (deepFile "\x7b\"name\":\"a\",\"scopeName\":\"s\",\"x\":" depth) "deep.json"

/-- A language, a theme one bracket deeper, a file that is not there, and another key for the
language. -/
def deepAdditions (depth : Nat) : List FileAddition := [
  deepLanguage depth,
  .theme (deepFile "\x7b\"name\":\"t\",\"x\":" (depth + 1)) "deep.json",
  .language .empty "deep.json",
  .newAlias "a" "b"]

/-- The language and the theme are there, and as deep as may be. -/
theorem ofFile_of_write_dump_of_deep :
    ((ofFileAdditions (deepAdditions 123)).languages.keys = ["a", "b"] ∧
      (ofFileAdditions (deepAdditions 123)).themes.keys = ["t"]) ∧
    ofFile (ofFileAdditions (deepAdditions 123)).dumped "bundle" =
      .ok (ofFileAdditions (deepAdditions 123)) :=
  ⟨by decide +kernel, (ofFile_of_write_dump (.refl _) (.refl _) (by decide +kernel)
    (write_bundle _)).1 (by decide +kernel)⟩

/-- One bracket more is accepted in the file of the definition, but not in the dump. -/
theorem not_forall_ofFile_dumpTo : ¬∀ (steps : List FileAddition) (files later : Files)
    (path : String), (ofFileAdditions steps).tree.Legible →
      (ofFileAdditions steps).dumpTo files path = .ok later →
        ofFile later path = .ok (ofFileAdditions steps) := by
  intro h
  have hread := h [deepLanguage 124] .empty _ "bundle" (by decide +kernel)
    (congrArg (Except.mapError Failure.file) (write_bundle _))
  have hfails : (ofFile (ofFileAdditions [deepLanguage 124]).dumped "bundle").toOption = none := by
    decide +kernel
  rw [hread] at hfails
  exact absurd hfails nofun

end Bundle

end HighlightBundle
