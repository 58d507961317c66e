import HighlightBundle.Files
import HighlightBundle.Proofs.WrittenDefinitions
import HighlightBundle.Proofs.WrittenFiles

/-!
# Dumps read back

What is read from a dump goes into tables, so the order in which the entries were written is lost
and with it every difference between the two bundles (`reads_readTable`). A bundle is read from its
written form exactly if that opens no more brackets than may be open (`Bundle.reads_read`).

Two things are asked of a bundle besides: its bodies are apart from the fields of their definitions,
and its doubles are read back from their text, which the quick way of reading decimals does not
promise. Its integers always are.
-/

namespace HighlightBundle

open Json

namespace Bundle

-- powers of numbers are those of the core library, whatever else is in scope
attribute [local instance (2000)] instPowNat

variable {bundle : Bundle} {languages : List (String × LanguagePack)}
  {themes : List (String × Theme)} {files later : Files} {path : String} {depth : Nat}

theorem takesAll_readEntry {α : Type} {value : Nat → Reader α} {w : α → Tree}
    {entries : List (String × α)} (h : ∀ e ∈ entries, Reads value (w e.2) e.2) (table : Table α) :
    TakesAll (readEntry value) table (entries.map fun e ↦ (e.1, w e.2))
      (table.insertAll entries) := by
  induction entries generalizing table with
  | nil => exact .nil
  | cons e rest ih =>
    obtain ⟨he, hrest⟩ := List.forall_mem_cons.1 h
    have hentry : Takes (readEntry value) table (e.1, w e.2) (table.insert e.1 e.2) :=
      fun depth rest hrest ↦ (he depth rest hrest).bind_ok rfl
    exact .cons hentry (ih hrest _)

/-- **A written table reads back** from its entries in any order. -/
theorem reads_readTable {α : Type} {value : Nat → Reader α} {w : α → Tree} {table : Table α}
    {entries : List (String × α)} (h : ∀ e ∈ entries, Reads value (w e.2) e.2)
    (hperm : entries.Perm table.toList) :
    Reads (readTable value) (.object (entries.map fun e ↦ (e.1, w e.2))) table :=
  reads_readObject (takesAll_readEntry h .empty) (congrArg Except.ok (Table.ofList_of_perm hperm))

/-- No member of a body has the key of a field. -/
structure BodiesApart (bundle : Bundle) : Prop where
  languages : ∀ e ∈ bundle.languages.toList, ∀ x ∈ e.2.languages, x.BodyApart
  themes : ∀ e ∈ bundle.themes.toList, e.2.BodyApart

instance (bundle : Bundle) : Decidable bundle.BodiesApart :=
  decidable_of_iff ((∀ e ∈ bundle.languages.toList, ∀ x ∈ e.2.languages, x.BodyApart) ∧
      ∀ e ∈ bundle.themes.toList, e.2.BodyApart)
    ⟨fun h ↦ ⟨h.1, h.2⟩, fun h ↦ ⟨h.languages, h.themes⟩⟩

theorem takes_languages (draft : Draft) (h : draft.languages = none) {t : Tree}
    {table : Table LanguagePack} (ht : Reads (readTable LanguagePack.read) t table) :
    Takes Draft.member draft ("languages", t) { draft with languages := some table } :=
  takes_field (f := fun x ↦ { draft with languages := some x }) ht
    fun _ _ ↦ by rw [Draft.member, if_pos rfl, h]

theorem takes_themes (draft : Draft) (h : draft.themes = none) {t : Tree}
    {table : Table Theme} (ht : Reads (readTable Theme.read) t table) :
    Takes Draft.member draft ("themes", t) { draft with themes := some table } :=
  takes_field (f := fun x ↦ { draft with themes := some x }) ht
    fun _ _ ↦ by rw [Draft.member, if_neg (by decide), if_pos rfl, h]

/-! ### What the written form asks of the definitions -/

/-- The numbers of a dump are those of its definitions. -/
theorem legible_treeOf_iff : (treeOf languages themes).Legible ↔
    (∀ e ∈ languages, e.2.tree.Legible) ∧ ∀ e ∈ themes, e.2.tree.Legible := by
  rw [treeOf, Tree.legible_object_iff, List.forall_mem_cons, List.forall_mem_singleton,
    Tree.legible_object_iff, Tree.legible_object_iff, List.forall_mem_map, List.forall_mem_map]

/-- A dump opens three brackets around a language and two around a theme. -/
theorem nesting_treeOf_le_iff : (treeOf languages themes).nesting ≤ depth + 3 ↔
    (∀ e ∈ languages, ∀ x ∈ e.2.languages, x.tree.nesting ≤ depth) ∧
      ∀ e ∈ themes, e.2.tree.nesting ≤ depth + 1 := by
  rw [treeOf, Tree.nesting_object_le_iff, List.forall_mem_cons, List.forall_mem_singleton,
    Tree.nesting_object_le_iff, Tree.nesting_object_le_iff, List.forall_mem_map,
    List.forall_mem_map]
  simp only [LanguagePack.tree, Tree.nesting_array_le_iff, List.forall_mem_map]

/-- The order of the entries makes no difference to either. -/
theorem legible_and_nesting_tree (hlanguages : languages.Perm bundle.languages.toList)
    (hthemes : themes.Perm bundle.themes.toList) (hlegible : (treeOf languages themes).Legible)
    (hnesting : (treeOf languages themes).nesting ≤ depth + 3) :
    bundle.tree.Legible ∧ bundle.tree.nesting ≤ depth + 3 := by
  rw [legible_treeOf_iff] at hlegible
  rw [nesting_treeOf_le_iff] at hnesting
  rw [tree, legible_treeOf_iff, nesting_treeOf_le_iff]
  exact ⟨⟨fun e he ↦ hlegible.1 e (hlanguages.mem_iff.2 he),
      fun e he ↦ hlegible.2 e (hthemes.mem_iff.2 he)⟩,
    fun e he ↦ hnesting.1 e (hlanguages.mem_iff.2 he),
    fun e he ↦ hnesting.2 e (hthemes.mem_iff.2 he)⟩

/-! ### Reading a dump -/

/-- **A written bundle reads back** from the entries of its tables in any order, if it opens no more
brackets than may be open; if it opens more, reading fails. -/
theorem reads_read (hlanguages : languages.Perm bundle.languages.toList)
    (hthemes : themes.Perm bundle.themes.toList) (hapart : bundle.BodiesApart)
    (hlegible : (treeOf languages themes).Legible) :
    Reads read (treeOf languages themes) bundle := by
  obtain ⟨hlegible₁, hlegible₂⟩ := legible_treeOf_iff.1 hlegible
  have hpacks : Reads (readTable LanguagePack.read)
      (.object (languages.map fun e ↦ (e.1, e.2.tree))) bundle.languages :=
    reads_readTable (fun e he ↦ LanguagePack.reads_read
      (hapart.languages e (hlanguages.mem_iff.1 he)) (hlegible₁ e he)) hlanguages
  have hthemes : Reads (readTable Theme.read)
      (.object (themes.map fun e ↦ (e.1, e.2.tree))) bundle.themes :=
    reads_readTable (fun e he ↦ Theme.reads_read
      (hapart.themes e (hthemes.mem_iff.1 he)) (hlegible₂ e he)) hthemes
  have htakes := TakesAll.cons (takes_languages .empty rfl hpacks)
    (.cons (takes_themes _ rfl hthemes) .nil)
  have hread : Reads (readObject (.record record.name) Draft.empty Draft.member Draft.finish)
      (treeOf languages themes) bundle := reads_readObject htakes rfl
  -- the text begins with a brace, so the bundle is not read as a list of its tables
  exact fun depth rest hrest ↦ hread depth rest hrest

theorem ofContent_dump (text : Text) :
    ofContent (.dump text) = (ofText text).mapError (.ofFault false text) :=
  rfl

/-- What was dumped to a path is what is read from there. -/
theorem ofFile_of_write {text : Text} (h : files.write path (.dump text) = .ok later) :
    ofFile later path = (ofText text).mapError (.ofFault false text) := by
  rw [ofFile, Files.read_of_write h]
  exact ofContent_dump text

/-- The text of a dump is read, in whatever order the entries of the two tables were written. -/
theorem ofText_write (hlanguages : languages.Perm bundle.languages.toList)
    (hthemes : themes.Perm bundle.themes.toList) (hapart : bundle.BodiesApart)
    (hlegible : (treeOf languages themes).Legible)
    (hnesting : (treeOf languages themes).nesting ≤ depthLimit) :
    ofText ((treeOf languages themes).write.map .char) = .ok bundle :=
  (readWhole_written (reads_read hlanguages hthemes hapart hlegible) depthLimit).1 hnesting

/-- **A dump reads back as the bundle that it was made from.** Take the entries of the two tables in
any orders, such that the written form has doubles that are read back and opens no more brackets
than may be open.

* It is the bundle that is read from the content with this text.
* It is the bundle that is read from every file to which this content was written.
* It is the bundle that is read from every file to which the bundle was dumped. -/
theorem dump_reads_back (hlanguages : languages.Perm bundle.languages.toList)
    (hthemes : themes.Perm bundle.themes.toList) (hapart : bundle.BodiesApart)
    (hlegible : (treeOf languages themes).Legible)
    (hnesting : (treeOf languages themes).nesting ≤ depthLimit) :
    ofContent (.dump ((treeOf languages themes).write.map .char)) = .ok bundle ∧
    (∀ (files later : Files) (path : String),
      files.write path (.dump ((treeOf languages themes).write.map .char)) = .ok later →
        ofFile later path = .ok bundle) ∧
    ∀ (files later : Files) (path : String), bundle.dumpTo files path = .ok later →
      ofFile later path = .ok bundle := by
  have hread := ofText_write hlanguages hthemes hapart hlegible hnesting
  refine ⟨by rw [ofContent_dump, hread]; rfl, fun files later path hwrite ↦ ?_,
    fun files later path hdump ↦ ?_⟩
  · rw [ofFile_of_write hwrite, hread]
    rfl
  · have hroom : (treeOf languages themes).nesting ≤ depthLimit - 3 + 3 := hnesting
    obtain ⟨hlegible, hnesting⟩ := legible_and_nesting_tree hlanguages hthemes hlegible hroom
    have hown : ofText bundle.dump = .ok bundle :=
      ofText_write (.refl _) (.refl _) hapart hlegible hnesting
    rw [ofFile_of_write (mapError_eq_ok_iff.1 hdump), hown]
    rfl

/-- A bundle with a pack that is empty, keys that are no names, strings that have to be escaped, and
a double. -/
def motley : Bundle where
  languages := .ofList [
    ("", ⟨[]⟩),
    ("key", ⟨[{
      name := "a\"\n", scopeName := "\u200b", displayName := some "\\\x01", aliases := ["b", ""],
      embedded := ["c"]
      body := Value.tableOf [
        ("patterns", .array [
          .object [("é", .number (.double threeQuarters)), ("name", .null)], .array []]),
        ("type", .number (.integer (-12) (by decide)))] }]⟩)]
  themes := .ofList [("t", {
    name := "u", displayName := none, kind := .light
    body := Value.tableOf [("colors", .object [("type", .boolean true)])] })]
where
  threeQuarters : Binary64 :=
    ⟨false, 3 * 2 ^ (51 : Nat), 1021, by decide, by decide, .inr (by decide)⟩

/-- The files after a dump to one that is called `bundle`. -/
def dumped (bundle : Bundle) : Files :=
  Files.empty.put (Place.working.child "bundle") (.file (.dump bundle.dump))

theorem write_bundle (bundle : Bundle) :
    Files.empty.write "bundle" (.dump bundle.dump) = .ok bundle.dumped :=
  rfl

/-- The entries of the languages are written in the order that is not theirs. -/
theorem dump_reads_back_of_motley :
    ofContent (.dump ((treeOf motley.languages.toList.reverse motley.themes.toList).write.map
      .char)) = .ok motley ∧ ofFile motley.dumped "bundle" = .ok motley := by
  have hlanguages := motley.languages.toList.reverse_perm
  obtain ⟨hcontent, -, hfile⟩ := dump_reads_back hlanguages (.refl motley.themes.toList)
    (by decide +kernel) (by decide +kernel) (by decide +kernel)
  exact ⟨hcontent,
    hfile _ _ "bundle" (congrArg (Except.mapError Failure.file) (write_bundle motley))⟩

end Bundle

end HighlightBundle
