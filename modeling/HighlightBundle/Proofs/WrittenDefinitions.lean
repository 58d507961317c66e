import HighlightBundle.Proofs.DefinitionFormat

/-!
# Written definitions

A language and a theme are read back from their written form if their body is apart from their
fields: a member of the body with the key of a field would be taken for that field, or refused as
its second occurrence. What is written of such a definition describes it
(`Language.described_members`, `Theme.described_members`), and members that describe a record are
read as it when they have been written.

A definition that was read is of this kind, whatever the text was (`Language.bodyApart_of_ofText`,
`Theme.bodyApart_of_ofText`).
-/

namespace HighlightBundle

open Json

namespace Json.Tree

variable {table : Table Value} {keys : List String} {key : String} {front : List (String × Tree)}

/-- A body that has no member with the key of a field leaves the fields what they are without it. -/
theorem valuesAt_append_membersOf (h : ∀ key ∈ table.keys, key ∉ keys) (hkey : key ∈ keys)
    (front : List (String × Tree)) :
    valuesAt key (front ++ Value.membersOf table) = valuesAt key front := by
  have hbody : valuesAt key (Value.membersOf table) = [] := by
    rw [valuesAt, List.map_eq_nil_iff, List.filter_eq_nil_iff]
    intro m hm heq
    exact h m.1 (Value.fst_mem_keys hm) (eq_of_beq heq ▸ hkey)
  rw [valuesAt_append, hbody, List.append_nil]

/-- And behind members of fields it is the body of what is written. -/
theorem bodyIs_append_membersOf (h : ∀ key ∈ table.keys, key ∉ keys)
    (hfront : ∀ m ∈ front, m.1 ∈ keys) : BodyIs keys (front ++ Value.membersOf table) table := by
  have hnone : membersWithout keys front = [] := by
    rw [membersWithout, List.filter_eq_nil_iff]
    intro m hm
    simpa using hfront m hm
  have hall : membersWithout keys (Value.membersOf table) = Value.membersOf table := by
    rw [membersWithout, List.filter_eq_self]
    intro m hm
    simpa using h m.1 (Value.fst_mem_keys hm)
  have hsplit : membersWithout keys (front ++ Value.membersOf table) =
      membersWithout keys front ++ membersWithout keys (Value.membersOf table) :=
    List.filter_append ..
  rw [bodyIs_iff, hsplit, hnone, hall, List.nil_append, Value.tableOf_membersOf]

end Json.Tree

open Tree

namespace Language

variable {language : Language} {text : Text}

/-- No member of the body has the key of a field. -/
def BodyApart (language : Language) : Prop :=
  ∀ key ∈ language.body.keys, key ∉ fieldKeys

instance (language : Language) : Decidable language.BodyApart :=
  inferInstanceAs (Decidable (∀ key ∈ language.body.keys, key ∉ fieldKeys))

/-- The members of the written form that are fields. -/
def fieldMembers (language : Language) : List (String × Tree) :=
  [("name", .string language.name), ("scopeName", .string language.scopeName)]
    ++ optionalMember "displayName" language.displayName
    ++ [("aliases", .array (language.aliases.map .string)),
      ("embeddedLangs", .array (language.embedded.map .string))]

theorem tree_eq (language : Language) :
    language.tree = .object (language.fieldMembers ++ Value.membersOf language.body) :=
  rfl

/-- **What is written of a definition describes it**, if its body does not speak of fields. -/
theorem described_members (hapart : language.BodyApart) :
    Described (language.fieldMembers ++ Value.membersOf language.body) language := by
  have hvalues : ∀ key ∈ fieldKeys, valuesAt key (language.fieldMembers ++
      Value.membersOf language.body) = valuesAt key language.fieldMembers :=
    fun key hkey ↦ valuesAt_append_membersOf hapart hkey _
  have hfields : ∀ m ∈ language.fieldMembers, m.1 ∈ fieldKeys := by
    rw [fieldMembers]
    cases language.displayName <;> simp [optionalMember, fieldKeys]
  rw [described_iff]
  refine ⟨?_, ?_, ?_, ?_, ?_, bodyIs_append_membersOf hapart hfields⟩
  all_goals
    rw [hvalues _ (by decide), fieldMembers]
    cases language.displayName <;> simp [optionalMember, valuesAt, OptionalStringIs, StringsAre]

/-- **A written definition reads back**, if its body does not speak of fields. -/
theorem reads_read (hapart : language.BodyApart) (hlegible : language.tree.Legible) :
    Reads read language.tree language := by
  have hfields : ∀ f ∈ layout.fields, f.typed.ReadsBack := by
    simp only [layout, Field.required, Field.optional, List.forall_mem_cons]
    exact ⟨Typed.string_readsBack, Typed.string_readsBack, Typed.optionalString_readsBack,
      Typed.strings_readsBack, Typed.strings_readsBack, List.forall_mem_nil _⟩
  rw [tree_eq] at hlegible ⊢
  rw [read_eq]
  exact Layout.reads_of_describes rfl hfields hlegible
    (describes_iff_described.2 (described_members hapart))

/-- **The body of a definition that was read is apart from its fields.** -/
theorem bodyApart_of_ofText (h : ofText text = .ok language) : language.BodyApart := by
  rw [ofText, read_eq] at h
  exact layout.keys_apart rfl h

end Language

namespace Theme

variable {theme : Theme} {text : Text}

/-- No member of the body has the key of a field. -/
def BodyApart (theme : Theme) : Prop :=
  ∀ key ∈ theme.body.keys, key ∉ fieldKeys

instance (theme : Theme) : Decidable theme.BodyApart :=
  inferInstanceAs (Decidable (∀ key ∈ theme.body.keys, key ∉ fieldKeys))

/-- The members of the written form that are fields. -/
def fieldMembers (theme : Theme) : List (String × Tree) :=
  ("name", .string theme.name) :: optionalMember "displayName" theme.displayName
    ++ [("type", .string theme.kind.name)]

theorem tree_eq (theme : Theme) :
    theme.tree = .object (theme.fieldMembers ++ Value.membersOf theme.body) := by
  rw [tree, fieldMembers, List.append_assoc]
  rfl

/-- **What is written of a definition describes it**, if its body does not speak of fields. -/
theorem described_members (hapart : theme.BodyApart) :
    Described (theme.fieldMembers ++ Value.membersOf theme.body) theme := by
  have hvalues : ∀ key ∈ fieldKeys, valuesAt key (theme.fieldMembers ++
      Value.membersOf theme.body) = valuesAt key theme.fieldMembers :=
    fun key hkey ↦ valuesAt_append_membersOf hapart hkey _
  have hfields : ∀ m ∈ theme.fieldMembers, m.1 ∈ fieldKeys := by
    rw [fieldMembers]
    cases theme.displayName <;> simp [optionalMember, fieldKeys]
  rw [described_iff]
  refine ⟨?_, ?_, ?_, bodyIs_append_membersOf hapart hfields⟩
  all_goals
    rw [hvalues _ (by decide), fieldMembers]
    cases theme.displayName <;> simp [optionalMember, valuesAt, OptionalStringIs, KindIs]

/-- **A written definition reads back**, if its body does not speak of fields. -/
theorem reads_read (hapart : theme.BodyApart) (hlegible : theme.tree.Legible) :
    Reads read theme.tree theme := by
  have hfields : ∀ f ∈ layout.fields, f.typed.ReadsBack := by
    simp only [layout, Field.required, Field.optional, List.forall_mem_cons]
    exact ⟨Typed.string_readsBack, Typed.optionalString_readsBack, ThemeKind.typed_readsBack,
      List.forall_mem_nil _⟩
  rw [tree_eq] at hlegible ⊢
  rw [read_eq]
  exact Layout.reads_of_describes rfl hfields hlegible
    (describes_iff_described.2 (described_members hapart))

/-- **The body of a definition that was read is apart from its fields.** -/
theorem bodyApart_of_ofText (h : ofText text = .ok theme) : theme.BodyApart := by
  rw [ofText, read_eq] at h
  exact layout.keys_apart rfl h

end Theme

namespace LanguagePack

variable {pack : LanguagePack}

theorem reads_read (hapart : ∀ x ∈ pack.languages, x.BodyApart) (hlegible : pack.tree.Legible) :
    Reads read pack.tree pack := by
  have hlegible' : ∀ x ∈ pack.languages, x.tree.Legible :=
    List.forall_mem_map.1 (Tree.legible_array_iff.1 hlegible)
  intro depth rest hrest
  have hlist := reads_readList (w := Language.tree)
    (fun x hx ↦ Language.reads_read (hapart x hx) (hlegible' x hx)) hlegible' depth rest hrest
  exact hlist.bind_ok rfl

end LanguagePack

end HighlightBundle
