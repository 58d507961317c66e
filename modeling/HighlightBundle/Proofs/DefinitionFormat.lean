import HighlightBundle.Proofs.DefinitionFields

/-!
# The format of definition files

A definition is described without an order: which members have a meaning, how often each may occur
and what it may be, and that the others are the body, the last one with a key counting
(`Language.Described`, `Theme.Described`). The reader goes from left to right, but what it makes of
the members is what they describe by the fields of the record (`Layout.Describes`), and for
languages and themes that is the format. So `Language.ofText_eq_ok_iff` and
`Theme.ofText_eq_ok_iff` say of every text that can be read as an object that it is read as a
definition exactly if the members describe it.
-/

namespace HighlightBundle

open Json

namespace Json.Tree

variable {α : Type} {members : List (String × Tree)} {key : String} {view : Tree → Option α}

/-! ### What the values of a member may be -/

/-- The values of a member that may be left out or be null, and is a string otherwise. -/
def OptionalStringIs (values : List Tree) : Option String → Prop
  | none => values = [] ∨ values = [null]
  | some s => values = [string s]

/-- The values of a member that may be left out like an empty list, and is a list of strings. -/
def StringsAre (values : List Tree) (ss : List String) : Prop :=
  values = [] ∧ ss = [] ∨ values = [array (ss.map string)]

/-- The values of a member that says the kind of a theme: left out for dark ones, the name of a
kind, or an object with this name as its one key and null there. -/
def KindIs (values : List Tree) (kind : ThemeKind) : Prop :=
  values = [] ∧ kind = .dark ∨ values = [string kind.name] ∨ values = [object [(kind.name, null)]]

/-- The body has the keys of all members that have no meaning, each with what its last value
means. -/
def BodyIs (fieldKeys : List String) (members : List (String × Tree)) (body : Table Value) : Prop :=
  ∀ key, body.get? key =
    if key ∈ fieldKeys then none else (valuesAt key members).getLast?.map Value.ofTree

/-! ### What a field comes to -/

theorem exists_fieldIs_iff {P : Option α → Prop} : (∃ x, FieldIs view key members x ∧ P x) ↔
    valuesAt key members = [] ∧ P none ∨
      ∃ t x, valuesAt key members = [t] ∧ view t = some x ∧ P (some x) := by
  constructor
  · rintro ⟨- | x, hfield, hP⟩
    · exact Or.inl ⟨hfield, hP⟩
    · obtain ⟨t, hvalues, hview⟩ := hfield
      exact Or.inr ⟨t, x, hvalues, hview, hP⟩
  · rintro (⟨hvalues, hP⟩ | ⟨t, x, hvalues, hview, hP⟩)
    · exact ⟨none, hvalues, hP⟩
    · exact ⟨some x, ⟨t, hvalues, hview⟩, hP⟩

/-- A required string. -/
theorem fieldIs_string_iff {s : String} :
    FieldIs string? key members (some s) ↔ valuesAt key members = [string s] := by
  simp [FieldIs, string?_eq_some_iff]

theorem optionalStringIs_iff {o : Option String} :
    OptionalStringIs (valuesAt key members) o ↔
      ∃ x, FieldIs stringOrNull? key members x ∧ o = x.getD none := by
  rw [exists_fieldIs_iff]
  simp only [stringOrNull?_eq_some_iff]
  rcases o with - | s
  · simp [OptionalStringIs]
  · simp [OptionalStringIs]

theorem stringsAre_iff {ss : List String} : StringsAre (valuesAt key members) ss ↔
    ∃ x, FieldIs strings? key members x ∧ ss = x.getD [] := by
  rw [exists_fieldIs_iff]
  simp [StringsAre, strings?_eq_some_iff]

theorem kindIs_iff {kind : ThemeKind} : KindIs (valuesAt key members) kind ↔
    ∃ x, FieldIs ThemeKind.ofTree? key members x ∧ kind = x.getD .dark := by
  rw [exists_fieldIs_iff]
  simp only [ThemeKind.ofTree?_eq_some_iff]
  simp [KindIs]
  grind

theorem get?_tableOf (members : List (String × Tree)) (key : String) :
    (Value.tableOf members).get? key = (valuesAt key members).getLast?.map Value.ofTree := by
  induction members using List.reverseRecOn with
  | nil => rfl
  | append_singleton members m ih =>
    obtain ⟨k, t⟩ := m
    have hinsert : Value.tableOf (members ++ [(k, t)]) =
        (Value.tableOf members).insert k (Value.ofTree t) := by
      rw [Value.tableOf, Table.ofList, List.map_append, Table.insertAll_append]
      rfl
    rw [hinsert, Table.get?_insert]
    by_cases hk : key = k
    · subst hk
      rw [if_pos rfl, valuesAt_concat_self, List.getLast?_concat]
      rfl
    · rw [if_neg hk, ih, valuesAt_concat_of_ne (Ne.symm hk)]

theorem bodyIs_iff {keys : List String} {body : Table Value} :
    BodyIs keys members body ↔ body = Value.tableOf (membersWithout keys members) := by
  have hvalues : ∀ key, valuesAt key (membersWithout keys members) =
      if key ∈ keys then [] else valuesAt key members := by
    intro key
    rw [valuesAt, membersWithout, List.filter_filter]
    split
    · rename_i hkey
      rw [List.map_eq_nil_iff, List.filter_eq_nil_iff]
      intro m _
      grind
    · rename_i hkey
      rw [valuesAt]
      congr 1
      refine List.filter_congr fun m _ ↦ ?_
      grind
  have hget : ∀ key, (Value.tableOf (membersWithout keys members)).get? key =
      if key ∈ keys then none else (valuesAt key members).getLast?.map Value.ofTree := by
    intro key
    rw [get?_tableOf, hvalues]
    split <;> rfl
  constructor
  · intro h
    exact Table.eq_of_get?_eq fun key ↦ (h key).trans (hget key).symm
  · rintro rfl
    exact hget

/-! ### What the members say, computed -/

theorem requiredString?_eq_some_iff {s : String} :
    requiredString? key members = some s ↔ valuesAt key members = [string s] := by
  unfold requiredString?
  split
  · rename_i s' hvalues
    simp [hvalues]
  · rename_i hnot
    exact iff_of_false nofun (hnot s)

theorem optionalString?_eq_some_iff {o : Option String} :
    optionalString? key members = some o ↔ OptionalStringIs (valuesAt key members) o := by
  unfold optionalString?
  split
  · rename_i hvalues
    cases o <;> simp [OptionalStringIs, hvalues]
  · rename_i hvalues
    cases o <;> simp [OptionalStringIs, hvalues]
  · rename_i s hvalues
    cases o <;> simp [OptionalStringIs, hvalues]
  · rename_i hnil hnull hstring
    cases o with
    | none => exact iff_of_false nofun (not_or.2 ⟨hnil, hnull⟩)
    | some s => exact iff_of_false nofun (hstring s)

theorem stringList?_eq_some_iff {ss : List String} :
    stringList? key members = some ss ↔ StringsAre (valuesAt key members) ss := by
  unfold stringList?
  split
  · rename_i hvalues
    simp [StringsAre, hvalues, eq_comm]
  · rename_i items hvalues
    simp only [StringsAre, hvalues, List.cons.injEq, and_true, reduceCtorEq, false_and, false_or]
    exact strings?_eq_some_iff (t := .array items)
  · rename_i hnil harray
    refine iff_of_false nofun ?_
    rintro (⟨hvalues, -⟩ | hvalues)
    · exact hnil hvalues
    · exact harray _ hvalues

theorem kindOf?_eq_some_iff {kind : ThemeKind} :
    Theme.kindOf? members = some kind ↔ KindIs (valuesAt "type" members) kind := by
  unfold Theme.kindOf?
  split
  · rename_i hvalues
    simp [KindIs, hvalues, eq_comm]
  · rename_i t hvalues
    simp [KindIs, hvalues, ThemeKind.ofTree?_eq_some_iff]
  · rename_i hnil hone
    refine iff_of_false nofun ?_
    rintro (⟨hvalues, -⟩ | hvalues | hvalues)
    · exact hnil hvalues
    · exact hone _ hvalues
    · exact hone _ hvalues

end Json.Tree

open Tree

/-! ### Languages -/

namespace Language

/-- **The format of a language definition**, as a matter of its members in any order. -/
@[mk_iff]
structure Described (members : List (String × Tree)) (language : Language) : Prop where
  name : valuesAt "name" members = [.string language.name]
  scopeName : valuesAt "scopeName" members = [.string language.scopeName]
  displayName : OptionalStringIs (valuesAt "displayName" members) language.displayName
  aliases : StringsAre (valuesAt "aliases" members) language.aliases
  embedded : StringsAre (valuesAt "embeddedLangs" members) language.embedded
  body : BodyIs fieldKeys members language.body

variable {members : List (String × Tree)} {language : Language} {text : Text}

/-- The format is what the fields of a language are described by. -/
theorem describes_iff_described : layout.Describes members language ↔
    Described members language := by
  rw [Layout.describes_iff, described_iff, optionalStringIs_iff, stringsAre_iff, stringsAre_iff,
    bodyIs_iff, keys_layout]
  simp [layout, Field.required, Field.optional, Typed.string, Typed.optionalString, Typed.strings,
    fieldIs_string_iff, and_assoc]

/-- What members describe can be computed from them. -/
theorem ofMembers?_eq_some_iff : ofMembers? members = some language ↔
    Described members language := by
  rw [described_iff, ← requiredString?_eq_some_iff, ← requiredString?_eq_some_iff,
    ← optionalString?_eq_some_iff, ← stringList?_eq_some_iff, ← stringList?_eq_some_iff,
    bodyIs_iff, ofMembers?]
  obtain ⟨name, scopeName, displayName, aliases, embedded, body⟩ := language
  simp [Option.bind_eq_some_iff]
  grind

/-- **A text is read as the language that its members describe**, and not read if they describe
none. -/
theorem ofText_eq_ok_iff (h : readDocument text = .ok (.object members)) :
    ofText text = .ok language ↔ Described members language := by
  rw [ofText, read_eq, layout.readWhole_eq_ok_iff rfl h, describes_iff_described]

end Language

/-! ### Themes -/

namespace Theme

/-- **The format of a theme definition**, as a matter of its members in any order. -/
@[mk_iff]
structure Described (members : List (String × Tree)) (theme : Theme) : Prop where
  name : valuesAt "name" members = [.string theme.name]
  displayName : OptionalStringIs (valuesAt "displayName" members) theme.displayName
  kind : KindIs (valuesAt "type" members) theme.kind
  body : BodyIs fieldKeys members theme.body

variable {members : List (String × Tree)} {theme : Theme} {text : Text}

/-- The format is what the fields of a theme are described by. -/
theorem describes_iff_described : layout.Describes members theme ↔ Described members theme := by
  rw [Layout.describes_iff, described_iff, optionalStringIs_iff, kindIs_iff, bodyIs_iff,
    keys_layout]
  simp [layout, Field.required, Field.optional, Typed.string, Typed.optionalString,
    ThemeKind.typed, fieldIs_string_iff, and_assoc]

/-- What members describe can be computed from them. -/
theorem ofMembers?_eq_some_iff : ofMembers? members = some theme ↔ Described members theme := by
  rw [described_iff, ← requiredString?_eq_some_iff, ← optionalString?_eq_some_iff,
    ← kindOf?_eq_some_iff, bodyIs_iff, ofMembers?]
  obtain ⟨name, displayName, kind, body⟩ := theme
  simp [Option.bind_eq_some_iff]
  grind

/-- **A text is read as the theme that its members describe**, and not read if they describe
none. -/
theorem ofText_eq_ok_iff (h : readDocument text = .ok (.object members)) :
    ofText text = .ok theme ↔ Described members theme := by
  rw [ofText, read_eq, layout.readWhole_eq_ok_iff rfl h, describes_iff_described]

end Theme

end HighlightBundle
