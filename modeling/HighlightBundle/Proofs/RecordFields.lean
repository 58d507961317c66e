import Mathlib.Data.List.Induction
import Mathlib.Data.List.Pairwise
import Mathlib.Tactic.MkIffOfInductiveProp
import HighlightBundle.Json.Records
import HighlightBundle.Proofs.CanonicalTrees
import HighlightBundle.Proofs.TypedReading

/-!
# Records by their fields

A record is read off an object into a draft. The key of a member tells the field whose place in the
draft takes the value; a member that belongs to no field is kept for the body, or passed over. What
is peculiar to a record is its `Layout`: the fields with their places, the body, and what is made of
a draft in the end. Whatever follows from there is said of all layouts at once.

The reader goes from left to right and refuses at the first thing that does not fit, so what it
makes of the members is a matter of their order, until it is shown that it is not. What carries it
is an invariant of the draft, `Layout.Holds`: at every moment a field has been seen as the one value
that the members so far have for it, if they have one. The places of two fields are apart
(`Field.Apart`), so a member turns one field and leaves the others as they are, and nothing has to
be said about the orders in which they may come.

Hence a text is read as a record exactly if its members describe it (`Layout.readWhole_eq_ok_iff`),
written members that describe a record are read back as it (`Layout.reads_of_describes`), and the
body of what was read has no member with the key of a field (`Layout.keys_apart`).
-/

namespace HighlightBundle.Json

/-! ### The values of a key, member by member -/

namespace Tree

variable {α : Type} {members done : List (String × Tree)} {key : String} {m : String × Tree}
  {t : Tree} {view : Tree → Option α} {o before : Option α}

theorem valuesAt_append (key : String) (members more : List (String × Tree)) :
    valuesAt key (members ++ more) = valuesAt key members ++ valuesAt key more := by
  rw [valuesAt, List.filter_append, List.map_append]
  rfl

theorem valuesAt_concat_self : valuesAt key (done ++ [(key, t)]) = valuesAt key done ++ [t] := by
  rw [valuesAt_append]
  simp [valuesAt]

theorem valuesAt_concat_of_ne (h : m.1 ≠ key) :
    valuesAt key (done ++ [m]) = valuesAt key done := by
  rw [valuesAt_append]
  simp [valuesAt, h]

theorem membersWithout_concat (keys : List String) (done : List (String × Tree))
    (m : String × Tree) : membersWithout keys (done ++ [m]) =
      if m.1 ∈ keys then membersWithout keys done else membersWithout keys done ++ [m] := by
  rw [membersWithout, List.filter_append]
  by_cases h : m.1 ∈ keys <;> simp [h, membersWithout]

/-- What a member that may occur once has been seen as, if it has occurred. -/
def FieldIs (view : Tree → Option α) (key : String) (members : List (String × Tree)) :
    Option α → Prop
  | none => valuesAt key members = []
  | some x => ∃ t, valuesAt key members = [t] ∧ view t = some x

theorem FieldIs.unique (h : FieldIs view key members o) (h' : FieldIs view key members before) :
    o = before := by
  rcases o with - | x <;> rcases before with - | y
  · rfl
  · obtain ⟨t, ht, -⟩ := h'
    exact absurd (h.symm.trans ht) (List.cons_ne_nil t []).symm
  · obtain ⟨t, ht, -⟩ := h
    exact absurd (h'.symm.trans ht) (List.cons_ne_nil t []).symm
  · obtain ⟨t, ht, hx⟩ := h
    obtain ⟨t', ht', hy⟩ := h'
    obtain rfl := List.singleton_inj.1 (ht.symm.trans ht')
    exact hx.symm.trans hy

/-- **A member with the key** is the first one, and what the field is from then on. -/
theorem fieldIs_concat_self_iff : FieldIs view key (done ++ [(key, t)]) o ↔
    FieldIs view key done none ∧ ∃ x, view t = some x ∧ o = some x := by
  rcases o with - | x
  · refine iff_of_false (fun h ↦ ?_) (by simp)
    rw [FieldIs, valuesAt_concat_self] at h
    exact List.append_ne_nil_of_right_ne_nil _ (List.cons_ne_nil t []) h
  · simp only [FieldIs, valuesAt_concat_self, List.append_eq_singleton_iff]
    grind

/-- Any other member leaves the field as it is. -/
theorem fieldIs_concat_of_ne (h : m.1 ≠ key) :
    FieldIs view key (done ++ [m]) o ↔ FieldIs view key done o := by
  cases o <;> simp only [FieldIs, valuesAt_concat_of_ne h]

theorem exists_fieldIs_of_concat (h : FieldIs view key (done ++ [m]) o) :
    ∃ before, FieldIs view key done before := by
  by_cases hkey : m.1 = key
  · obtain ⟨k, t⟩ := m
    obtain rfl : k = key := hkey
    exact ⟨none, (fieldIs_concat_self_iff.1 h).1⟩
  · exact ⟨o, (fieldIs_concat_of_ne hkey).1 h⟩

end Tree

open Json.Tree

/-! ### Fields -/

/-- What the values of a field are: how they are read, and which trees they are seen in. -/
structure Typed (α : Type) where
  read : Nat → Reader α
  view : Tree → Option α
  sees : ∀ {depth : Nat}, Sees depth (read depth) view

namespace Typed

/-- Every tree that is seen as a value is read back as it from what is written of it. -/
def ReadsBack {α : Type} (typed : Typed α) : Prop :=
  ∀ {t : Tree} {x : α}, typed.view t = some x → Reads typed.read t x

/-- A string. -/
def string : Typed String := ⟨fun _ ↦ readString, Tree.string?, sees_readString⟩

/-- A string, or null for none. -/
def optionalString : Typed (Option String) :=
  ⟨fun _ ↦ readOptionalString, Tree.stringOrNull?, sees_readOptionalString⟩

/-- A list of strings. -/
def strings : Typed (List String) := ⟨readStrings, Tree.strings?, sees_readStrings⟩

theorem string_readsBack : string.ReadsBack := by
  intro t s h
  rw [string?_eq_some_iff.1 h]
  exact reads_readString s

theorem optionalString_readsBack : optionalString.ReadsBack := by
  intro t o h
  rcases stringOrNull?_eq_some_iff.1 h with ⟨rfl, rfl⟩ | ⟨s, rfl, rfl⟩
  · exact fun depth rest _ ↦ OkIff.of_ok (Nat.zero_le depth) rfl
  · exact reads_readOptionalString s

theorem strings_readsBack : strings.ReadsBack := by
  intro t ss h
  rw [strings?_eq_some_iff.1 h]
  exact reads_readStrings ss

end Typed

/-- A field of a record: the key of its member, its place in the draft, and what becomes of it. -/
structure Field (σ α : Type) where
  key : String
  Value : Type
  typed : Typed Value
  get : σ → Option Value
  put : σ → Value → σ
  get_put : ∀ (draft : σ) (x : Value), get (put draft x) = some x
  /-- What the record has, given what has been read. -/
  Makes : Option Value → α → Prop

namespace Field

variable {σ α β : Type}

/-- A field that has to be there. -/
def required (key : String) (typed : Typed β) (get : σ → Option β) (made : α → β)
    (put : σ → β → σ) (get_put : ∀ draft x, get (put draft x) = some x) : Field σ α :=
  ⟨key, β, typed, get, put, get_put, fun value record ↦ value = some (made record)⟩

/-- A field that may be left out, which is like the default. -/
def optional (key : String) (typed : Typed β) (default : β) (get : σ → Option β) (made : α → β)
    (put : σ → β → σ) (get_put : ∀ draft x, get (put draft x) = some x) : Field σ α :=
  ⟨key, β, typed, get, put, get_put, fun value record ↦ made record = value.getD default⟩

/-- Two fields have different keys, and neither of them is in the place of the other. -/
@[mk_iff]
structure Apart (f g : Field σ α) : Prop where
  key_ne : f.key ≠ g.key
  get_put : ∀ draft x, g.get (f.put draft x) = g.get draft
  get_put' : ∀ draft x, f.get (g.put draft x) = f.get draft

theorem Apart.symm {f g : Field σ α} (h : f.Apart g) : g.Apart f :=
  ⟨h.key_ne.symm, h.get_put', h.get_put⟩

instance : Std.Symm (Field.Apart (σ := σ) (α := α)) := ⟨fun _ _ ↦ Apart.symm⟩

/-- What is done for the field with the key, or otherwise. -/
def dispatch {γ : Type} (key : String) (otherwise : γ) (act : Field σ α → γ) :
    List (Field σ α) → γ
  | [] => otherwise
  | f :: fields => if key = f.key then act f else dispatch key otherwise act fields

theorem dispatch_of_mem {γ : Type} {otherwise : γ} {act : Field σ α → γ}
    {fields : List (Field σ α)} (h : fields.Pairwise Apart) {f : Field σ α} (hf : f ∈ fields) :
    dispatch f.key otherwise act fields = act f := by
  induction fields with
  | nil => cases hf
  | cons g fields ih =>
    obtain ⟨hg, h⟩ := List.pairwise_cons.1 h
    rcases List.mem_cons.1 hf with rfl | hf
    · exact if_pos rfl
    · rw [dispatch, if_neg (hg f hf).key_ne.symm]
      exact ih h hf

theorem dispatch_of_not_mem {γ : Type} {otherwise : γ} {act : Field σ α → γ} {key : String}
    {fields : List (Field σ α)} (h : key ∉ fields.map Field.key) :
    dispatch key otherwise act fields = otherwise := by
  induction fields with
  | nil => rfl
  | cons g fields ih =>
    obtain ⟨hg, h⟩ := not_or.1 (List.mem_cons.not.1 h)
    rw [dispatch, if_neg hg]
    exact ih h

end Field

/-- What a draft keeps the members of no field in, and what becomes of them. -/
structure Body (σ α : Type) where
  get : σ → List (String × Tree)
  put : σ → List (String × Tree) → σ
  get_put : ∀ draft members, get (put draft members) = members
  made : α → Table Value

/-- **The layout of a record**: its fields, which are apart, its body, if members of no field are
kept, and the drafts it is read into. -/
structure Layout (σ α : Type) where
  fields : List (Field σ α)
  body : Option (Body σ α)
  start : σ
  finish : σ → Except Cause α
  apart : fields.Pairwise Field.Apart
  get_start : ∀ f ∈ fields, f.get start = none
  body_start : ∀ b ∈ body, b.get start = []
  get_body : ∀ b ∈ body, ∀ f ∈ fields, ∀ draft members, f.get (b.put draft members) = f.get draft
  body_put : ∀ b ∈ body, ∀ f ∈ fields, ∀ draft x, b.get (f.put draft x) = b.get draft
  finish_iff : ∀ draft record, finish draft = .ok record ↔
    (∀ f ∈ fields, f.Makes (f.get draft) record) ∧
      ∀ b ∈ body, b.made record = Value.tableOf (b.get draft)

namespace Layout

variable {σ α : Type} (layout : Layout σ α)

/-- The keys with a meaning. -/
def keys : List String := layout.fields.map Field.key

/-- Reads a member of no field, whose key has been read. -/
def readOther (depth : Nat) (draft : σ) (key : String) : Reader σ :=
  match layout.body with
  | none => skippedMember draft
  | some b => fun text ↦ do
    let (members, rest) ← treeMember (readTree depth) (b.get draft) key text
    return (b.put draft members, rest)

/-- Reads the member with that key. -/
def member (depth : Nat) (draft : σ) (key : String) : Reader σ := fun text ↦
  Field.dispatch key (layout.readOther depth draft key text) (fun f ↦ do
    let (x, rest) ← setOnce key (f.get draft) (f.typed.read depth) text
    return (f.put draft x, rest)) layout.fields

/-- The draft with a member of no field. -/
def keep (draft : σ) (m : String × Tree) : σ :=
  match layout.body with
  | none => draft
  | some b => b.put draft (b.get draft ++ [m])

/-- What one more member of a tree makes of a draft. -/
def step (draft : σ) (m : String × Tree) : Option σ :=
  Field.dispatch m.1 (some (layout.keep draft m)) (fun f ↦
    (takeOnce (f.get draft) (f.typed.view m.2)).map (f.put draft)) layout.fields

/-- The draft has what the members so far say. -/
structure Holds (members : List (String × Tree)) (draft : σ) : Prop where
  field : ∀ f ∈ layout.fields, FieldIs f.typed.view f.key members (f.get draft)
  body : ∀ b ∈ layout.body, b.get draft = membersWithout layout.keys members

/-- **What members describe**, in any order: every field is made of the one value they have for it,
if they have one, and the body of those that belong to no field. -/
@[mk_iff]
structure Describes (members : List (String × Tree)) (record : α) : Prop where
  field : ∀ f ∈ layout.fields, ∃ x, FieldIs f.typed.view f.key members x ∧ f.Makes x record
  body : ∀ b ∈ layout.body, b.made record = Value.tableOf (membersWithout layout.keys members)

variable {layout} {f g : Field σ α} {b : Body σ α} {members done : List (String × Tree)}
  {m : String × Tree} {draft before after : σ} {record : α} {key : String} {depth : Nat}
  {text rest : Text}

/-! ### One member -/

theorem mem_keys_iff : key ∈ layout.keys ↔ ∃ f ∈ layout.fields, f.key = key :=
  List.mem_map

theorem eq_of_key_eq (hf : f ∈ layout.fields) (hg : g ∈ layout.fields) (h : f.key = g.key) :
    f = g :=
  Classical.byContradiction fun hne ↦ (layout.apart.forall hf hg hne).key_ne h

theorem get_put_of_ne (hf : f ∈ layout.fields) (hg : g ∈ layout.fields) (h : f.key ≠ g.key)
    (x : f.Value) : g.get (f.put draft x) = g.get draft :=
  (layout.apart.forall hf hg fun heq ↦ h (congrArg Field.key heq)).get_put draft x

theorem get_keep (hf : f ∈ layout.fields) : f.get (layout.keep draft m) = f.get draft := by
  rw [keep]
  split
  · rfl
  · rename_i b hb
    exact layout.get_body b hb f hf _ _

theorem body_keep (hb : b ∈ layout.body) : b.get (layout.keep draft m) = b.get draft ++ [m] := by
  rw [keep, Option.mem_def.1 hb]
  exact b.get_put _ _

theorem member_of_mem (hf : f ∈ layout.fields) (depth : Nat) (draft : σ) (text : Text) :
    layout.member depth draft f.key text = (do
      let (x, rest) ← setOnce f.key (f.get draft) (f.typed.read depth) text
      return (f.put draft x, rest)) :=
  Field.dispatch_of_mem layout.apart hf

theorem member_of_not_mem (hkey : key ∉ layout.keys) (depth : Nat) (draft : σ) (text : Text) :
    layout.member depth draft key text = layout.readOther depth draft key text :=
  Field.dispatch_of_not_mem hkey

theorem step_of_mem (hf : f ∈ layout.fields) (draft : σ) (t : Tree) :
    layout.step draft (f.key, t) =
      (takeOnce (f.get draft) (f.typed.view t)).map (f.put draft) :=
  Field.dispatch_of_mem layout.apart hf

theorem step_of_not_mem (hkey : m.1 ∉ layout.keys) (draft : σ) :
    layout.step draft m = some (layout.keep draft m) :=
  Field.dispatch_of_not_mem hkey

/-- **What a step can do**: it turns a field that has not been seen, or keeps the member. -/
theorem step_cases (h : layout.step before m = some after) :
    (∃ f ∈ layout.fields, m.1 = f.key ∧ f.get before = none ∧
      ∃ x, f.typed.view m.2 = some x ∧ f.put before x = after) ∨
    m.1 ∉ layout.keys ∧ layout.keep before m = after := by
  by_cases hkey : m.1 ∈ layout.keys
  · obtain ⟨f, hf, hkey⟩ := mem_keys_iff.1 hkey
    obtain ⟨k, t⟩ := m
    obtain rfl : f.key = k := hkey
    rw [step_of_mem hf, Option.map_eq_some_iff] at h
    obtain ⟨x, hx, hput⟩ := h
    obtain ⟨hnone, hx⟩ := takeOnce_eq_some_iff.1 hx
    exact Or.inl ⟨f, hf, rfl, hnone, x, hx, hput⟩
  · rw [step_of_not_mem hkey] at h
    exact Or.inr ⟨hkey, Option.some.inj h⟩

/-- And what reading a member can do, if it succeeds. -/
theorem member_cases (h : layout.member depth before key text = .ok (after, rest)) :
    (∃ f ∈ layout.fields, f.key = key ∧ f.get before = none ∧
      ∃ behind x, readColon text = .ok behind ∧ f.typed.read depth behind = .ok (x, rest) ∧
        f.put before x = after) ∨
    key ∉ layout.keys ∧ layout.readOther depth before key text = .ok (after, rest) := by
  by_cases hkey : key ∈ layout.keys
  · obtain ⟨f, hf, rfl⟩ := mem_keys_iff.1 hkey
    rw [member_of_mem hf] at h
    obtain ⟨⟨x, left⟩, hset, h⟩ := bind_eq_ok_iff.1 h
    obtain ⟨hput, rfl⟩ := Prod.mk.inj (Except.ok.inj h)
    obtain ⟨hnone, behind, hcolon, hread⟩ := setOnce_eq_ok hset
    exact Or.inl ⟨f, hf, rfl, hnone, behind, x, hcolon, hread, hput⟩
  · rw [member_of_not_mem hkey] at h
    exact Or.inr ⟨hkey, h⟩

/-! ### All members -/

theorem holds_start : layout.Holds [] layout.start where
  field f hf := by
    rw [layout.get_start f hf]
    rfl
  body b hb := layout.body_start b hb

/-- **One more member** keeps the draft what the members say. -/
theorem Holds.step (h : layout.Holds done before) (hstep : layout.step before m = some after) :
    layout.Holds (done ++ [m]) after := by
  obtain ⟨f, hf, hkey, hnone, x, hx, rfl⟩ | ⟨hkey, rfl⟩ := step_cases hstep
  · obtain ⟨k, t⟩ := m
    obtain rfl : k = f.key := hkey
    have hmem : f.key ∈ layout.keys := mem_keys_iff.2 ⟨f, hf, rfl⟩
    refine ⟨fun g hg ↦ ?_, fun b hb ↦ ?_⟩
    -- the field turns, and those that are apart from it do not
    · by_cases hne : f.key = g.key
      · obtain rfl := eq_of_key_eq hf hg hne
        rw [f.get_put]
        exact fieldIs_concat_self_iff.2 ⟨hnone ▸ h.field f hf, x, hx, rfl⟩
      · rw [get_put_of_ne hf hg hne]
        exact (fieldIs_concat_of_ne hne).2 (h.field g hg)
    · rw [layout.body_put b hb f hf, membersWithout_concat, if_pos hmem]
      exact h.body b hb
  · refine ⟨fun g hg ↦ ?_, fun b hb ↦ ?_⟩
    · have hne : m.1 ≠ g.key := fun heq ↦ hkey (mem_keys_iff.2 ⟨g, hg, heq.symm⟩)
      rw [get_keep hg]
      exact (fieldIs_concat_of_ne hne).2 (h.field g hg)
    · rw [body_keep hb, membersWithout_concat, if_neg hkey, h.body b hb]

theorem holds_of_foldlM (h : members.foldlM layout.step layout.start = some draft) :
    layout.Holds members draft := by
  -- from the end, since the invariant speaks of the members so far
  induction members using List.reverseRecOn generalizing draft with
  | nil =>
    obtain rfl := Option.some.inj h
    exact holds_start
  | append_singleton done m ih =>
    rw [List.foldlM_append] at h
    obtain ⟨before, hbefore, h⟩ := Option.bind_eq_some_iff.1 h
    exact (ih hbefore).step ((bind_pure _).symm.trans h)

/-- The members lead to a draft if each field can be seen in them. -/
theorem exists_foldlM
    (h : ∀ f ∈ layout.fields, ∃ x, FieldIs f.typed.view f.key members x) :
    ∃ draft, members.foldlM layout.step layout.start = some draft := by
  induction members using List.reverseRecOn with
  | nil => exact ⟨layout.start, rfl⟩
  | append_singleton done m ih =>
    obtain ⟨before, hbefore⟩ := ih fun f hf ↦
      let ⟨_, hx⟩ := h f hf
      exists_fieldIs_of_concat hx
    have hstep : ∃ after, layout.step before m = some after := by
      by_cases hkey : m.1 ∈ layout.keys
      · obtain ⟨f, hf, hkey⟩ := mem_keys_iff.1 hkey
        obtain ⟨k, t⟩ := m
        obtain rfl : f.key = k := hkey
        obtain ⟨o, ho⟩ := h f hf
        obtain ⟨hnone, x, hx, -⟩ := fieldIs_concat_self_iff.1 ho
        have hempty : f.get before = none := ((holds_of_foldlM hbefore).field f hf).unique hnone
        exact ⟨f.put before x, by rw [step_of_mem hf, hempty, hx]; rfl⟩
      · exact ⟨_, step_of_not_mem hkey before⟩
    obtain ⟨after, hafter⟩ := hstep
    refine ⟨after, ?_⟩
    rw [List.foldlM_append, hbefore]
    exact (bind_pure _).trans hafter

/-- **The members lead to a draft that is finished as what they describe**, in whatever order they
come. -/
theorem exists_foldlM_iff : (∃ draft, members.foldlM layout.step layout.start = some draft ∧
    layout.finish draft = .ok record) ↔ layout.Describes members record := by
  constructor
  · rintro ⟨draft, hfold, hfinish⟩
    have hholds := holds_of_foldlM hfold
    obtain ⟨hfields, hbody⟩ := (layout.finish_iff draft record).1 hfinish
    exact ⟨fun f hf ↦ ⟨f.get draft, hholds.field f hf, hfields f hf⟩,
      fun b hb ↦ hholds.body b hb ▸ hbody b hb⟩
  · rintro ⟨hfields, hbody⟩
    obtain ⟨draft, hfold⟩ := exists_foldlM fun f hf ↦
      let ⟨x, hx, _⟩ := hfields f hf
      ⟨x, hx⟩
    have hholds := holds_of_foldlM hfold
    refine ⟨draft, hfold, (layout.finish_iff draft record).2 ⟨fun f hf ↦ ?_, fun b hb ↦ ?_⟩⟩
    · obtain ⟨x, hx, hmakes⟩ := hfields f hf
      exact (hholds.field f hf).unique hx ▸ hmakes
    · exact hholds.body b hb ▸ hbody b hb

/-! ### Reading -/

/-- A field is seen by its value. -/
theorem gives_member {behind : Text} {t : Tree} (hf : f ∈ layout.fields)
    (hcolon : readColon text = .ok behind) (htree : readTree depth behind = .ok (t, rest))
    (draft : σ) :
    Gives (layout.step draft (f.key, t)) (layout.member depth draft f.key text) rest := by
  rw [step_of_mem hf, member_of_mem hf]
  exact (gives_setOnce f.typed.sees hcolon htree _ _).map _

/-- Where members of no field are kept, every member is seen. -/
theorem seesMember (hb : b ∈ layout.body) (depth : Nat) :
    SeesMember depth (layout.member depth) layout.step := by
  intro draft key text behind rest t hcolon htree
  by_cases hkey : key ∈ layout.keys
  · obtain ⟨f, hf, rfl⟩ := mem_keys_iff.1 hkey
    exact gives_member hf hcolon htree draft
  · have hstep : layout.step draft (key, t) = _ := step_of_not_mem hkey draft
    rw [hstep, member_of_not_mem hkey, readOther, keep, Option.mem_def.1 hb]
    dsimp only
    rw [treeMember_of_eq_ok hcolon htree]
    exact gives_ok

/-- **A text is read as the record that its members describe**, and not read if they describe
none. -/
theorem readWhole_eq_ok_iff {expected : Expected} (hb : b ∈ layout.body)
    (h : readDocument text = .ok (.object members)) :
    readWhole (readObject expected layout.start layout.member layout.finish depthLimit) text =
      .ok record ↔ layout.Describes members record := by
  have hgives : ∀ {rest}, readTree depthLimit text = .ok (.object members, rest) →
      Gives (members.foldlM layout.step layout.start >>= fun draft ↦ (layout.finish draft).toOption)
        (readObject expected layout.start layout.member layout.finish depthLimit text) rest :=
    sees_readObject (seesMember hb)
  rw [Json.readWhole_eq_ok_iff hgives h, Option.bind_eq_bind, Option.bind_eq_some_iff,
    ← exists_foldlM_iff]
  simp only [toOption_eq_some_iff]

/-- No member with the key of a field gets into the body of a draft. -/
theorem member_keeps (hb : b ∈ layout.body) (hbefore : ∀ m ∈ b.get before, m.1 ∉ layout.keys)
    (h : layout.member depth before key text = .ok (after, rest)) :
    ∀ m ∈ b.get after, m.1 ∉ layout.keys := by
  obtain ⟨f, hf, -, -, -, x, -, -, rfl⟩ | ⟨hkey, h⟩ := member_cases h
  · rw [layout.body_put b hb f hf]
    exact hbefore
  · rw [readOther, Option.mem_def.1 hb] at h
    obtain ⟨⟨members, left⟩, hmember, h⟩ := bind_eq_ok_iff.1 h
    obtain ⟨rfl, -⟩ := Prod.mk.inj (Except.ok.inj h)
    obtain ⟨-, t, -, -, rfl⟩ := treeMember_eq_ok hmember
    rw [b.get_put]
    exact List.forall_mem_append.2 ⟨hbefore, List.forall_mem_singleton.2 hkey⟩

/-- **The body of what was read has no member with the key of a field**, whatever the text was: a
member with such a key goes to its field or is refused. -/
theorem keys_apart {expected : Expected} (hb : b ∈ layout.body)
    (h : readWhole (readObject expected layout.start layout.member layout.finish depth) text =
      .ok record) : ∀ key ∈ (b.made record).keys, key ∉ layout.keys := by
  obtain ⟨rest, hread, -⟩ := readWhole_eq_ok_iff_exists.1 h
  have hstart : ∀ m ∈ b.get layout.start, m.1 ∉ layout.keys := by
    rw [layout.body_start b hb]
    exact fun _ hm ↦ absurd hm List.not_mem_nil
  obtain ⟨draft, hdraft, hfinish⟩ := exists_of_readObject_eq_ok
    (P := fun draft ↦ ∀ m ∈ b.get draft, m.1 ∉ layout.keys) hstart (member_keeps hb) hread
  rw [((layout.finish_iff draft record).1 hfinish).2 b hb]
  intro key hkey
  obtain ⟨e, he, rfl⟩ := List.mem_map.1 hkey
  obtain ⟨m, hm, rfl⟩ := List.mem_map.1 (Table.mem_of_mem_toList_ofList he)
  exact hdraft m hm

/-! ### Writing -/

section Writing

variable (hb : b ∈ layout.body) (hfields : ∀ f ∈ layout.fields, f.typed.ReadsBack)

include hb hfields

/-- What is written of a member does to a draft what the member is seen to do. -/
theorem takes_of_step (hlegible : m.2.Legible) (h : layout.step before m = some after) :
    Takes layout.member before m after := by
  obtain ⟨f, hf, hkey, hnone, x, hx, rfl⟩ | ⟨hkey, rfl⟩ := step_cases h
  · obtain ⟨k, t⟩ := m
    obtain rfl : k = f.key := hkey
    exact takes_field (hfields f hf hx) fun depth text ↦ by rw [member_of_mem hf, hnone]
  · intro depth rest hrest
    rw [member_of_not_mem hkey, readOther, keep, Option.mem_def.1 hb]
    exact (takes_treeMember (reads_readTree m.2 hlegible) _ depth rest hrest).bind_ok rfl

theorem takesAll_of_foldlM (hlegible : ∀ m ∈ members, m.2.Legible)
    (h : members.foldlM layout.step before = some after) :
    TakesAll layout.member before members after := by
  induction members generalizing before with
  | nil =>
    obtain rfl := Option.some.inj h
    exact .nil
  | cons m members ih =>
    obtain ⟨hm, hlegible⟩ := List.forall_mem_cons.1 hlegible
    rw [List.foldlM_cons] at h
    obtain ⟨between, hbetween, h⟩ := Option.bind_eq_some_iff.1 h
    exact .cons (takes_of_step hb hfields hm hbetween) (ih hlegible h)

/-- **Written members that describe a record are read back as it.** -/
theorem reads_of_describes {expected : Expected} (hlegible : (Tree.object members).Legible)
    (h : layout.Describes members record) :
    Reads (readObject expected layout.start layout.member layout.finish) (.object members)
      record := by
  obtain ⟨draft, hfold, hfinish⟩ := exists_foldlM_iff.2 h
  exact reads_readObject
    (takesAll_of_foldlM hb hfields (Tree.legible_object_iff.1 hlegible) hfold) hfinish

end Writing

end Layout

end HighlightBundle.Json
