/-!
# Tables with string keys

A `Table` maps strings to values. It is kept as the list of its entries in strictly increasing
order of the keys, so two tables with the same entries are equal, whatever the order in which the
entries came in; nothing that reads a table can depend on that order. Strings are ordered by code
points.

The view of a table is `get?`. `insert` puts a value under a key and replaces the one that was
there; `ofList` inserts the entries of a list from left to right, so the last of several entries
with one key counts.
-/

namespace HighlightBundle

/-- The entries with one more, at its place; an entry with the same key is replaced. -/
def insertEntry {α : Type} (key : String) (value : α) : List (String × α) → List (String × α)
  | [] => [(key, value)]
  | (k, v) :: rest =>
    if key < k then (key, value) :: (k, v) :: rest
    else if key = k then (key, value) :: rest
    else (k, v) :: insertEntry key value rest

/-- The keys strictly increase. -/
def Ascending {α : Type} (entries : List (String × α)) : Prop :=
  entries.Pairwise fun a b ↦ a.1 < b.1

theorem mem_insertEntry {α : Type} {key : String} {value : α} {entries : List (String × α)}
    {e : String × α} (h : e ∈ insertEntry key value entries) : e = (key, value) ∨ e ∈ entries := by
  induction entries with
  | nil => simpa [insertEntry] using h
  | cons f rest ih =>
    obtain ⟨k, v⟩ := f
    simp only [insertEntry] at h
    split at h
    · simpa using h
    · split at h
      · rcases List.mem_cons.1 h with h | h
        · exact .inl h
        · exact .inr (List.mem_cons_of_mem _ h)
      · rcases List.mem_cons.1 h with h | h
        · exact .inr (h ▸ List.mem_cons_self ..)
        · rcases ih h with h | h
          · exact .inl h
          · exact .inr (List.mem_cons_of_mem _ h)

theorem lt_of_not_lt_of_ne {a b : String} (h : ¬a < b) (hne : ¬a = b) : b < a := by
  rcases String.le_total a b with hab | hab
  · exact absurd (String.le_antisymm hab (String.not_lt.1 h)) hne
  · rcases Classical.em (b < a) with hlt | hlt
    · exact hlt
    · exact absurd (String.le_antisymm (String.not_lt.1 hlt) hab) hne

theorem ascending_insertEntry {α : Type} (key : String) (value : α) {entries : List (String × α)}
    (h : Ascending entries) : Ascending (insertEntry key value entries) := by
  induction entries with
  | nil => simp [insertEntry, Ascending]
  | cons f rest ih =>
    obtain ⟨k, v⟩ := f
    obtain ⟨hk, hrest⟩ := List.pairwise_cons.1 h
    simp only [insertEntry]
    split
    · rename_i hlt
      refine List.pairwise_cons.2 ⟨fun e he ↦ ?_, h⟩
      rcases List.mem_cons.1 he with rfl | he
      · exact hlt
      · exact String.lt_trans hlt (hk e he)
    · rename_i hlt
      split
      · rename_i heq
        exact List.pairwise_cons.2 ⟨fun e he ↦ heq ▸ hk e he, hrest⟩
      · rename_i hne
        refine List.pairwise_cons.2 ⟨fun e he ↦ ?_, ih hrest⟩
        rcases mem_insertEntry he with rfl | he
        · exact lt_of_not_lt_of_ne hlt hne
        · exact hk e he

/-- A finite map from strings. -/
structure Table (α : Type) where
  /-- The entries in increasing order of their keys. -/
  toList : List (String × α)
  ascending : Ascending toList
deriving DecidableEq

namespace Table

variable {α : Type}

/-- The table without entries. -/
def empty : Table α := ⟨[], List.Pairwise.nil⟩

/-- The table with the value under the key; what was there is replaced. -/
def insert (table : Table α) (key : String) (value : α) : Table α :=
  ⟨insertEntry key value table.toList, ascending_insertEntry key value table.ascending⟩

/-- The value under a key. -/
def get? (table : Table α) (key : String) : Option α :=
  table.toList.lookup key

/-- Whether there is a value under the key. -/
def contains (table : Table α) (key : String) : Bool :=
  (table.get? key).isSome

/-- The keys, in increasing order. -/
def keys (table : Table α) : List String :=
  table.toList.map Prod.fst

/-- The values, in the order of their keys. -/
def values (table : Table α) : List α :=
  table.toList.map Prod.snd

/-- The table with the entries inserted from left to right. -/
def insertAll (table : Table α) (entries : List (String × α)) : Table α :=
  entries.foldl (fun t e ↦ t.insert e.1 e.2) table

/-- The table of the entries; the last one with a key counts. -/
def ofList (entries : List (String × α)) : Table α :=
  empty.insertAll entries

/-- Entries with the same keys and with values that agree. -/
def entriesAgree (agree : α → α → Bool) : List (String × α) → List (String × α) → Bool
  | [], [] => true
  | (k, v) :: rest, (k', v') :: rest' => k == k' && agree v v' && entriesAgree agree rest rest'
  | _, _ => false

/-- The tables have the same keys, with values that agree. -/
def agrees (agree : α → α → Bool) (a b : Table α) : Bool :=
  entriesAgree agree a.toList b.toList

end Table

end HighlightBundle
