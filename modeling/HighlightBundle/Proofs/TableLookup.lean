import HighlightBundle.Table

/-!
# What is found in a table

The laws of `Table.get?` for everything that builds a table. Inserting a list of entries is the one
operation that all loading goes through, so its law comes in two forms:

* `get?_insertAll` says which value a key has afterwards, the one of the **last** entry with that
  key, and otherwise what was there;
* `contains_insertAll` says which keys there are, where the order of the entries does not matter.

The laws of look-up do not use that the entries of a table are in order: `lookup` finds the entry
wherever it is. The order makes equal tables equal, so a table is what its entries make, in whatever
order they come (`ofList_of_perm`).
-/

namespace HighlightBundle.Table

variable {α : Type} {table : Table α} {entries : List (String × α)} {key other : String} {value : α}

/-! ### One entry -/

/-- The entry in front is found first, compared by equality of the keys. -/
theorem lookup_cons_eq_ite (rest : List (String × α)) :
    ((key, value) :: rest).lookup other =
      if other = key then some value else rest.lookup other := by
  rw [List.lookup_cons]
  by_cases h : other = key
  · rw [if_pos h, beq_iff_eq.2 h]
  · rw [if_neg h, beq_eq_false_iff_ne.2 h]

/-- Putting an entry at its place is seen at its key and nowhere else. -/
theorem lookup_insertEntry (entries : List (String × α)) :
    (insertEntry key value entries).lookup other =
      if other = key then some value else entries.lookup other := by
  induction entries with
  | nil => rw [insertEntry, lookup_cons_eq_ite]
  | cons e rest ih =>
    obtain ⟨k, v⟩ := e
    rw [insertEntry]
    -- the new entry goes in front, replaces the first one, or goes further down
    split
    · rw [lookup_cons_eq_ite]
    · split
      · rename_i hk
        subst hk
        rw [lookup_cons_eq_ite, lookup_cons_eq_ite]
        split <;> rfl
      · rename_i hk
        rw [lookup_cons_eq_ite, lookup_cons_eq_ite, ih]
        by_cases h : other = k
        · rw [if_pos h, if_neg (h ▸ Ne.symm hk), if_pos h]
        · rw [if_neg h, if_neg h]

theorem get?_insert : (table.insert key value).get? other =
    if other = key then some value else table.get? other :=
  lookup_insertEntry table.toList

@[simp]
theorem get?_insert_self : (table.insert key value).get? key = some value := by
  rw [get?_insert, if_pos rfl]

theorem contains_iff_exists : table.contains key = true ↔ ∃ value, table.get? key = some value :=
  Option.isSome_iff_exists

theorem contains_insert : (table.insert key value).contains other = true ↔
    other = key ∨ table.contains other = true := by
  rw [contains, get?_insert]
  by_cases h : other = key <;> simp [h, contains]

/-! ### A list of entries -/

@[simp]
theorem insertAll_nil : table.insertAll [] = table :=
  rfl

theorem insertAll_cons : table.insertAll ((key, value) :: entries) =
    (table.insert key value).insertAll entries :=
  rfl

theorem insertAll_append (first second : List (String × α)) :
    table.insertAll (first ++ second) = (table.insertAll first).insertAll second :=
  List.foldl_append

/-- **The last entry with a key counts.** Without one, the table has what it had. -/
theorem get?_insertAll (entries : List (String × α)) :
    (table.insertAll entries).get? key = (entries.reverse.lookup key).or (table.get? key) := by
  induction entries generalizing table with
  | nil => simp
  | cons e rest ih =>
    obtain ⟨k, v⟩ := e
    rw [insertAll_cons, ih, List.reverse_cons, List.lookup_append, get?_insert,
      lookup_cons_eq_ite]
    by_cases h : key = k <;> simp [h]

/-- An entry that none with its key follows is what is found. -/
theorem get?_insertAll_last (first : List (String × α)) :
    (table.insertAll (first ++ [(key, value)])).get? key = some value := by
  rw [insertAll_append, insertAll_cons, insertAll_nil, get?_insert_self]

/-- One value under several keys is found under each of them. -/
theorem get?_insertAll_map_const (keys : List String) :
    (table.insertAll (keys.map fun k ↦ (k, value))).get? key =
      if key ∈ keys then some value else table.get? key := by
  induction keys generalizing table with
  | nil => rfl
  | cons k rest ih =>
    rw [List.map_cons, insertAll_cons, ih, get?_insert]
    by_cases hk : key = k <;> simp [hk]

/-- **The keys afterwards** are those of the entries and those that were there. -/
theorem contains_insertAll : (table.insertAll entries).contains key = true ↔
    key ∈ entries.map Prod.fst ∨ table.contains key = true := by
  induction entries generalizing table with
  | nil => simp
  | cons e rest ih =>
    obtain ⟨k, v⟩ := e
    rw [insertAll_cons, ih, contains_insert, List.map_cons, List.mem_cons, or_left_comm,
      or_assoc]

/-- No key is lost. -/
theorem contains_insertAll_of_contains (h : table.contains key = true) :
    (table.insertAll entries).contains key = true :=
  contains_insertAll.2 (Or.inr h)

theorem mem_of_lookup_eq_some (h : entries.lookup key = some value) : (key, value) ∈ entries := by
  obtain ⟨before, after, rfl, -⟩ := List.lookup_eq_some_iff.1 h
  exact List.mem_append_right _ List.mem_cons_self

/-- Under the key of an entry the value of an entry is found. -/
theorem exists_mem_get?_insertAll (h : key ∈ entries.map Prod.fst) :
    ∃ value, (key, value) ∈ entries ∧ (table.insertAll entries).get? key = some value := by
  rw [get?_insertAll]
  rcases hl : entries.reverse.lookup key with - | value
  · obtain ⟨e, he, rfl⟩ := List.mem_map.1 h
    have hne := List.lookup_eq_none_iff.1 hl e (List.mem_reverse.2 he)
    exact absurd rfl (bne_iff_ne.1 hne)
  · exact ⟨value, List.mem_reverse.1 (mem_of_lookup_eq_some hl), rfl⟩

/-- Every entry of the table is one of those inserted, or was there before. -/
theorem mem_toList_insertAll {e : String × α} (h : e ∈ (table.insertAll entries).toList) :
    e ∈ entries ∨ e ∈ table.toList := by
  induction entries generalizing table with
  | nil => exact Or.inr h
  | cons f rest ih =>
    obtain ⟨k, v⟩ := f
    rcases ih h with hmem | hmem
    · exact Or.inl (List.mem_cons_of_mem _ hmem)
    · rcases mem_insertEntry hmem with rfl | hmem
      · exact Or.inl List.mem_cons_self
      · exact Or.inr hmem

theorem mem_of_mem_toList_ofList {e : String × α} (h : e ∈ (ofList entries).toList) :
    e ∈ entries :=
  (mem_toList_insertAll h).resolve_right List.not_mem_nil

/-! ### A table is what its entries make -/

theorem eq_of_toList_eq {other : Table α} (h : table.toList = other.toList) : table = other := by
  cases table
  cases other
  cases h
  rfl

/-- An entry with a greater key than all others goes to the end. -/
theorem insertEntry_of_lt {entries : List (String × α)} (h : ∀ e ∈ entries, e.1 < key) :
    insertEntry key value entries = entries ++ [(key, value)] := by
  induction entries with
  | nil => rfl
  | cons e rest ih =>
    obtain ⟨k, v⟩ := e
    have hk : k < key := h (k, v) List.mem_cons_self
    have hne : key ≠ k := fun heq ↦ String.lt_irrefl k (heq ▸ hk)
    rw [insertEntry, if_neg (String.lt_asymm hk), if_neg hne,
      ih fun e he ↦ h e (List.mem_cons_of_mem _ he), List.cons_append]

/-- An entry with a new key is one more. -/
theorem insertEntry_perm (h : key ∉ entries.map Prod.fst) :
    (insertEntry key value entries).Perm ((key, value) :: entries) := by
  induction entries with
  | nil => exact .refl _
  | cons e rest ih =>
    obtain ⟨k, v⟩ := e
    have hne : ¬key = k := fun heq ↦ h (heq ▸ List.mem_cons_self)
    have hrest : key ∉ rest.map Prod.fst := fun hmem ↦ h (List.mem_cons_of_mem _ hmem)
    rw [insertEntry]
    split
    · exact .refl _
    · exact ((ih hrest).cons (k, v)).trans (.swap _ _ _)

/-- Entries whose keys are all different, and new, are all kept. -/
theorem toList_insertAll_perm (h : ((table.toList ++ entries).map Prod.fst).Nodup) :
    (table.insertAll entries).toList.Perm (table.toList ++ entries) := by
  induction entries generalizing table with
  | nil =>
    rw [List.append_nil]
    exact .refl _
  | cons e rest ih =>
    obtain ⟨k, v⟩ := e
    have hmiddle : (table.toList ++ (k, v) :: rest).Perm ((k, v) :: table.toList ++ rest) :=
      List.perm_middle
    have hnodup := (hmiddle.map Prod.fst).nodup_iff.1 h
    have hnew : k ∉ table.toList.map Prod.fst := fun hmem ↦
      (List.nodup_cons.1 hnodup).1 (List.map_append ▸ List.mem_append_left _ hmem)
    have hinsert : (table.insert k v).toList.Perm ((k, v) :: table.toList) :=
      insertEntry_perm hnew
    have hrest := ih (((hinsert.append_right rest).map Prod.fst).nodup_iff.2 hnodup)
    exact hrest.trans ((hinsert.append_right rest).trans hmiddle.symm)

theorem nodup_keys (table : Table α) : (table.toList.map Prod.fst).Nodup :=
  List.pairwise_map.2 (table.ascending.imp fun {a b} hlt (heq : a.1 = b.1) ↦
    String.lt_irrefl b.1 (heq ▸ hlt))

/-- **In whatever order they come, the entries of a table make it again.** -/
theorem ofList_of_perm (h : entries.Perm table.toList) : ofList entries = table := by
  have hnodup : ((empty.toList ++ entries).map Prod.fst).Nodup :=
    (h.map Prod.fst).nodup_iff.2 table.nodup_keys
  have hperm : (ofList entries).toList.Perm table.toList := (toList_insertAll_perm hnodup).trans h
  refine eq_of_toList_eq (hperm.eq_of_pairwise ?_ (ofList entries).ascending table.ascending)
  exact fun a b _ _ hab hba ↦ absurd hba (String.lt_asymm hab)

/-- The entries of a table make the same table again. -/
@[simp]
theorem ofList_toList (table : Table α) : ofList table.toList = table :=
  ofList_of_perm (.refl _)

/-- In the table of some entries the last one with the key is found. -/
theorem get?_ofList (entries : List (String × α)) :
    (ofList entries).get? key = entries.reverse.lookup key :=
  (get?_insertAll entries).trans Option.or_none

/-- It makes no difference from which end an entry is looked for. -/
theorem lookup_reverse (table : Table α) (key : String) :
    table.toList.reverse.lookup key = table.get? key := by
  rw [← get?_ofList, ofList_toList]

/-- What is found in a table is what its entries say. -/
theorem mem_toList_iff : (key, value) ∈ table.toList ↔ table.get? key = some value := by
  refine ⟨fun hmem ↦ ?_, mem_of_lookup_eq_some⟩
  obtain ⟨before, after, hsplit⟩ := List.mem_iff_append.1 hmem
  have hnodup := table.nodup_keys
  rw [hsplit, List.map_append, List.nodup_append] at hnodup
  refine List.lookup_eq_some_iff.2 ⟨before, after, hsplit, fun e he ↦ bne_iff_ne.2 ?_⟩
  exact (hnodup.2.2 e.1 (List.mem_map_of_mem he) key List.mem_cons_self).symm

/-- Entries in ascending order are in the only order that is ascending. -/
theorem eq_of_ascending {others : List (String × α)} (hentries : Ascending entries)
    (hothers : Ascending others) (h : ∀ e, e ∈ entries ↔ e ∈ others) : entries = others := by
  have hnodup {xs : List (String × α)} (hxs : Ascending xs) : xs.Nodup :=
    hxs.imp fun {a b} hlt (heq : a = b) ↦ String.lt_irrefl b.1 (heq ▸ hlt)
  have hperm : entries.Perm others :=
    (List.perm_ext_iff_of_nodup (hnodup hentries) (hnodup hothers)).2 h
  have htable : (⟨entries, hentries⟩ : Table α) = ⟨others, hothers⟩ :=
    (ofList_toList _).symm.trans (ofList_of_perm hperm)
  exact congrArg toList htable

/-- **Tables in which the same is found are the same.** -/
theorem eq_of_get?_eq {other : Table α} (h : ∀ key, table.get? key = other.get? key) :
    table = other :=
  eq_of_toList_eq <| eq_of_ascending table.ascending other.ascending fun e ↦ by
    rw [mem_toList_iff, mem_toList_iff, h]

end HighlightBundle.Table
