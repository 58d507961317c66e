import HighlightBundle.Json.Tree
import HighlightBundle.Proofs.TableLookup

/-!
# Canonical trees stay as they are

Making a tree canonical is what happens to it when it becomes a value, so a value that is written
and read again goes through it a second time. Nothing is left to do then (`canonical_eq_self`): the
members of every object are in order already, so each of them goes behind those that are done. A
table of values is therefore made again from the members that its entries are written as
(`Value.tableOf_membersOf`).
-/

namespace HighlightBundle.Json

namespace Tree

mutual

/-- What is canonical stays as it is. -/
theorem canonical_eq_self : (t : Tree) → t.Canonical → t.canonical = t
  | null, _ | boolean _, _ | number _, _ | string _, _ => rfl
  | array items, h => by
    rw [Canonical] at h
    rw [canonical, canonicalItems_eq_self items h]
  | object members, h => by
    rw [Canonical] at h
    rw [canonical, canonicalMembers_eq_append [] members h.1 h.2, List.nil_append]

theorem canonicalItems_eq_self : (items : List Tree) → CanonicalItems items →
    canonicalItems items = items
  | [], _ => rfl
  | t :: rest, h => by
    rw [CanonicalItems] at h
    rw [canonicalItems, canonical_eq_self t h.1, canonicalItems_eq_self rest h.2]

theorem canonicalMembers_eq_append (done : List (String × Tree)) :
    (members : List (String × Tree)) → Ascending (done ++ members) → CanonicalMembers members →
    canonicalMembers done members = done ++ members
  | [], _, _ => (List.append_nil done).symm
  | (k, t) :: rest, ha, h => by
    rw [CanonicalMembers] at h
    have hlast : insertEntry k t done = done ++ [(k, t)] :=
      Table.insertEntry_of_lt fun e he ↦
        (List.pairwise_append.1 ha).2.2 e he (k, t) List.mem_cons_self
    have hrest : Ascending ((done ++ [(k, t)]) ++ rest) := by
      rw [List.append_assoc]
      exact ha
    rw [canonicalMembers, canonical_eq_self t h.1, hlast,
      canonicalMembers_eq_append (done ++ [(k, t)]) rest hrest h.2, List.append_assoc,
      List.singleton_append]

end

end Tree

namespace Value

theorem ofTree_tree (value : Value) : ofTree value.tree = value := by
  obtain ⟨tree, hcanonical⟩ := value
  simp only [ofTree, tree.canonical_eq_self hcanonical]

/-- **The members that the entries of a table are make the same table again.** -/
theorem tableOf_membersOf (table : Table Value) : tableOf (membersOf table) = table := by
  have hentries : (membersOf table).map (fun m ↦ (m.1, ofTree m.2)) = table.toList := by
    have hid : ((fun m ↦ (m.1, ofTree m.2)) ∘ fun e : String × Value ↦ (e.1, e.2.tree)) = id :=
      funext fun e ↦ Prod.ext rfl (ofTree_tree e.2)
    rw [membersOf, List.map_map, hid, List.map_id]
  rw [tableOf, hentries, Table.ofList_toList]

theorem fst_mem_keys {table : Table Value} {m : String × Tree} (h : m ∈ membersOf table) :
    m.1 ∈ table.keys := by
  obtain ⟨e, he, rfl⟩ := List.mem_map.1 h
  exact List.mem_map_of_mem he

end Value

end HighlightBundle.Json
