import HighlightBundle.Bundle.Basic

/-!
# The first of each name

`Bundle.firstOfName` goes through a list of definitions and keeps those whose name has not occurred
yet. The names of what is kept are distinct (`nodup_firstOfName`), and what is kept before a
definition is what would be kept of the part of the list before it (`exists_split_firstOfName`), so
the order is that of the first occurrences.

A definition is left out only for another one of its name. Where a name stands for one definition,
in a list with `OneOfName`, nothing is left out but repetitions and the names that were seen
(`mem_firstOfName_iff`).
-/

namespace HighlightBundle.Bundle

variable {seen : List String} {languages : List Language} {x : Language}

/-- Definitions in the list that have one name are one definition. -/
def OneOfName (languages : List Language) : Prop :=
  ∀ x ∈ languages, ∀ y ∈ languages, x.name = y.name → x = y

instance (languages : List Language) : Decidable (OneOfName languages) :=
  inferInstanceAs (Decidable (∀ x ∈ languages, ∀ y ∈ languages, x.name = y.name → x = y))

theorem firstOfName_cons_of_mem (h : x.name ∈ seen) :
    firstOfName seen (x :: languages) = firstOfName seen languages := by
  rw [firstOfName, if_pos h]

theorem firstOfName_cons_of_not_mem (h : x.name ∉ seen) :
    firstOfName seen (x :: languages) = x :: firstOfName (x.name :: seen) languages := by
  rw [firstOfName, if_neg h]

theorem mem_of_mem_firstOfName (h : x ∈ firstOfName seen languages) :
    x ∈ languages ∧ x.name ∉ seen := by
  induction languages generalizing seen with
  | nil => exact absurd h List.not_mem_nil
  | cons first rest ih =>
    by_cases hseen : first.name ∈ seen
    · rw [firstOfName_cons_of_mem hseen] at h
      exact (ih h).imp_left (List.mem_cons_of_mem first)
    · rw [firstOfName_cons_of_not_mem hseen] at h
      rcases List.mem_cons.1 h with rfl | h
      · exact ⟨List.mem_cons_self, hseen⟩
      · obtain ⟨hmem, hnot⟩ := ih h
        exact ⟨List.mem_cons_of_mem first hmem, fun hx ↦ hnot (List.mem_cons_of_mem _ hx)⟩

/-- **The names of what is kept are distinct.** -/
theorem nodup_firstOfName (seen : List String) (languages : List Language) :
    ((firstOfName seen languages).map Language.name).Nodup := by
  induction languages generalizing seen with
  | nil => exact List.nodup_nil
  | cons first rest ih =>
    by_cases hseen : first.name ∈ seen
    · rw [firstOfName_cons_of_mem hseen]
      exact ih seen
    · rw [firstOfName_cons_of_not_mem hseen, List.map_cons, List.nodup_cons]
      refine ⟨fun hmem ↦ ?_, ih _⟩
      obtain ⟨y, hy, hname⟩ := List.mem_map.1 hmem
      exact (mem_of_mem_firstOfName hy).2 (hname ▸ List.mem_cons_self)

/-- Every name that has not been seen is kept. -/
theorem exists_mem_firstOfName (h : x ∈ languages) (hseen : x.name ∉ seen) :
    ∃ y ∈ firstOfName seen languages, y.name = x.name := by
  induction languages generalizing seen with
  | nil => exact absurd h List.not_mem_nil
  | cons first rest ih =>
    by_cases hfirst : first.name ∈ seen
    · rw [firstOfName_cons_of_mem hfirst]
      rcases List.mem_cons.1 h with rfl | h
      · exact absurd hfirst hseen
      · exact ih h hseen
    · rw [firstOfName_cons_of_not_mem hfirst]
      by_cases hname : first.name = x.name
      · exact ⟨first, List.mem_cons_self, hname⟩
      · have hrest : x ∈ rest := (List.mem_cons.1 h).resolve_left fun heq ↦ hname (heq ▸ rfl)
        have hnot : x.name ∉ first.name :: seen := fun hx ↦
          (List.mem_cons.1 hx).elim (fun heq ↦ hname heq.symm) hseen
        obtain ⟨y, hy, hyname⟩ := ih hrest hnot
        exact ⟨y, List.mem_cons_of_mem first hy, hyname⟩

/-- **Where a name stands for one definition, all of them are kept** whose names were not seen. -/
theorem mem_firstOfName_iff (hone : OneOfName languages) :
    x ∈ firstOfName seen languages ↔ x ∈ languages ∧ x.name ∉ seen := by
  refine ⟨mem_of_mem_firstOfName, fun ⟨hmem, hseen⟩ ↦ ?_⟩
  obtain ⟨y, hy, hname⟩ := exists_mem_firstOfName hmem hseen
  rwa [← hone y (mem_of_mem_firstOfName hy).1 x hmem hname]

/-- **Before a definition that is kept** stands what is kept of the list before it. -/
theorem exists_split_firstOfName {before after : List Language}
    (h : firstOfName seen languages = before ++ x :: after) :
    ∃ front back, languages = front ++ x :: back ∧ before = firstOfName seen front := by
  induction languages generalizing seen before with
  | nil => exact absurd h.symm (List.append_ne_nil_of_right_ne_nil _ (List.cons_ne_nil _ _))
  | cons first rest ih =>
    by_cases hseen : first.name ∈ seen
    · rw [firstOfName_cons_of_mem hseen] at h
      obtain ⟨front, back, rfl, rfl⟩ := ih h
      exact ⟨first :: front, back, rfl, (firstOfName_cons_of_mem hseen).symm⟩
    · rw [firstOfName_cons_of_not_mem hseen] at h
      rcases before with - | ⟨y, before⟩
      · obtain ⟨rfl, -⟩ := List.cons.inj h
        exact ⟨[], rest, rfl, rfl⟩
      · obtain ⟨rfl, hrest⟩ := List.cons.inj h
        obtain ⟨front, back, rfl, rfl⟩ := ih hrest
        exact ⟨first :: front, back, rfl, (firstOfName_cons_of_not_mem hseen).symm⟩

end HighlightBundle.Bundle
