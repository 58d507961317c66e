import HighlightBundle.Files
import HighlightBundle.Proofs.MayFail

/-!
# What was written is read

A file that was written to a path is read from it (`Files.read_of_write`). The path is followed
twice, before and after the file is there, and its way leads through directories only: the file
stands where no directory was, so the second way is the first one (`follow_put`) with one more step.
-/

namespace HighlightBundle.Files

variable {files later : Files} {place target : Place} {node : Node} {path name : String}
  {content : Content}

/-! ### One more node -/

theorem node?_put_self (h : target.names.isEmpty = false) :
    (files.put target node).node? target = some node := by
  rw [node?, h, put]
  exact List.lookup_cons_self

theorem node?_put_of_ne (h : place ≠ target) :
    (files.put target node).node? place = files.node? place := by
  have hlookup : (files.put target node).nodes.lookup place = files.nodes.lookup place := by
    rw [put, List.lookup_cons, beq_eq_false_iff_ne.2 h]
  rw [node?, node?, hlookup]

/-! ### Following paths -/

/-- A path that ends in a directory starts from one. -/
theorem isDirectory_of_follow {steps : List String} (h : files.follow place steps = .ok target)
    (htarget : files.node? target = some .directory) : files.node? place = some .directory := by
  cases steps with
  | nil => exact Except.ok.inj h ▸ htarget
  | cons step rest =>
    rw [follow] at h
    split at h
    · assumption
    · exact absurd h nofun
    · exact absurd h nofun

theorem follow_append (files : Files) (place : Place) (first second : List String) :
    files.follow place (first ++ second) =
      files.follow place first >>= fun place ↦ files.follow place second := by
  induction first generalizing place with
  | nil => rfl
  | cons step rest ih =>
    rw [List.cons_append, follow, follow]
    split
    · split
      · exact ih _
      · split
        · exact ih _
        · split
          · rfl
          · split
            · exact ih _
            · rfl
    · rfl
    · rfl

/-- The way to a directory stays the same when something is put where no directory is. -/
theorem follow_put {steps : List String} {last : Place}
    (htarget : files.node? target ≠ some .directory)
    (hlast : files.node? last = some .directory) (h : files.follow place steps = .ok last) :
    (files.put target node).follow place steps = .ok last := by
  have hkept : ∀ {p}, files.node? p = some .directory →
      (files.put target node).node? p = some .directory := fun {p} hp ↦ by
    have hne : p ≠ target := by
      rintro rfl
      exact htarget hp
    rw [node?_put_of_ne hne, hp]
  induction steps generalizing place with
  | nil => exact h
  | cons step rest ih =>
    have hplace := isDirectory_of_follow h hlast
    rw [follow, hkept hplace]
    rw [follow, hplace] at h
    dsimp only at h ⊢
    by_cases hstill : Path.isStill step = true
    · rw [if_pos hstill] at h ⊢
      exact ih h
    · rw [if_neg hstill] at h ⊢
      by_cases hup : Path.isUp step = true
      · rw [if_pos hup] at h ⊢
        exact ih h
      · rw [if_neg hup] at h ⊢
        by_cases hlong : 255 < step.utf8ByteSize
        · rw [if_pos hlong] at h
          exact absurd h nofun
        · rw [if_neg hlong] at h ⊢
          rcases hchild : files.node? (place.child step) with - | found <;> rw [hchild] at h
          · exact absurd h nofun
          · rw [hkept (isDirectory_of_follow h hlast)]
            exact ih h

/-! ### Writing and reading -/

/-- A file can be written to the path: it has the name in the directory at the place. -/
structure WritesAt (files : Files) (path : String) (before : List String) (place : Place)
    (name : String) : Prop where
  valid : pathFailure? path = none
  steps : Path.steps path = before ++ [name]
  follow : files.follow (Path.start path) before = .ok place
  directory : files.node? place = some .directory
  not_still : Path.isStill name = false
  not_up : Path.isUp name = false
  short : name.utf8ByteSize ≤ 255
  free : files.node? (place.child name) ≠ some .directory

theorem exists_of_write_eq_ok (h : files.write path content = .ok later) :
    ∃ before place name, files.WritesAt path before place name ∧
      later = files.put (place.child name) (.file content) := by
  rw [write] at h
  rcases hvalid : pathFailure? path with - | failure <;> rw [hvalid] at h
  · obtain ⟨place, hfollow, h⟩ := bind_eq_ok_iff.1 (h : (files.follow _ _ >>= _) = _)
    split at h
    · rename_i hdirectory
      split at h
      · exact absurd h nofun
      · rename_i hname
        split at h
        · exact absurd h nofun
        · rename_i hshort
          split at h
          · exact absurd h nofun
          · rename_i hfree
            rcases hway : (Path.steps path).reverse with - | ⟨name, tail⟩ <;>
              rw [hway] at hfollow hname hshort hfree h
            · exact absurd rfl hname
            · obtain ⟨hstill, hup⟩ := Bool.or_eq_false_iff.1 (Bool.eq_false_iff.2 hname)
              have hempty : name.isEmpty = false := (Bool.or_eq_false_iff.1 hstill).1
              have hsteps : Path.steps path = tail.reverse ++ [name] := by
                rw [← List.reverse_cons, ← hway, List.reverse_reverse]
              rw [List.dropWhile_cons_of_neg (Bool.eq_false_iff.1 hempty)] at hfollow
              exact ⟨tail.reverse, place, name, ⟨hvalid, hsteps, hfollow, hdirectory, hstill, hup,
                Nat.not_lt.1 hshort, hfree⟩, (Except.ok.inj h).symm⟩
    · exact absurd h nofun
  · exact absurd h nofun

/-- **What was written to a path is read from it.** -/
theorem read_of_write (h : files.write path content = .ok later) :
    later.read path = .ok content := by
  obtain ⟨before, place, name, hat, rfl⟩ := exists_of_write_eq_ok h
  have hself : (files.put (place.child name) (.file content)).node? (place.child name) =
      some (.file content) := node?_put_self (Place.isEmpty_names_child place name)
  have hbefore : (files.put (place.child name) (.file content)).follow (Path.start path) before =
      .ok place := follow_put hat.free hat.directory hat.follow
  have hplace : (files.put (place.child name) (.file content)).node? place = some .directory := by
    rw [node?_put_of_ne, hat.directory]
    rintro heq
    exact hat.free (heq ▸ hat.directory)
  have hfollow : (files.put (place.child name) (.file content)).follow (Path.start path)
      (Path.steps path) = .ok (place.child name) := by
    rw [hat.steps, follow_append, hbefore]
    change follow _ place [name] = _
    rw [follow, hplace]
    dsimp only
    rw [if_neg (by simp [hat.not_still]), if_neg (by simp [hat.not_up]),
      if_neg (Nat.not_lt.2 hat.short), hself]
    rfl
  have hfind : (files.put (place.child name) (.file content)).find path = .ok (.file content) := by
    rw [find, hat.valid]
    exact bind_eq_ok_iff.2 ⟨place.child name, hfollow, by rw [hself]; rfl⟩
  rw [read, hfind]
  rfl

end HighlightBundle.Files
