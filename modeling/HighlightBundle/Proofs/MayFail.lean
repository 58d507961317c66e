/-!
# Computations that may fail

A computation in two parts succeeds if both of them do, and fails on the first part that fails
(`bind_eq_ok_iff`, `bind_eq_error_iff`). The same goes for a list of them: all results are there, in
order (`mapM_eq_ok_iff`), or the failure is that of the first one that fails (`mapM_eq_error_iff`).
-/

namespace HighlightBundle

variable {ε α β γ : Type}

theorem bind_eq_ok_iff {x : Except ε α} {f : α → Except ε β} {b : β} :
    (x >>= f) = .ok b ↔ ∃ a, x = .ok a ∧ f a = .ok b := by
  cases x with
  | error e => simp [bind, Except.bind]
  | ok a => simp [bind, Except.bind]

theorem bind_eq_error_iff {x : Except ε α} {f : α → Except ε β} {e : ε} :
    (x >>= f) = .error e ↔ x = .error e ∨ ∃ a, x = .ok a ∧ f a = .error e := by
  cases x with
  | error e' => simp [bind, Except.bind]
  | ok a => simp [bind, Except.bind]

theorem toOption_eq_some_iff {result : Except ε α} {x : α} :
    result.toOption = some x ↔ result = .ok x := by
  cases result <;> simp [Except.toOption]

theorem map_eq_ok_iff {x : Except ε α} {f : α → β} {b : β} :
    x.map f = .ok b ↔ ∃ a, x = .ok a ∧ f a = b := by
  cases x <;> simp [Except.map]

theorem mapError_eq_ok_iff {x : Except ε α} {f : ε → β} {a : α} :
    x.mapError f = .ok a ↔ x = .ok a := by
  cases x with
  | error e => exact iff_of_false nofun nofun
  | ok b => exact ⟨fun h ↦ congrArg Except.ok (Except.ok.inj h),
      fun h ↦ congrArg Except.ok (Except.ok.inj h)⟩

/-- Two computations with the same image fail alike or succeed with the same image. -/
theorem map_eq_map_cases {x y : Except ε α} {f : α → β} (h : x.map f = y.map f) :
    (∃ e, x = .error e ∧ y = .error e) ∨ ∃ a b, x = .ok a ∧ y = .ok b ∧ f a = f b := by
  rcases x with e | a <;> rcases y with e' | b
  · exact Or.inl ⟨e, rfl, congrArg Except.error (Except.error.inj h).symm⟩
  · exact absurd h nofun
  · exact absurd h nofun
  · exact Or.inr ⟨a, b, rfl, rfl, Except.ok.inj h⟩

/-- **All results are there** when each computation has one, in order. -/
theorem mapM_eq_ok_iff {f : α → Except ε β} {xs : List α} {ys : List β} :
    xs.mapM f = .ok ys ↔ xs.map f = ys.map .ok := by
  induction xs generalizing ys with
  | nil =>
    rw [List.map_nil, eq_comm (a := []), List.map_eq_nil_iff, eq_comm (a := ys)]
    exact ⟨Except.ok.inj, congrArg Except.ok⟩
  | cons x xs ih =>
    rw [List.mapM_cons, bind_eq_ok_iff, List.map_cons]
    constructor
    · rintro ⟨y, hy, hrest⟩
      obtain ⟨zs, hzs, hys⟩ := bind_eq_ok_iff.1 hrest
      obtain rfl : y :: zs = ys := Except.ok.inj hys
      rw [List.map_cons, hy, ih.1 hzs]
    · intro h
      obtain ⟨y, zs, rfl, hy, hzs⟩ := List.map_eq_cons_iff.1 h.symm
      exact ⟨y, hy.symm, bind_eq_ok_iff.2 ⟨zs, ih.2 hzs.symm, rfl⟩⟩

/-- When all succeed, each has a result. -/
theorem exists_mem_of_mapM_eq_ok {f : α → Except ε β} {a : α} {xs : List α} {ys : List β}
    (h : xs.mapM f = .ok ys) (ha : a ∈ xs) : ∃ y ∈ ys, f a = .ok y := by
  have hmem : f a ∈ ys.map .ok := mapM_eq_ok_iff.1 h ▸ List.mem_map_of_mem ha
  obtain ⟨y, hy, hresult⟩ := List.mem_map.1 hmem
  exact ⟨y, hy, hresult.symm⟩

/-- When all succeed, there are no results but theirs. -/
theorem mem_of_mapM_eq_ok {f : α → Except ε β} {xs : List α} {ys : List β} {y : β}
    (h : xs.mapM f = .ok ys) : y ∈ ys ↔ ∃ x ∈ xs, f x = .ok y := by
  constructor
  · intro hy
    have hmem : Except.ok y ∈ xs.map f := mapM_eq_ok_iff.1 h ▸ List.mem_map_of_mem hy
    exact List.mem_map.1 hmem
  · rintro ⟨x, hx, hresult⟩
    obtain ⟨y', hy', hresult'⟩ := exists_mem_of_mapM_eq_ok h hx
    exact Except.ok.inj (hresult.symm.trans hresult') ▸ hy'

/-- What each result keeps of its origin, the list of them keeps. -/
theorem map_of_mapM_eq_ok {f : α → Except ε β} {p : α → γ} {q : β → γ} {xs : List α} {ys : List β}
    (hkeep : ∀ x y, f x = .ok y → q y = p x) (h : xs.mapM f = .ok ys) : ys.map q = xs.map p := by
  induction xs generalizing ys with
  | nil =>
    obtain rfl : [] = ys := Except.ok.inj h
    rfl
  | cons x xs ih =>
    rw [List.mapM_cons] at h
    obtain ⟨y, hy, hrest⟩ := bind_eq_ok_iff.1 h
    obtain ⟨zs, hzs, hys⟩ := bind_eq_ok_iff.1 hrest
    obtain rfl : y :: zs = ys := Except.ok.inj hys
    rw [List.map_cons, List.map_cons, hkeep x y hy, ih hzs]

/-- When all succeed, leaving out the failures leaves out nothing. -/
theorem filterMap_of_mapM_eq_ok {f : α → Except ε β} {xs : List α} {ys : List β}
    (h : xs.mapM f = .ok ys) : xs.filterMap (fun x ↦ (f x).toOption) = ys := by
  calc xs.filterMap (fun x ↦ (f x).toOption)
      = (xs.map f).filterMap Except.toOption := by rw [List.filterMap_map]; rfl
    _ = (ys.map .ok).filterMap Except.toOption := by rw [mapM_eq_ok_iff.1 h]
    _ = ys.filterMap some := List.filterMap_map
    _ = ys := List.filterMap_some

/-- What is collected from a list is collected from its first element, then from the rest. -/
theorem mapM_cons_flatMap (f : α → Except ε β) (g : β → List γ) (a : α) (xs : List α) :
    ((a :: xs).mapM f).map (List.flatMap g) =
      f a >>= fun b ↦ ((xs.mapM f).map (List.flatMap g)).map (g b ++ ·) := by
  rw [List.mapM_cons]
  rcases f a with failure | b
  · rfl
  · rcases xs.mapM f with failure | bs <;> rfl

/-- What always succeeds gives all results. -/
theorem mapM_map_eq_ok {f : β → Except ε γ} {g : α → β} {k : α → γ}
    (h : ∀ a, f (g a) = .ok (k a)) (xs : List α) : (xs.map g).mapM f = .ok (xs.map k) := by
  rw [mapM_eq_ok_iff, List.map_map, List.map_map]
  exact List.map_congr_left fun a _ ↦ h a

/-- **The failure is that of the first of the list which fails.** -/
theorem mapM_eq_error_iff {f : α → Except ε β} {e : ε} {xs : List α} :
    xs.mapM f = .error e ↔ ∃ before x after, xs = before ++ x :: after ∧
      (∀ y ∈ before, ∃ b, f y = .ok b) ∧ f x = .error e := by
  induction xs with
  | nil =>
    refine iff_of_false nofun ?_
    rintro ⟨before, x, after, hsplit, -⟩
    exact List.append_ne_nil_of_right_ne_nil before (List.cons_ne_nil x after) hsplit.symm
  | cons first rest ih =>
    rw [List.mapM_cons, bind_eq_error_iff]
    constructor
    · rintro (hfirst | ⟨b, hfirst, hrest⟩)
      · exact ⟨[], first, rest, rfl, nofun, hfirst⟩
      · rcases bind_eq_error_iff.1 hrest with hrest | ⟨bs, -, h⟩
        · obtain ⟨before, x, after, rfl, hbefore, hx⟩ := ih.1 hrest
          exact ⟨first :: before, x, after, rfl, List.forall_mem_cons.2 ⟨⟨b, hfirst⟩, hbefore⟩, hx⟩
        · exact absurd h nofun
    · rintro ⟨before, x, after, hsplit, hbefore, hx⟩
      rcases before with - | ⟨y, before⟩
      · obtain ⟨rfl, rfl⟩ := List.cons.inj hsplit
        exact Or.inl hx
      · obtain ⟨rfl, rfl⟩ := List.cons.inj hsplit
        obtain ⟨⟨b, hb⟩, hbefore⟩ := List.forall_mem_cons.1 hbefore
        exact Or.inr ⟨b, hb,
          bind_eq_error_iff.2 (Or.inl (ih.2 ⟨before, x, after, rfl, hbefore, hx⟩))⟩

theorem exists_mem_of_mapM_eq_error {f : α → Except ε β} {e : ε} {xs : List α}
    (h : xs.mapM f = .error e) : ∃ x ∈ xs, f x = .error e := by
  obtain ⟨before, x, after, rfl, -, hx⟩ := mapM_eq_error_iff.1 h
  exact ⟨x, List.mem_append_right _ List.mem_cons_self, hx⟩

/-- A list that does not fail succeeds. -/
theorem forall_ok_of_mapM_eq_ok {f : α → Except ε β} {xs : List α} {ys : List β}
    (h : xs.mapM f = .ok ys) : ∀ x ∈ xs, ∃ y, f x = .ok y := fun _ hx ↦
  (exists_mem_of_mapM_eq_ok h hx).imp fun _ hy ↦ hy.2

end HighlightBundle
