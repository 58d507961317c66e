import HighlightBundle.Definitions
import HighlightBundle.Proofs.MayFail
import HighlightBundle.Proofs.WrittenTrees

/-!
# Typed readers see the tree

A text can be read twice, as a tree and into the type that is expected of it. The typed reader
works on the text and stops at the first thing that does not fit; the order in which it finds out is
not that of the tree. What it gives is nevertheless a function of the tree: a reader `Sees` by a
view if, wherever a tree can be read, it gives what the view makes of the tree and leaves the same
text behind, or fails where the view makes nothing of it.

Both readings take the same way through the brackets, since it is laid down by the text alone
(`readItems_cases`, `readMembers_cases`: another reader in the same place takes the same branch). So
lists are seen item by item (`gives_readItems`), and objects member by member, each changing a state
(`gives_readMembers`).
-/

namespace HighlightBundle.Json

/-- The result is what the view says: a value with what is left of the text, or a fault where there
is none. -/
def Gives {α : Type} (view : Option α) (result : Except Fault (α × Text)) (rest : Text) : Prop :=
  match view with
  | some x => result = .ok (x, rest)
  | none => ∃ fault, result = .error fault

/-- Wherever a tree can be read with so many brackets, the reader gives what the view makes of
it. -/
def Sees {α : Type} (depth : Nat) (reader : Reader α) (view : Tree → Option α) : Prop :=
  ∀ {text rest : Text} {t : Tree}, readTree depth text = .ok (t, rest) →
    Gives (view t) (reader text) rest

namespace Tree

/-- A string, or null for none. -/
def stringOrNull? : Tree → Option (Option String)
  | string s => some (some s)
  | null => some none
  | _ => none

/-- A list of strings. -/
def strings? : Tree → Option (List String)
  | array items => items.mapM string?
  | _ => none

/-- Null. -/
def null? : Tree → Option Unit
  | null => some ()
  | _ => none

theorem string?_eq_some_iff {t : Tree} {s : String} : t.string? = some s ↔ t = .string s := by
  cases t with
  | string s' => exact ⟨fun h ↦ congrArg string (Option.some.inj h), fun h ↦ congrArg string? h⟩
  | _ => exact iff_of_false nofun nofun

theorem stringOrNull?_eq_some_iff {t : Tree} {o : Option String} :
    t.stringOrNull? = some o ↔ t = .null ∧ o = none ∨ ∃ s, t = .string s ∧ o = some s := by
  cases t with
  | string s => simp [stringOrNull?, eq_comm]
  | null => simp [stringOrNull?, eq_comm]
  | _ => simp [stringOrNull?]

theorem strings?_eq_some_iff {t : Tree} {ss : List String} :
    t.strings? = some ss ↔ t = .array (ss.map .string) := by
  cases t with
  | array items =>
    rw [strings?, Tree.array.injEq]
    induction items generalizing ss with
    | nil => cases ss <;> simp
    | cons t items ih =>
      have hcons : (t :: items).mapM string? = some ss ↔
          ∃ s, t.string? = some s ∧ ∃ more, items.mapM string? = some more ∧ s :: more = ss := by
        simp [List.mapM_cons, Option.bind_eq_some_iff]
      rw [hcons, eq_comm, List.map_eq_cons_iff]
      simp only [string?_eq_some_iff, ih]
      constructor
      · rintro ⟨s, rfl, more, rfl, rfl⟩
        exact ⟨s, more, rfl, rfl, rfl⟩
      · rintro ⟨s, more, rfl, rfl, rfl⟩
        exact ⟨s, rfl, more, rfl, rfl⟩
  | _ => exact iff_of_false nofun nofun

end Tree

section Sight

variable {α β : Type} {depth fuel : Nat} {first : Bool} {text rest : Text} {t : Tree}

/-! ### What a reader gives -/

theorem gives_ok {x : α} : Gives (some x) (.ok (x, rest)) rest :=
  rfl

theorem gives_error {fault : Fault} : Gives (α := α) none (.error fault) rest :=
  ⟨fault, rfl⟩

/-- One reading after the other. -/
theorem Gives.bind {view : Option α} {result : Except Fault (α × Text)} {next : α → Option β}
    {after : α × Text → Except Fault (β × Text)} {between : Text} (h : Gives view result between)
    (hnext : ∀ x, view = some x → Gives (next x) (after (x, between)) rest) :
    Gives (view >>= next) (result >>= after) rest := by
  rcases view with - | x
  · obtain ⟨fault, rfl⟩ := h
    exact gives_error
  · obtain rfl : result = .ok (x, between) := h
    exact hnext x rfl

/-- What follows a reading and does not fail. -/
theorem Gives.map {view : Option α} {result : Except Fault (α × Text)} (f : α → β)
    (h : Gives view result rest) :
    Gives (view.map f) (do let (x, rest) ← result; return (f x, rest)) rest := by
  rcases view with - | x
  · obtain ⟨fault, rfl⟩ := h
    exact gives_error
  · obtain rfl : result = .ok (x, rest) := h
    exact gives_ok

theorem Gives.eq_ok_iff {view : Option α} {result : Except Fault (α × Text)} {x : α} {left : Text}
    (h : Gives view result rest) : result = .ok (x, left) ↔ view = some x ∧ left = rest := by
  rcases view with - | y
  · obtain ⟨fault, rfl⟩ := h
    exact iff_of_false nofun (by simp)
  · obtain rfl : result = .ok (y, rest) := h
    rw [Except.ok.injEq, Prod.mk.injEq, Option.some.injEq, eq_comm (a := rest)]

/-! ### What stands in front of a tree -/

/-- How a text begins that is read as a tree, from its first symbol that is no space. -/
inductive Front (depth : Nat) : Text → Tree → Text → Prop
  | string {body rest : Text} {s : String} (h : readStringBody body = .ok (s, rest)) :
      Front depth (.char '"' :: body) (.string s) rest
  | number {c : Char} {body rest : Text} {n : Number} (hc : c = '-' ∨ ('0' ≤ c ∧ c ≤ '9'))
      (h : readNumber (.char c :: body) = .ok (n, rest)) :
      Front depth (.char c :: body) (.number n) rest
  | null {body rest : Text} (h : readWord ['u', 'l', 'l'] body = .ok rest) :
      Front depth (.char 'n' :: body) .null rest
  | boolean {c : Char} {body rest : Text} {b : Bool} (hc : c = 't' ∨ c = 'f') :
      Front depth (.char c :: body) (.boolean b) rest
  | array {inner : Nat} {body rest : Text} {items : List Tree} (hdepth : depth = inner + 1)
      (h : itemsOf (readTree inner) body = .ok (items, rest)) :
      Front depth (.char '[' :: body) (.array items) rest
  | object {inner : Nat} {body rest : Text} {members : List (String × Tree)}
      (hdepth : depth = inner + 1)
      (h : membersOf (treeMember (readTree inner)) [] body = .ok (members, rest)) :
      Front depth (.char '\x7b' :: body) (.object members) rest

theorem front_of_readScalar (h : readScalar text = .ok (t, rest)) : Front depth text t rest := by
  rw [readScalar.eq_def] at h
  split at h
  · exact absurd h nofun
  · exact absurd h nofun
  · rename_i c body
    split at h
    · rename_i hc
      subst hc
      obtain ⟨⟨s, left⟩, hread, h⟩ := bind_eq_ok_iff.1 h
      obtain ⟨rfl, rfl⟩ := Prod.mk.inj (Except.ok.inj h)
      exact .string hread
    split at h
    · rename_i hc
      obtain ⟨⟨n, left⟩, hread, h⟩ := bind_eq_ok_iff.1 h
      obtain ⟨rfl, rfl⟩ := Prod.mk.inj (Except.ok.inj h)
      exact .number hc hread
    split at h
    · rename_i hc
      subst hc
      obtain ⟨left, hread, h⟩ := bind_eq_ok_iff.1 h
      obtain ⟨rfl, rfl⟩ := Prod.mk.inj (Except.ok.inj h)
      exact .null hread
    split at h
    · rename_i hc
      obtain ⟨left, -, h⟩ := bind_eq_ok_iff.1 h
      obtain ⟨rfl, rfl⟩ := Prod.mk.inj (Except.ok.inj h)
      exact .boolean (Or.inl hc)
    split at h
    · rename_i hc
      obtain ⟨left, -, h⟩ := bind_eq_ok_iff.1 h
      obtain ⟨rfl, rfl⟩ := Prod.mk.inj (Except.ok.inj h)
      exact .boolean (Or.inr hc)
    · exact absurd h nofun

/-- **A text that is read as a tree begins in one of six ways.** -/
theorem front_of_readTree (h : readTree depth text = .ok (t, rest)) :
    Front depth (skipSpaces text) t rest := by
  rcases depth with - | depth <;> rw [readTree] at h
  · split at h
    · cases h
    · cases h
    · exact front_of_readScalar h
  · split at h
    · rename_i body hskip
      obtain ⟨⟨items, left⟩, hread, h⟩ := bind_eq_ok_iff.1 h
      obtain ⟨rfl, rfl⟩ := Prod.mk.inj (Except.ok.inj h)
      rw [hskip]
      exact .array rfl hread
    · rename_i body hskip
      obtain ⟨⟨members, left⟩, hread, h⟩ := bind_eq_ok_iff.1 h
      obtain ⟨rfl, rfl⟩ := Prod.mk.inj (Except.ok.inj h)
      rw [hskip]
      exact .object rfl hread
    · exact front_of_readScalar h

/-! ### Single values -/

/-- A string is seen as a string, and any other tree is a mismatch. -/
theorem sees_readString : Sees depth readString Tree.string? := by
  intro text rest t h
  have hfront := front_of_readTree h
  rw [readString]
  split
  · rename_i body hskip
    rw [hskip] at hfront
    cases hfront with
    | string hread => exact hread
    | number hc => exact absurd hc (by decide)
    | boolean hc => exact absurd hc (by decide)
  · rename_i hnot
    generalize skipSpaces text = front at hfront hnot
    cases hfront with
    | string hread => exact absurd rfl (hnot _)
    | _ => exact gives_error

theorem readString_skipSpaces (text : Text) : readString (skipSpaces text) = readString text := by
  rw [readString, readString, skipSpaces_skipSpaces]

theorem sees_readOptionalString : Sees depth readOptionalString Tree.stringOrNull? := by
  intro text rest t h
  have hfront := front_of_readTree h
  rw [readOptionalString]
  split
  · rename_i body hskip
    rw [hskip] at hfront
    cases hfront with
    | null hread =>
      rw [hread]
      exact gives_ok
    | number hc => exact absurd hc (by decide)
    | boolean hc => exact absurd hc (by decide)
  · rename_i hnot
    have hview : t.stringOrNull? = t.string?.map some := by
      cases t with
      | null =>
        generalize skipSpaces text = front at hfront hnot
        cases hfront with
        | null => exact absurd rfl (hnot _)
      | _ => rfl
    rw [hview, readString_skipSpaces]
    exact (sees_readString h).map some

theorem sees_readNull : Sees depth readNull Tree.null? := by
  intro text rest t h
  have hfront := front_of_readTree h
  rw [readNull]
  split
  · rename_i body hskip
    rw [hskip] at hfront
    cases hfront with
    | null hread =>
      rw [hread]
      exact gives_ok
    | number hc => exact absurd hc (by decide)
    | boolean hc => exact absurd hc (by decide)
  · rename_i hnot
    generalize skipSpaces text = front at hfront hnot
    cases hfront with
    | null => exact absurd rfl (hnot _)
    | _ => exact gives_error

/-! ### Lists -/

/-- **The way through a list.** Where a reader of items succeeds, there is the closing bracket or
an item, and another reader of items in the same place finds the same. -/
theorem readItems_cases {item : Reader α} {xs : List α}
    (h : readItems item (fuel + 1) first text = .ok (xs, rest)) :
    (xs = [] ∧ ∀ {β : Type} (item : Reader β),
      readItems item (fuel + 1) first text = .ok ([], rest)) ∨
    ∃ body, readFurther item fuel body = .ok (xs, rest) ∧ ∀ {β : Type} (item : Reader β),
      readItems item (fuel + 1) first text = readFurther item fuel body := by
  rw [readItems] at h
  split at h
  · cases h
  · rename_i s tail hskip
    split at h
    · rename_i hclose
      obtain ⟨rfl, rfl⟩ := Prod.mk.inj (Except.ok.inj h)
      refine Or.inl ⟨rfl, fun item ↦ ?_⟩
      rw [readItems, hskip]
      exact if_pos hclose
    · rename_i hclose
      split at h
      · rename_i hfirst
        refine Or.inr ⟨s :: tail, h, fun item ↦ ?_⟩
        rw [readItems, hskip]
        dsimp only
        rw [if_neg hclose, if_pos hfirst]
        rfl
      · rename_i hfirst
        split at h
        · rename_i hcomma
          split at h
          · cases h
          · rename_i s' tail' hskip'
            split at h
            · cases h
            · rename_i hclose'
              refine Or.inr ⟨s' :: tail', h, fun item ↦ ?_⟩
              rw [readItems, hskip]
              dsimp only
              rw [if_neg hclose, if_neg hfirst, if_pos hcomma, hskip']
              dsimp only
              rw [if_neg hclose']
              rfl
        · cases h

/-- Items are seen one by one. -/
theorem gives_readItems {item : Reader α} {view : Tree → Option α} (hitem : Sees depth item view)
    {items : List Tree} (h : readItems (readTree depth) fuel first text = .ok (items, rest)) :
    Gives (items.mapM view) (readItems item fuel first text) rest := by
  induction fuel generalizing first text items with
  | zero => exact absurd h nofun
  | succ fuel ih =>
    rcases readItems_cases h with ⟨rfl, hsame⟩ | ⟨body, hfurther, hsame⟩
    · rw [hsame item, List.mapM_nil]
      exact gives_ok
    · obtain ⟨⟨t, between⟩, htree, hfurther⟩ := bind_eq_ok_iff.1 hfurther
      obtain ⟨⟨more, left⟩, hmore, hfurther⟩ := bind_eq_ok_iff.1 hfurther
      obtain ⟨rfl, rfl⟩ := Prod.mk.inj (Except.ok.inj hfurther)
      rw [hsame item, readFurther, List.mapM_cons]
      refine (hitem htree).bind fun x hx ↦ ?_
      exact (ih hmore).bind fun xs hxs ↦ gives_ok

/-- A list of strings is seen as one. -/
theorem sees_readStrings : Sees depth (readStrings depth) Tree.strings? := by
  intro text rest t h
  have hfront := front_of_readTree h
  rw [readStrings, readList]
  split
  · rename_i body hskip
    rw [hskip] at hfront
    cases hfront with
    | array hdepth hread =>
      subst hdepth
      exact gives_readItems sees_readString hread
    | number hc => exact absurd hc (by decide)
    | boolean hc => exact absurd hc (by decide)
  · rename_i hnot
    generalize skipSpaces text = front at hfront hnot
    cases hfront with
    | array => exact absurd rfl (hnot _)
    | _ => exact gives_error

end Sight

section Members

variable {σ τ α : Type} {depth fuel : Nat} {first : Bool} {text rest : Text}
  {member : σ → String → Reader σ} {state after : σ}

/-! ### Objects -/

/-- **The way through an object.** Where members are read with success, there is the closing brace
or the quote of a key, and other members in the same place find the same. -/
theorem readMembers_cases (h : readMembers member (fuel + 1) first state text = .ok (after, rest)) :
    (after = state ∧ skipSpaces text = .char '\x7d' :: rest ∧
      ∀ {τ : Type} (member : τ → String → Reader τ) (state : τ),
        readMembers member (fuel + 1) first state text = .ok (state, rest)) ∨
    ∃ body, readFurtherMembers member fuel state body = .ok (after, rest) ∧
      (∀ tail, skipSpaces text ≠ .char '\x7d' :: tail) ∧
      (first = true → skipSpaces text = .char '"' :: body) ∧
      ∀ {τ : Type} (member : τ → String → Reader τ) (state : τ),
        readMembers member (fuel + 1) first state text =
          readFurtherMembers member fuel state body := by
  rw [readMembers] at h
  split at h
  · cases h
  · rename_i s tail hskip
    split at h
    · rename_i hclose
      obtain ⟨rfl, rfl⟩ := Prod.mk.inj (Except.ok.inj h)
      refine Or.inl ⟨rfl, hclose ▸ hskip, fun member state ↦ ?_⟩
      rw [readMembers, hskip]
      exact if_pos hclose
    · rename_i hclose
      have hopen : ∀ rest, skipSpaces text ≠ .char '\x7d' :: rest := fun rest heq ↦
        hclose (List.cons.inj (hskip.symm.trans heq)).1
      split at h
      · rename_i hfirst
        split at h
        · rename_i hquote
          refine Or.inr ⟨tail, h, hopen, fun _ ↦ hquote ▸ hskip, fun member state ↦ ?_⟩
          rw [readMembers, hskip]
          dsimp only
          rw [if_neg hclose, if_pos hfirst, if_pos hquote]
          rfl
        · cases h
      · rename_i hfirst
        split at h
        · rename_i hcomma
          split at h
          · cases h
          · rename_i s' tail' hskip'
            split at h
            · rename_i hquote
              refine Or.inr ⟨tail', h, hopen, fun htrue ↦ absurd htrue hfirst,
                fun member state ↦ ?_⟩
              rw [readMembers, hskip]
              dsimp only
              rw [if_neg hclose, if_neg hfirst, if_pos hcomma, hskip']
              dsimp only
              rw [if_pos hquote]
              rfl
            · split at h <;> cases h
        · cases h

/-- A member of a tree is its key, a colon and a value. -/
theorem treeMember_eq_ok {value : Reader Tree} {done more : List (String × Tree)} {key : String}
    (h : treeMember value done key text = .ok (more, rest)) :
    ∃ behind t, readColon text = .ok behind ∧ value behind = .ok (t, rest) ∧
      more = done ++ [(key, t)] := by
  obtain ⟨behind, hcolon, h⟩ := bind_eq_ok_iff.1 h
  obtain ⟨⟨t, left⟩, hvalue, h⟩ := bind_eq_ok_iff.1 h
  obtain ⟨rfl, rfl⟩ := Prod.mk.inj (Except.ok.inj h)
  exact ⟨behind, t, hcolon, hvalue, rfl⟩

theorem treeMember_of_eq_ok {value : Reader Tree} {behind : Text} {t : Tree}
    (hcolon : readColon text = .ok behind) (hvalue : value behind = .ok (t, rest))
    (done : List (String × Tree)) (key : String) :
    treeMember value done key text = .ok (done ++ [(key, t)], rest) :=
  bind_eq_ok_iff.2 ⟨behind, hcolon, bind_eq_ok_iff.2 ⟨(t, rest), hvalue, rfl⟩⟩

/-- Wherever a member of a tree can be read, what it does to the state is what the step makes of
its key and its value. -/
def SeesMember (depth : Nat) (member : σ → String → Reader σ)
    (step : σ → String × Tree → Option σ) : Prop :=
  ∀ {state : σ} {key : String} {text behind rest : Text} {t : Tree},
    readColon text = .ok behind → readTree depth behind = .ok (t, rest) →
    Gives (step state (key, t)) (member state key text) rest

/-- Members are seen one by one. -/
theorem gives_readMembers {step : σ → String × Tree → Option σ}
    (hmember : SeesMember depth member step) {done all : List (String × Tree)}
    (h : readMembers (treeMember (readTree depth)) fuel first done text = .ok (all, rest)) :
    ∃ more, all = done ++ more ∧ ∀ state,
      Gives (more.foldlM step state) (readMembers member fuel first state text) rest := by
  induction fuel generalizing first text done with
  | zero => exact absurd h nofun
  | succ fuel ih =>
    rcases readMembers_cases h with ⟨rfl, -, hsame⟩ | ⟨body, hfurther, -, -, hsame⟩
    · refine ⟨[], (List.append_nil _).symm, fun state ↦ ?_⟩
      rw [hsame member state]
      exact gives_ok
    · obtain ⟨⟨key, text'⟩, hkey, hfurther⟩ := bind_eq_ok_iff.1 hfurther
      obtain ⟨⟨done', text''⟩, hvalue, hfurther⟩ := bind_eq_ok_iff.1 hfurther
      obtain ⟨behind, t, hcolon, htree, rfl⟩ := treeMember_eq_ok hvalue
      obtain ⟨more, rfl, hmore⟩ := ih hfurther
      refine ⟨(key, t) :: more, by simp, fun state ↦ ?_⟩
      rw [hsame member state, readFurtherMembers, hkey, List.foldlM_cons]
      exact (hmember hcolon htree).bind fun between _ ↦ hmore between

/-- An object is made of what its members, between the braces, make of the state. -/
theorem gives_readObject {expected : Expected} {start : σ} {members : Nat → σ → String → Reader σ}
    {finish : σ → Except Cause α} {view : Option σ} {tail : Text}
    (htext : skipSpaces text = .char '\x7b' :: tail)
    (h : Gives view (membersOf (members depth) start tail) rest) :
    Gives (view >>= fun state ↦ (finish state).toOption)
      (readObject expected start members finish (depth + 1) text) rest := by
  rw [readObject, htext]
  refine h.bind fun state _ ↦ ?_
  dsimp only
  cases finish state with
  | ok x => exact gives_ok
  | error cause => exact gives_error

/-- An object is seen by what its members make of the state, one by one. -/
theorem sees_readObject {expected : Expected} {start : σ} {members : Nat → σ → String → Reader σ}
    {finish : σ → Except Cause α} {step : σ → String × Tree → Option σ} {all : List (String × Tree)}
    (hmember : ∀ depth, SeesMember depth (members depth) step)
    (h : readTree depth text = .ok (.object all, rest)) :
    Gives (all.foldlM step start >>= fun state ↦ (finish state).toOption)
      (readObject expected start members finish depth text) rest := by
  have hfront := front_of_readTree h
  generalize htext : skipSpaces text = front at hfront
  cases hfront with
  | object hdepth hread =>
    subst hdepth
    obtain ⟨more, rfl, hgives⟩ := gives_readMembers (hmember _) hread
    exact gives_readObject htext (hgives start)

/-! ### What members keep -/

section Keeping

variable {P : σ → Prop}

/-- What every member keeps holds when all members have been read. -/
theorem readMembers_keeps {member : σ → String → Reader σ}
    (hmember : ∀ {state key text after rest}, P state →
      member state key text = .ok (after, rest) → P after)
    {fuel : Nat} {first : Bool} {state after : σ} {text rest : Text} (hstate : P state)
    (h : readMembers member fuel first state text = .ok (after, rest)) : P after := by
  induction fuel generalizing first state text with
  | zero => cases h
  | succ fuel ih =>
    rcases readMembers_cases h with ⟨rfl, -, -⟩ | ⟨body, hfurther, -, -, -⟩
    · exact hstate
    · obtain ⟨⟨key, text⟩, -, hfurther⟩ := bind_eq_ok_iff.1 hfurther
      obtain ⟨⟨between, text⟩, hbetween, hfurther⟩ := bind_eq_ok_iff.1 hfurther
      exact ih (hmember hstate hbetween) hfurther

/-- Members are read behind those that are done. -/
theorem exists_append_of_readMembers {value : Reader Tree} {fuel : Nat} {first : Bool}
    {done all : List (String × Tree)} {text rest : Text}
    (h : readMembers (treeMember value) fuel first done text = .ok (all, rest)) :
    ∃ more, done ++ more = all := by
  refine readMembers_keeps (P := fun all ↦ ∃ more, done ++ more = all) ?_ ⟨[], List.append_nil _⟩ h
  rintro _ key text after rest ⟨more, rfl⟩ hmember
  obtain ⟨-, t, -, -, rfl⟩ := treeMember_eq_ok hmember
  exact ⟨more ++ [(key, t)], (List.append_assoc ..).symm⟩

/-- What is read as an object has been made of a state to which the members between the braces have
led. -/
theorem exists_membersOf_of_readObject {expected : Expected} {start : σ}
    {member : Nat → σ → String → Reader σ} {finish : σ → Except Cause α} {depth : Nat} {x : α}
    {text rest : Text} (h : readObject expected start member finish depth text = .ok (x, rest)) :
    ∃ inner tail state, skipSpaces text = .char '\x7b' :: tail ∧
      membersOf (member inner) start tail = .ok (state, rest) ∧ finish state = .ok x := by
  rw [readObject] at h
  split at h
  · rename_i tail htext
    split at h
    · cases h
    · rename_i inner
      obtain ⟨⟨state, left⟩, hmembers, h⟩ := bind_eq_ok_iff.1 h
      dsimp only at h
      split at h
      · rename_i hfinish
        obtain ⟨rfl, rfl⟩ := Prod.mk.inj (Except.ok.inj h)
        exact ⟨inner, tail, state, htext, hmembers, hfinish⟩
      · cases h
  · cases h

/-- So it was made of a state of which everything holds that members keep. -/
theorem exists_of_readObject_eq_ok {expected : Expected} {start : σ}
    {member : Nat → σ → String → Reader σ} {finish : σ → Except Cause α} {depth : Nat} {x : α}
    {text rest : Text} (hstart : P start)
    (hmember : ∀ {depth state key text after rest}, P state →
      member depth state key text = .ok (after, rest) → P after)
    (h : readObject expected start member finish depth text = .ok (x, rest)) :
    ∃ state, P state ∧ finish state = .ok x := by
  obtain ⟨inner, tail, state, -, hmembers, hfinish⟩ := exists_membersOf_of_readObject h
  exact ⟨state, readMembers_keeps hmember hstart hmembers, hfinish⟩

end Keeping

/-! ### Fields -/

/-- The value of a field that may occur once. -/
def takeOnce (before : Option α) (value : Option α) : Option α :=
  match before with
  | none => value
  | some _ => none

theorem takeOnce_eq_some_iff {before value : Option α} {x : α} :
    takeOnce before value = some x ↔ before = none ∧ value = some x := by
  cases before <;> simp [takeOnce]

theorem setOnce_eq_ok {name : String} {before : Option α} {reader : Reader α} {x : α}
    (h : setOnce name before reader text = .ok (x, rest)) :
    before = none ∧ ∃ behind, readColon text = .ok behind ∧ reader behind = .ok (x, rest) := by
  cases before with
  | some y => cases h
  | none => exact ⟨rfl, bind_eq_ok_iff.1 h⟩

/-- A field that may occur once is seen as its value, the first time. -/
theorem gives_setOnce {reader : Reader α} {view : Tree → Option α}
    (hreader : Sees depth reader view) {behind : Text} {t : Tree} (hcolon : readColon text = .ok behind)
    (htree : readTree depth behind = .ok (t, rest)) (key : String) (before : Option α) :
    Gives (takeOnce before (view t)) (setOnce key before reader text) rest := by
  cases before with
  | some x => exact gives_error
  | none =>
    rw [setOnce, hcolon]
    exact hreader htree

/-! ### Whole texts -/

/-- Behind a whole text that is read only spaces are left. -/
theorem readWhole_eq_ok_iff_exists {reader : Reader α} {x : α} :
    readWhole reader text = .ok x ↔ ∃ rest, reader text = .ok (x, rest) ∧ skipSpaces rest = [] := by
  rw [readWhole, bind_eq_ok_iff]
  constructor
  · rintro ⟨⟨y, rest⟩, hread, h⟩
    dsimp only at h
    split at h
    · rename_i hend
      obtain rfl := Except.ok.inj h
      exact ⟨rest, hread, hend⟩
    · cases h
  · rintro ⟨rest, hread, hend⟩
    refine ⟨(x, rest), hread, ?_⟩
    dsimp only
    rw [hend]
    rfl

/-- A whole text is read as what its reader gives, if only spaces are left. -/
theorem readWhole_eq_ok_iff_of_gives {reader : Reader α} {view : Option α} {x : α}
    (h : Gives view (reader text) rest) (hend : skipSpaces rest = []) :
    readWhole reader text = .ok x ↔ view = some x := by
  simp only [readWhole_eq_ok_iff_exists, h.eq_ok_iff]
  constructor
  · rintro ⟨left, ⟨hx, -⟩, -⟩
    exact hx
  · intro hx
    exact ⟨rest, ⟨hx, rfl⟩, hend⟩

/-- **A whole text** that can be read as a tree is read as what the tree is seen as. -/
theorem readWhole_eq_ok_iff {reader : Reader α} {view : Option α} {t : Tree} {x : α}
    (hreader : ∀ {rest}, readTree depth text = .ok (t, rest) → Gives view (reader text) rest)
    (h : readWhole (readTree depth) text = .ok t) :
    readWhole reader text = .ok x ↔ view = some x := by
  obtain ⟨rest, htree, hend⟩ := readWhole_eq_ok_iff_exists.1 h
  exact readWhole_eq_ok_iff_of_gives (hreader htree) hend

end Members

end HighlightBundle.Json
