import HighlightBundle.Proofs.PassedValues
import HighlightBundle.Proofs.RecordFields

/-!
# Objects with members that belong to no field

A record read from an object takes the members with the keys of its fields and passes over all the
others. So its text spells no tree: what is passed over need only be well-formed. `OpenObject` is
the grammar of such texts, which tells the members with a field and leaves out those without.

**What is read is a matter of the members that are told** (`Layout.Flat.readWhole_openObject_iff`),
whatever stands between them. Conversely, a text from which an object has been read has members,
with or without a meaning, that any other reader finds as well: what has been read as a field is
passed over alike, so two readers go through the members side by side (`readMembers_beside`), and
one of them may collect the keys (`memberKeys`). Each field has one of them if it was read, and none
if not (`Layout.Flat.exists_memberKeys`).

A tree that is written is a spelled one, so what holds of all its spellings holds of the text that
is written (`spells_writeObject`).
-/

namespace HighlightBundle.Json

variable {σ τ α : Type} {keys : List String} {ms more : List (String × Tree)} {key : String}
  {cs gap body before : List Char} {text rest : Text} {fuel : Nat} {first : Bool} {t : Tree}

/-! ### The grammar -/

/-- A member of an object: one with a key of a field, and any other, which is not told. -/
inductive OpenMember (keys : List String) : List (String × Tree) → List Char → Prop
  | field {m : String × Tree} {cs : List Char} (hkey : m.1 ∈ keys) (h : Spells (.member m) cs) :
      OpenMember keys [m] cs
  | other {before body gap cs : List Char} {key : String} (hkey : key ∉ keys)
      (hbefore : IsBlank before) (hbody : SpellsChars body key.toList) (hgap : IsBlank gap)
      (h : WellFormed .item cs) :
      OpenMember keys [] (before ++ '"' :: (body ++ '"' :: (gap ++ ':' :: cs)))

/-- Members with commas between them, at least one. -/
inductive OpenMembers (keys : List String) : List (String × Tree) → List Char → Prop
  | last {ms : List (String × Tree)} {cs : List Char} (h : OpenMember keys ms cs) :
      OpenMembers keys ms cs
  | more {ms more : List (String × Tree)} {cs behind : List Char} (h : OpenMember keys ms cs)
      (hmore : OpenMembers keys more behind) : OpenMembers keys (ms ++ more) (cs ++ ',' :: behind)

/-- **An object with spaces around it**, of whose members, if it has any, those with one of the keys
are told. -/
inductive OpenObject (keys : List String) : List (String × Tree) → List Char → Prop
  | mk {before cs after : List Char} {ms : List (String × Tree)} (hbefore : IsBlank before)
      (h : ms = [] ∧ IsBlank cs ∨ OpenMembers keys ms cs) (hafter : IsBlank after) :
      OpenObject keys ms (before ++ '\x7b' :: (cs ++ '\x7d' :: after))

/-- Of the members that a text spells, those with one of the keys are told. -/
theorem openMember_of_spells {m : String × Tree} (h : Spells (.member m) cs) :
    OpenMember keys ([m].filter (keys.contains ·.1)) cs := by
  by_cases hkey : m.1 ∈ keys
  · have htold : [m].filter (keys.contains ·.1) = [m] := by simp [hkey]
    rw [htold]
    exact .field hkey h
  · have huntold : [m].filter (keys.contains ·.1) = [] := by simp [hkey]
    rw [huntold]
    cases h with
    | member hbefore hbody hgap h => exact .other hkey hbefore hbody hgap (wellFormed_of_spells h)

theorem openMembers_of_spells (h : Spells (.members ms) cs) :
    OpenMembers keys (ms.filter (keys.contains ·.1)) cs := by
  generalize hphrase : Phrase.members ms = phrase at h
  induction h generalizing ms with
  | lastMember h _ =>
    obtain rfl := Phrase.members.inj hphrase
    exact .last (openMember_of_spells h)
  | @moreMembers _ _ m ms h _ _ ih =>
    obtain rfl := Phrase.members.inj hphrase
    rw [← List.singleton_append, List.filter_append]
    exact .more (openMember_of_spells h) (ih rfl)
  | _ => cases hphrase

/-- **A text that spells an object** is one of which the members with the keys are told. -/
theorem openObject_of_spells (h : Spells (.item (.object ms)) cs) :
    OpenObject keys (ms.filter (keys.contains ·.1)) cs := by
  cases h with
  | @item before _ after _ hbefore h hafter =>
    cases h with
    | @emptyObject gap hgap =>
      simpa using OpenObject.mk hbefore (Or.inl ⟨rfl, hgap⟩) hafter
    | @object cs _ h =>
      simpa using OpenObject.mk hbefore (Or.inr (openMembers_of_spells h)) hafter

/-! ### Reading -/

/-- **How a member of some kind is seen** that has a key of a field or not: by its value, or not at
all. -/
structure SeesFields (keys : List String) (member : σ → String → Reader σ)
    (step : σ → String × Tree → Option σ) : Prop where
  field : ∀ {depth : Nat} {state : σ} {m : String × Tree} {text behind rest : Text}, m.1 ∈ keys →
    readColon text = .ok behind → readTree depth behind = .ok (m.2, rest) →
    Gives (step state m) (member state m.1 text) rest
  other : ∀ {state : σ} {key : String} {text : Text}, key ∉ keys →
    member state key text = skippedMember state text

variable {member : σ → String → Reader σ} {step : σ → String × Tree → Option σ}

/-- A member is found and does what is seen of it, up to spaces. -/
theorem exists_of_openMember (hmember : SeesFields keys member step) (h : OpenMember keys ms cs)
    (hrest : Ends rest) :
    ∃ body key text gap, skipSpaces (cs.map .char ++ rest) = .char '"' :: body ∧
      readStringBody body = .ok (key, text) ∧ IsBlank gap ∧
      ∀ state, Gives (ms.foldlM step state) (member state key text) (gap.map .char ++ rest) := by
  cases h with
  | @field m cs hkey h =>
    cases h with
    | @member before body gap cs key t hbefore hbody hgap h =>
      obtain ⟨after, hafter, hread⟩ := isRead_of_spells h Nat.le.refl rest hrest
      refine ⟨_, key, _, after, skipSpaces_member hbefore body gap cs rest,
        readStringBody_of_spellsChars hbody _, hafter, fun state ↦ ?_⟩
      have hone : [(key, t)].foldlM step state = step state (key, t) := bind_pure _
      rw [hone]
      exact hmember.field hkey (readColon_blank hgap _) hread
  | @other before body gap cs key hkey hbefore hbody hgap h =>
    obtain ⟨after, hafter, hskip⟩ := skipTree_of_wellFormed h hrest
    refine ⟨_, key, _, after, skipSpaces_member hbefore body gap cs rest,
      readStringBody_of_spellsChars hbody _, hafter, fun state ↦ ?_⟩
    rw [hmember.other hkey, skippedMember, readColon_blank hgap]
    show (skipTree (cs.map .char ++ rest) >>= fun behind ↦ pure (state, behind)) = _
    rw [hskip]
    rfl

/-- **Members, one after the other**, up to the closing brace. -/
theorem exists_of_openMembers (hmember : SeesFields keys member step) (h : OpenMembers keys ms cs)
    (hfuel : cs.length < fuel) :
    ∃ body, skipSpaces (cs.map .char ++ .char '\x7d' :: rest) = .char '"' :: body ∧
      ∀ state, Gives (ms.foldlM step state) (readFurtherMembers member fuel state body) rest := by
  induction h generalizing fuel with
  | @last ms cs h =>
    obtain ⟨fuel, rfl⟩ := Nat.exists_eq_add_one_of_ne_zero (Nat.ne_zero_of_lt hfuel)
    have hends : Ends (.char '\x7d' :: rest) := ends_cons (by decide)
    obtain ⟨body, key, text, gap, hskip, hkey, hgap, hgives⟩ := exists_of_openMember hmember h hends
    refine ⟨body, hskip, fun state ↦ ?_⟩
    rw [readFurtherMembers, hkey, ← bind_pure (ms.foldlM step state)]
    refine (hgives state).bind fun after _ ↦ ?_
    exact (readMembers_congr (skipSpaces_blank hgap _)).trans readMembers_close
  | @more ms more cs behind h _ ih =>
    obtain ⟨fuel, rfl⟩ := Nat.exists_eq_add_one_of_ne_zero (Nat.ne_zero_of_lt hfuel)
    have hlength : behind.length < fuel := by
      rw [List.length_append, List.length_cons] at hfuel
      omega
    obtain ⟨body', hskip', hgives'⟩ := ih hlength
    have hends : Ends (.char ',' :: (behind.map .char ++ .char '\x7d' :: rest)) :=
      ends_cons (by decide)
    obtain ⟨body, key, text, gap, hskip, hkey, hgap, hgives⟩ := exists_of_openMember hmember h hends
    rw [List.map_append, List.append_assoc]
    refine ⟨body, hskip, fun state ↦ ?_⟩
    rw [readFurtherMembers, hkey, List.foldlM_append]
    refine (hgives state).bind fun between _ ↦ ?_
    show Gives _ (readMembers member (fuel + 1) false between _) rest
    rw [readMembers_congr (skipSpaces_blank hgap _),
      readMembers_next_of_skipSpaces (skipSpaces_cons rfl _) hskip']
    exact hgives' between

section Objects

variable {expected : Expected} {start : σ} {members : Nat → σ → String → Reader σ}
  {finish : σ → Except Cause α} {depth : Nat}

/-- What stands between the braces is seen by the members that are told. -/
theorem gives_membersOf (hmember : SeesFields keys member step)
    (h : ms = [] ∧ IsBlank cs ∨ OpenMembers keys ms cs) :
    Gives (ms.foldlM step start) (membersOf member start (cs.map .char ++ .char '\x7d' :: rest))
      rest := by
  rcases h with ⟨rfl, hblank⟩ | h
  · rw [membersOf, readMembers_congr (skipSpaces_blank hblank _), readMembers_close]
    exact gives_ok
  · obtain ⟨body, hskip, hgives⟩ :=
      exists_of_openMembers hmember h (length_lt_of_followed cs (.char '\x7d') rest)
    rw [membersOf, readMembers_first_of_skipSpaces hskip]
    exact hgives start

theorem skipSpaces_openObject (hbefore : IsBlank before)
    (cs after : List Char) : skipSpaces ((before ++ '\x7b' :: (cs ++ '\x7d' :: after)).map .char) =
      .char '\x7b' :: (cs.map .char ++ .char '\x7d' :: after.map .char) := by
  rw [List.map_append, skipSpaces_blank hbefore, List.map_cons, skipSpaces_cons rfl,
    List.map_append, List.map_cons]

theorem exists_skipSpaces_of_openObject (h : OpenObject keys ms cs) :
    ∃ tail, skipSpaces (cs.map .char) = .char '\x7b' :: tail := by
  obtain ⟨hbefore, -, -⟩ := h
  exact ⟨_, skipSpaces_openObject hbefore _ _⟩

/-- **An object is read as what the members that are told make of it.** -/
theorem readWhole_openObject_iff {x : α} (hmember : SeesFields keys (members depth) step)
    (h : OpenObject keys ms cs) :
    readWhole (readObject expected start members finish (depth + 1)) (cs.map .char) = .ok x ↔
      ∃ state, ms.foldlM step start = some state ∧ finish state = .ok x := by
  obtain @⟨before, cs, after, ms, hbefore, h, hafter⟩ := h
  have hgives : Gives (ms.foldlM step start >>= fun state ↦ (finish state).toOption)
      (readObject expected start members finish (depth + 1)
        ((before ++ '\x7b' :: (cs ++ '\x7d' :: after)).map .char)) (after.map .char) :=
    gives_readObject (skipSpaces_openObject hbefore cs after) (gives_membersOf hmember h)
  rw [readWhole_eq_ok_iff_of_gives hgives (skipSpaces_of_isBlank hafter), Option.bind_eq_bind,
    Option.bind_eq_some_iff]
  simp only [toOption_eq_some_iff]

end Objects

namespace Layout

variable {layout : Layout σ α}

/-- The record has no body, and its fields are values that open no bracket, so they may be read or
passed over however many are open. -/
structure Flat (layout : Layout σ α) : Prop where
  body : layout.body = none
  read : ∀ f ∈ layout.fields, ∀ depth depth', f.typed.read depth = f.typed.read depth'
  skips : ∀ f ∈ layout.fields, ∀ depth, Skips (f.typed.read depth)

/-- The members of such a record are seen if they have the key of a field. -/
theorem Flat.seesFields (hflat : layout.Flat) (depth : Nat) :
    SeesFields layout.keys (layout.member depth) layout.step where
  field {depth' draft m text behind rest} hkey hcolon htree := by
    obtain ⟨k, t⟩ := m
    obtain ⟨f, hf, rfl⟩ := mem_keys_iff.1 hkey
    have hgives := gives_member hf hcolon htree draft
    rw [member_of_mem hf, hflat.read f hf depth' depth, ← member_of_mem hf] at hgives
    exact hgives
  other {draft key text} hkey := by
    rw [member_of_not_mem hkey, readOther, hflat.body]

/-- **An object is read as the record that the members with a field describe**, and not read if they
describe none. -/
theorem Flat.readWhole_openObject_iff {expected : Expected} {depth : Nat} {record : α}
    (hflat : layout.Flat) (h : OpenObject layout.keys ms cs) :
    readWhole (readObject expected layout.start layout.member layout.finish (depth + 1))
      (cs.map .char) = .ok record ↔ layout.Describes ms record :=
  (Json.readWhole_openObject_iff (hflat.seesFields depth) h).trans exists_foldlM_iff

end Layout

/-! ### Two readers side by side -/

/-- **Two readers go through the members side by side**, if whatever member one of them takes the
other takes as well, leaving the same text behind. -/
theorem readMembers_beside {member : σ → String → Reader σ} {member' : τ → String → Reader τ}
    {R : σ → τ → Prop}
    (hmember : ∀ {state state' key text after rest}, R state state' →
      member state key text = .ok (after, rest) →
      ∃ after', member' state' key text = .ok (after', rest) ∧ R after after')
    {state after : σ} {state' : τ} (hstate : R state state')
    (h : readMembers member fuel first state text = .ok (after, rest)) :
    ∃ after', readMembers member' fuel first state' text = .ok (after', rest) ∧ R after after' := by
  induction fuel generalizing first state state' text with
  | zero => cases h
  | succ fuel ih =>
    rcases readMembers_cases h with ⟨rfl, -, hsame⟩ | ⟨body, hfurther, -, -, hsame⟩
    · exact ⟨state', hsame member' state', hstate⟩
    · obtain ⟨⟨key, behind⟩, hkey, hfurther⟩ := bind_eq_ok_iff.1 hfurther
      obtain ⟨⟨between, behind'⟩, hbetween, hfurther⟩ := bind_eq_ok_iff.1 hfurther
      obtain ⟨between', hbetween', hR⟩ := hmember hstate hbetween
      obtain ⟨after', hafter', hR'⟩ := ih hR hfurther
      refine ⟨after', ?_, hR'⟩
      rw [hsame member' state', readFurtherMembers]
      exact bind_eq_ok_iff.2 ⟨_, hkey, bind_eq_ok_iff.2 ⟨_, hbetween', hafter'⟩⟩

/-- A member whose key is collected and whose value is passed over. -/
def keyMember (keys : List String) (key : String) : Reader (List String) := fun text ↦ do
  let text ← readColon text
  return (keys ++ [key], ← skipTree text)

/-- The keys of all members of an object that a whole text is, in order. -/
def memberKeys (text : Text) : Except Fault (List String) :=
  readWhole (readObject .map [] (fun _ ↦ keyMember) .ok 1) text

theorem keyMember_eq_ok {behind : Text} (hcolon : readColon text = .ok behind)
    (hskip : skipTree behind = .ok rest) (keys : List String) (key : String) :
    keyMember keys key text = .ok (keys ++ [key], rest) :=
  bind_eq_ok_iff.2 ⟨behind, hcolon, bind_eq_ok_iff.2 ⟨rest, hskip, rfl⟩⟩

/-- A member of no field is passed over alike. -/
theorem keyMember_of_skippedMember {state after : σ}
    (h : skippedMember state text = .ok (after, rest)) (keys : List String) (key : String) :
    after = state ∧ keyMember keys key text = .ok (keys ++ [key], rest) := by
  obtain ⟨behind, hcolon, h⟩ := bind_eq_ok_iff.1 h
  obtain ⟨left, hskip, h⟩ := bind_eq_ok_iff.1 h
  obtain ⟨rfl, rfl⟩ := Prod.mk.inj (Except.ok.inj h)
  exact ⟨rfl, keyMember_eq_ok hcolon hskip keys key⟩

/-- **An object that has been read has keys**, which stand in the relation to what was made of its
members that each member keeps. -/
theorem exists_memberKeys {expected : Expected} {start : σ} {members : Nat → σ → String → Reader σ}
    {finish : σ → Except Cause α} {depth : Nat} {x : α} {R : σ → List String → Prop}
    (hmember : ∀ {depth state keys key text after rest}, R state keys →
      members depth state key text = .ok (after, rest) →
      keyMember keys key text = .ok (keys ++ [key], rest) ∧ R after (keys ++ [key]))
    (hstart : R start [])
    (h : readWhole (readObject expected start members finish depth) text = .ok x) :
    ∃ keys state, memberKeys text = .ok keys ∧ R state keys ∧ finish state = .ok x := by
  obtain ⟨rest, hread, hend⟩ := readWhole_eq_ok_iff_exists.1 h
  obtain ⟨inner, tail, state, htext, hmembers, hfinish⟩ := exists_membersOf_of_readObject hread
  have hbeside : ∀ {state keys key text after rest}, R state keys →
      members inner state key text = .ok (after, rest) →
      ∃ keys', keyMember keys key text = .ok (keys', rest) ∧ R after keys' :=
    fun hR hm ↦ ⟨_, hmember hR hm⟩
  obtain ⟨keys, hkeys, hR⟩ := readMembers_beside hbeside hstart hmembers
  have hall : readObject .map [] (fun _ ↦ keyMember) .ok 1 text = .ok (keys, rest) := by
    rw [readObject, htext]
    exact bind_eq_ok_iff.2 ⟨_, hkeys, rfl⟩
  exact ⟨keys, state, readWhole_eq_ok_iff_exists.2 ⟨rest, hall, hend⟩, hR, hfinish⟩

namespace Layout

variable {layout : Layout σ α} {keys : List String}

/-- The keys so far have the key of a field once if it has been read, and not if it has not. -/
def Counts (layout : Layout σ α) (draft : σ) (keys : List String) : Prop :=
  ∀ f ∈ layout.fields, keys.count f.key = (f.get draft).toList.length

/-- **A member is passed over as it is read**, and counts. -/
theorem Flat.keyMember_of_member (hflat : layout.Flat) {depth : Nat} {before after : σ}
    (hcounts : layout.Counts before keys)
    (h : layout.member depth before key text = .ok (after, rest)) :
    keyMember keys key text = .ok (keys ++ [key], rest) ∧ layout.Counts after (keys ++ [key]) := by
  have hcount : ∀ k, (keys ++ [key]).count k = keys.count k + if key = k then 1 else 0 := by
    intro k
    rw [List.count_append, List.count_singleton]
    simp only [beq_iff_eq]
  obtain ⟨f, hf, rfl, hnone, behind, x, hcolon, hread, rfl⟩ | ⟨hkey, h⟩ := member_cases h
  · refine ⟨keyMember_eq_ok hcolon (hflat.skips f hf depth hread) keys f.key, fun g hg ↦ ?_⟩
    rw [hcount, hcounts g hg]
    by_cases hne : f.key = g.key
    · obtain rfl := eq_of_key_eq hf hg hne
      rw [if_pos rfl, hnone, f.get_put]
      rfl
    · rw [if_neg hne, get_put_of_ne hf hg hne]
      rfl
  · rw [readOther, hflat.body] at h
    obtain ⟨rfl, hkeys⟩ := keyMember_of_skippedMember h keys key
    refine ⟨hkeys, fun g hg ↦ ?_⟩
    have hne : key ≠ g.key := fun heq ↦ hkey (mem_keys_iff.2 ⟨g, hg, heq.symm⟩)
    rw [hcount, hcounts g hg, if_neg hne]
    rfl

/-- **A record that was read from an object** is made of fields each of which has its key once among
those of the members, or not at all. -/
theorem Flat.exists_memberKeys {expected : Expected} {depth : Nat} {record : α}
    (hflat : layout.Flat)
    (h : readWhole (readObject expected layout.start layout.member layout.finish depth) text =
      .ok record) :
    ∃ keys, memberKeys text = .ok keys ∧ ∀ f ∈ layout.fields, ∃ x : Option f.Value,
      keys.count f.key = x.toList.length ∧ f.Makes x record := by
  have hstart : layout.Counts layout.start [] := fun f hf ↦ by
    rw [layout.get_start f hf]
    rfl
  obtain ⟨keys, draft, hkeys, hcounts, hfinish⟩ :=
    Json.exists_memberKeys hflat.keyMember_of_member hstart h
  have hmakes := ((layout.finish_iff draft record).1 hfinish).1
  exact ⟨keys, hkeys, fun f hf ↦ ⟨f.get draft, hcounts f hf, hmakes f hf⟩⟩

end Layout

end HighlightBundle.Json
