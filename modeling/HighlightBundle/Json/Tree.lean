import HighlightBundle.Number.Shortest
import HighlightBundle.Table

/-!
# Values of JSON

There are two types. A `Tree` is what a text says: the members of an object in the order in which
they were written, repeated keys and all. A `Value` is what is meant: the members of every object
have distinct keys in increasing order, so that equal values are equal data. `Value.ofTree` goes
from the first to the second, the last of the members with one key counting, at every depth.

A number keeps what the text distinguishes: an integer literal that fits in sixty-four bits, with
or without sign, stays an integer, and everything else is a double, `-0` included.
-/

namespace HighlightBundle.Json

-- powers of numbers are those of the core library, whatever else is in scope
attribute [local instance (2000)] instPowNat

/-- An integer within `-2 ^ 63 .. 2 ^ 64 - 1`, or a double. -/
inductive Number where
  | integer (n : Int) (fits : -2 ^ (63 : Nat) ≤ n ∧ n < 2 ^ (64 : Nat))
  | double (x : Binary64)
deriving DecidableEq

namespace Number

/-- The largest integer without sign. -/
def maxInteger : Nat := 2 ^ (64 : Nat) - 1

/-- A count; one that does not fit is cut to the largest integer. -/
def ofNat (n : Nat) : Number :=
  .integer (min n maxInteger : Nat) (by unfold maxInteger; omega)

/-- The text of a number. -/
def text : Number → List Char
  | integer n _ => decimalText n
  | double x => x.text

/-- Equality of numbers: an integer is never a double, and the two zeros are one double. -/
def agrees : Number → Number → Bool
  | integer n _, integer m _ => n == m
  | double x, double y => x.agrees y
  | _, _ => false

end Number

/-- What a text says. -/
inductive Tree where
  | null
  | boolean (b : Bool)
  | number (n : Number)
  | string (s : String)
  | array (items : List Tree)
  | object (members : List (String × Tree))

namespace Tree

mutual

/-- Equality of trees. -/
def same : Tree → Tree → Bool
  | null, null => true
  | boolean a, boolean b => a == b
  | number a, number b => a == b
  | string a, string b => a == b
  | array a, array b => sameItems a b
  | object a, object b => sameMembers a b
  | _, _ => false

/-- Equality of items. -/
def sameItems : List Tree → List Tree → Bool
  | [], [] => true
  | a :: as, b :: bs => same a b && sameItems as bs
  | _, _ => false

/-- Equality of members. -/
def sameMembers : List (String × Tree) → List (String × Tree) → Bool
  | [], [] => true
  | (k, a) :: as, (l, b) :: bs => k == l && same a b && sameMembers as bs
  | _, _ => false

end

mutual

theorem eq_of_same : (a b : Tree) → same a b = true → a = b
  | null, b, h => by cases b <;> simp_all [same]
  | boolean _, b, h => by cases b <;> simp_all [same]
  | number _, b, h => by cases b <;> simp_all [same]
  | string _, b, h => by cases b <;> simp_all [same]
  | array as, b, h => by
    cases b with
    | array bs => rw [items_eq_of_same as bs (by simpa [same] using h)]
    | _ => simp [same] at h
  | object as, b, h => by
    cases b with
    | object bs => rw [members_eq_of_same as bs (by simpa [same] using h)]
    | _ => simp [same] at h

theorem items_eq_of_same : (as bs : List Tree) → sameItems as bs = true → as = bs
  | [], bs, h => by cases bs <;> simp_all [sameItems]
  | a :: as, bs, h => by
    cases bs with
    | nil => simp [sameItems] at h
    | cons b bs =>
      simp only [sameItems, Bool.and_eq_true] at h
      rw [eq_of_same a b h.1, items_eq_of_same as bs h.2]

theorem members_eq_of_same : (as bs : List (String × Tree)) → sameMembers as bs = true → as = bs
  | [], bs, h => by cases bs <;> simp_all [sameMembers]
  | (k, a) :: as, bs, h => by
    cases bs with
    | nil => simp [sameMembers] at h
    | cons p bs =>
      obtain ⟨l, b⟩ := p
      simp only [sameMembers, Bool.and_eq_true, beq_iff_eq] at h
      rw [h.1.1, eq_of_same a b h.1.2, members_eq_of_same as bs h.2]

end

mutual

theorem same_refl : (a : Tree) → same a a = true
  | null | boolean _ | number _ | string _ => by simp [same]
  | array as => by simpa [same] using sameItems_refl as
  | object as => by simpa [same] using sameMembers_refl as

theorem sameItems_refl : (as : List Tree) → sameItems as as = true
  | [] => rfl
  | a :: as => by simp [sameItems, same_refl a, sameItems_refl as]

theorem sameMembers_refl : (as : List (String × Tree)) → sameMembers as as = true
  | [] => rfl
  | (k, a) :: as => by simp [sameMembers, same_refl a, sameMembers_refl as]

end

instance : DecidableEq Tree := fun a b ↦
  if h : same a b then .isTrue (eq_of_same a b h)
  else .isFalse fun e ↦ h (e ▸ same_refl a)

mutual

/-- Equality of what is meant: numbers are compared as numbers. -/
def agrees : Tree → Tree → Bool
  | null, null => true
  | boolean a, boolean b => a == b
  | number a, number b => a.agrees b
  | string a, string b => a == b
  | array a, array b => itemsAgree a b
  | object a, object b => membersAgree a b
  | _, _ => false

/-- Items agree one by one. -/
def itemsAgree : List Tree → List Tree → Bool
  | [], [] => true
  | a :: as, b :: bs => agrees a b && itemsAgree as bs
  | _, _ => false

/-- Members agree one by one. -/
def membersAgree : List (String × Tree) → List (String × Tree) → Bool
  | [], [] => true
  | (k, a) :: as, (l, b) :: bs => k == l && agrees a b && membersAgree as bs
  | _, _ => false

end

mutual

/-- The members of every object have increasing keys. -/
def Canonical : Tree → Prop
  | array items => CanonicalItems items
  | object members => Ascending members ∧ CanonicalMembers members
  | _ => True

/-- All items are canonical. -/
def CanonicalItems : List Tree → Prop
  | [] => True
  | t :: rest => Canonical t ∧ CanonicalItems rest

/-- The values of all members are canonical. -/
def CanonicalMembers : List (String × Tree) → Prop
  | [] => True
  | (_, t) :: rest => Canonical t ∧ CanonicalMembers rest

end

mutual

/-- The members of every object in increasing order of their keys, the last one with a key
counting. -/
def canonical : Tree → Tree
  | array items => array (canonicalItems items)
  | object members => object (canonicalMembers [] members)
  | t => t

/-- Every item made canonical. -/
def canonicalItems : List Tree → List Tree
  | [] => []
  | t :: rest => canonical t :: canonicalItems rest

/-- The members made canonical and inserted into the ones that are done. -/
def canonicalMembers (done : List (String × Tree)) : List (String × Tree) → List (String × Tree)
  | [] => done
  | (k, t) :: rest => canonicalMembers (insertEntry k (canonical t) done) rest

end

theorem canonicalMembers_iff {members : List (String × Tree)} :
    CanonicalMembers members ↔ ∀ e ∈ members, Canonical e.2 := by
  induction members with
  | nil => simp [CanonicalMembers]
  | cons e rest ih =>
    obtain ⟨k, t⟩ := e
    simp [CanonicalMembers, ih]

theorem canonicalMembers_insertEntry {k : String} {t : Tree} {members : List (String × Tree)}
    (ht : Canonical t) (h : CanonicalMembers members) :
    CanonicalMembers (insertEntry k t members) := by
  rw [canonicalMembers_iff] at h ⊢
  intro e he
  rcases mem_insertEntry he with rfl | he
  · exact ht
  · exact h e he

mutual

theorem canonical_canonical : (t : Tree) → Canonical (canonical t)
  | null | boolean _ | number _ | string _ => by simp [canonical, Canonical]
  | array items => by simpa [canonical, Canonical] using canonicalItems_canonicalItems items
  | object members => by
    simpa [canonical, Canonical] using
      canonical_canonicalMembers [] members List.Pairwise.nil (by simp [CanonicalMembers])

theorem canonicalItems_canonicalItems : (items : List Tree) → CanonicalItems (canonicalItems items)
  | [] => by simp [canonicalItems, CanonicalItems]
  | t :: rest => by
    simp [canonicalItems, CanonicalItems, canonical_canonical t, canonicalItems_canonicalItems rest]

theorem canonical_canonicalMembers (done : List (String × Tree)) :
    (members : List (String × Tree)) → Ascending done → CanonicalMembers done →
    Ascending (canonicalMembers done members) ∧ CanonicalMembers (canonicalMembers done members)
  | [], ha, hc => by simpa [canonicalMembers] using ⟨ha, hc⟩
  | (k, t) :: rest, ha, hc => by
    simpa [canonicalMembers] using canonical_canonicalMembers
      (insertEntry k (canonical t) done) rest
      (ascending_insertEntry _ _ ha) (canonicalMembers_insertEntry (canonical_canonical t) hc)

end

/-- The value of the last member with a key. -/
def member? (key : String) : Tree → Option Tree
  | object members => (members.reverse.lookup key)
  | _ => none

/-- A string, or null for none. -/
def ofOption : Option String → Tree
  | some s => string s
  | none => null

/-- The member for a field that is left out when there is nothing in it. -/
def optionalMember (key : String) : Option String → List (String × Tree)
  | some s => [(key, string s)]
  | none => []

/-- The string that the tree is. -/
def string? : Tree → Option String
  | string s => some s
  | _ => none

end Tree

/-- What is meant: a tree in which every object has increasing keys. -/
structure Value where
  tree : Tree
  canonical : tree.Canonical
deriving DecidableEq

namespace Value

/-- What a text means. -/
def ofTree (t : Tree) : Value := ⟨t.canonical, t.canonical_canonical⟩

/-- The table of the members of an object, each with what it means. -/
def tableOf (members : List (String × Tree)) : Table Value :=
  Table.ofList (members.map fun m ↦ (m.1, ofTree m.2))

/-- Equality of what is meant: numbers are compared as numbers. -/
def agrees (a b : Value) : Bool := a.tree.agrees b.tree

/-- The members that the entries of a table are. -/
def membersOf (table : Table Value) : List (String × Tree) :=
  table.toList.map fun e ↦ (e.1, e.2.tree)

end Value

end HighlightBundle.Json
