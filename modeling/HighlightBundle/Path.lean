import HighlightBundle.Text.Pieces

/-!
# Paths and places

A path is followed part by part, from the root when it begins with a slash and from the working
directory when not. A place is told by the names that lead down to it from a directory that is
known: the root, the working directory or one above the working directory.

Of the directories above only this is known, that they are there: `..` leads on from each of them,
and from the root it leads back to the root. How far up the root is, and under which name the
working directory stands, is not known, so a place has one description for each way down to it.
-/

namespace HighlightBundle

/-- The directory from which the names of a place lead down. -/
inductive Origin where
  | root
  /-- The directory that many levels above the working directory. -/
  | above (levels : Nat)
deriving DecidableEq

namespace Origin

/-- The directory above. -/
def up : Origin → Origin
  | root => root
  | above levels => above (levels + 1)

end Origin

/-- Where a file or a directory stands. -/
structure Place where
  origin : Origin
  /-- The names on the way down. -/
  names : List String
deriving DecidableEq

namespace Place

/-- The working directory. -/
def working : Place := ⟨.above 0, []⟩

/-- The root. -/
def root : Place := ⟨.root, []⟩

/-- The place under a name. -/
def child (place : Place) (name : String) : Place :=
  { place with names := place.names ++ [name] }

/-- The directory above the place. -/
def up (place : Place) : Place :=
  if place.names.isEmpty then { place with origin := place.origin.up }
  else { place with names := place.names.dropLast }

/-- Going down and up again changes nothing. -/
@[simp] theorem up_child (place : Place) (name : String) : (place.child name).up = place := by
  simp [up, child]

/-- A place under a name has names. -/
@[simp] theorem isEmpty_names_child (place : Place) (name : String) :
    (place.child name).names.isEmpty = false := by
  simp [child]

end Place

namespace Path

/-- The parts of a path between its slashes. -/
def steps (path : String) : List String :=
  (pieces '/' path.toList).map String.ofList

/-- Where a path is followed from. -/
def start (path : String) : Place :=
  if path.toList.head? = some '/' then .root else .working

/-- A part that names nothing: the directory before it. -/
def isStill (step : String) : Bool := step.isEmpty || step == "."

/-- The part for the directory above. -/
def isUp (step : String) : Bool := step == ".."

end Path

end HighlightBundle
