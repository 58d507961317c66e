import HighlightBundle.Language
import HighlightBundle.Theme

/-!
# Definitions as lists of members

A definition read off a text that has been read already: the members of an object, in any order
and with any repetitions. It says in one place what a reader of the text finds out on its way:
which members have a meaning, how often each may occur, and of what kind its value has to be. What
is not a definition has no value here, and nothing says why.
-/

namespace HighlightBundle

open Json

namespace Json.Tree

/-- The values of the members with a key, in order. -/
def valuesAt (key : String) (members : List (String × Tree)) : List Tree :=
  (members.filter fun m ↦ m.1 == key).map Prod.snd

/-- A member that occurs once and is a string. -/
def requiredString? (key : String) (members : List (String × Tree)) : Option String :=
  match valuesAt key members with
  | [.string s] => some s
  | _ => none

/-- A member that occurs at most once and is a string or null; null is like no member. -/
def optionalString? (key : String) (members : List (String × Tree)) : Option (Option String) :=
  match valuesAt key members with
  | [] => some none
  | [.null] => some none
  | [.string s] => some (some s)
  | _ => none

/-- A member that occurs at most once and is a list of strings; no member is like the empty
list. -/
def stringList? (key : String) (members : List (String × Tree)) : Option (List String) :=
  match valuesAt key members with
  | [] => some []
  | [.array items] => items.mapM string?
  | _ => none

/-- The members without those that have one of the keys. -/
def membersWithout (keys : List String) (members : List (String × Tree)) : List (String × Tree) :=
  members.filter fun m ↦ !keys.contains m.1

end Json.Tree

namespace Language

/-- The keys with a meaning. -/
def fieldKeys : List String := ["name", "scopeName", "displayName", "aliases", "embeddedLangs"]

/-- The language that the members define. -/
def ofMembers? (members : List (String × Tree)) : Option Language := do
  let name ← Tree.requiredString? "name" members
  let scopeName ← Tree.requiredString? "scopeName" members
  let displayName ← Tree.optionalString? "displayName" members
  let aliases ← Tree.stringList? "aliases" members
  let embedded ← Tree.stringList? "embeddedLangs" members
  let body := Value.tableOf (Tree.membersWithout fieldKeys members)
  return { name, scopeName, displayName, aliases, embedded, body }

end Language

namespace ThemeKind

/-- The kind that a value is: a name, or an object with a name as its only key and null there. -/
def ofTree? : Tree → Option ThemeKind
  | .string name => ofName? name
  | .object [(name, .null)] => ofName? name
  | _ => none

end ThemeKind

namespace Theme

/-- The keys with a meaning. -/
def fieldKeys : List String := ["name", "displayName", "type"]

/-- The kind among the members; dark when there is none. -/
def kindOf? (members : List (String × Tree)) : Option ThemeKind :=
  match Tree.valuesAt "type" members with
  | [] => some .dark
  | [t] => ThemeKind.ofTree? t
  | _ => none

/-- The theme that the members define. -/
def ofMembers? (members : List (String × Tree)) : Option Theme := do
  let name ← Tree.requiredString? "name" members
  let displayName ← Tree.optionalString? "displayName" members
  let kind ← kindOf? members
  let body := Value.tableOf (Tree.membersWithout fieldKeys members)
  return { name, displayName, kind, body }

end Theme

end HighlightBundle
