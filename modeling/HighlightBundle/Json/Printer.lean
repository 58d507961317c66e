import HighlightBundle.Json.Strings
import HighlightBundle.Json.Tree

/-!
# Writing JSON

A tree is written without any space, its members in their order. Reading back what is written gives
the tree again wherever the reader gives back the numbers that were written.
-/

namespace HighlightBundle.Json.Tree

/-- The parts with a comma between them. -/
def commas : List (List Char) → List Char
  | [] => []
  | [part] => part
  | part :: rest => part ++ ',' :: commas rest

mutual

/-- The text of a tree. -/
def write : Tree → List Char
  | null => "null".toList
  | boolean true => "true".toList
  | boolean false => "false".toList
  | number n => n.text
  | string s => writeString s
  | array items => '[' :: commas (writeItems items) ++ [']']
  | object members => '\x7b' :: commas (writeMembers members) ++ ['\x7d']

/-- The text of each item. -/
def writeItems : List Tree → List (List Char)
  | [] => []
  | t :: rest => t.write :: writeItems rest

/-- The text of each member. -/
def writeMembers : List (String × Tree) → List (List Char)
  | [] => []
  | (key, t) :: rest => (writeString key ++ ':' :: t.write) :: writeMembers rest

end

/-- The text of a tree. -/
def text (t : Tree) : String :=
  String.ofList t.write

end HighlightBundle.Json.Tree
