import HighlightBundle.Bundle.Basic
import HighlightBundle.Json.Records

/-!
# Dumps

A bundle is dumped as one object with two members, `languages` and `themes`, each an object with
the keys of a table. In which order the entries of a table are written is left open: `treeOf` takes
them in any order, and reading does not depend on it, since what is read goes into a table again.

Reading also accepts the list of the two tables. Both are required, neither may be given twice,
other members are passed over, and of several entries with one key the last one counts.
-/

namespace HighlightBundle.Bundle

open Json

/-! ## Writing -/

/-- The written form of the entries of two tables, in the order given. -/
def treeOf (languages : List (String × LanguagePack)) (themes : List (String × Theme)) : Tree :=
  .object [
    ("languages", .object (languages.map fun e ↦ (e.1, e.2.tree))),
    ("themes", .object (themes.map fun e ↦ (e.1, e.2.tree)))]

/-- The written form of a bundle. -/
def tree (bundle : Bundle) : Tree :=
  treeOf bundle.languages.toList bundle.themes.toList

/-- The text of a dump. -/
def dump (bundle : Bundle) : Text :=
  bundle.tree.write.map Symbol.char

/-! ## Reading -/

/-- A bundle as a list of values. -/
def record : Listed := ⟨"Bundle", 2⟩

/-- An entry of a table, behind its key. -/
def readEntry {α : Type} (value : Nat → Reader α) (depth : Nat) (table : Table α) (key : String) :
    Reader (Table α) := fun text ↦ do
  let text ← readColon text
  let (x, rest) ← value depth text
  return (table.insert key x, rest)

/-- A table: an object with any keys. -/
def readTable {α : Type} (value : Nat → Reader α) (depth : Nat) : Reader (Table α) :=
  readObject .map .empty (readEntry value) .ok depth

/-- The two tables in their order. -/
def readValues (depth : Nat) : Reader Bundle := fun text ↦ do
  let (languages, text) ← record.readField 0 (readTable LanguagePack.read depth) text
  let (themes, text) ← record.readField 1 (readTable Theme.read depth) text
  return ({ languages, themes }, text)

/-- What has been read of an object. -/
structure Draft where
  languages : Option (Table LanguagePack)
  themes : Option (Table Theme)

namespace Draft

/-- Nothing has been read. -/
def empty : Draft := ⟨none, none⟩

/-- Reads the member with that key. -/
def member (depth : Nat) (draft : Draft) (key : String) : Reader Draft := fun text ↦
  if key = "languages" then do
    let (x, rest) ← setOnce key draft.languages (readTable LanguagePack.read depth) text
    return ({ draft with languages := some x }, rest)
  else if key = "themes" then do
    let (x, rest) ← setOnce key draft.themes (readTable Theme.read depth) text
    return ({ draft with themes := some x }, rest)
  else skippedMember draft text

/-- The bundle, if both tables have been read. -/
def finish (draft : Draft) : Except Cause Bundle := do
  let languages ← required "languages" draft.languages
  let themes ← required "themes" draft.themes
  return { languages, themes }

end Draft

/-- A bundle. -/
def read (depth : Nat) : Reader Bundle :=
  readRecord readValues
    (readObject (.record record.name) Draft.empty Draft.member Draft.finish) depth

/-- The bundle that the text of a dump is. -/
def ofText (text : Text) : Except Fault Bundle :=
  readWhole (read depthLimit) text

end HighlightBundle.Bundle
