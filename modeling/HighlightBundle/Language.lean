import HighlightBundle.Json.Fields
import HighlightBundle.Json.Printer
import HighlightBundle.Text.Blank

/-!
# Languages

A language definition is what a bundle has to know about a language, its name, its aliases and the
languages it embeds, and a body that is none of the bundle's business and is handed to the engine
untouched. A `LanguagePack` is what a language resolves to: definitions in the order in which the
engine gets them, the language itself last, after the ones it embeds. The empty pack stands for
plain text.

## The written form

A definition is an object. The members with a meaning are `name`, `scopeName`, `displayName`,
`aliases` and `embeddedLangs`; each may occur once, the first two have to. All other members are
the body, the last one with a key counting. Members are read in the order of the text, each as
soon as its key is known.
-/

namespace HighlightBundle

open Json

/-- A language definition. -/
structure Language where
  /-- The name users refer to. -/
  name : String
  /-- The root scope of its grammar. -/
  scopeName : String
  displayName : Option String
  /-- Other names it can be requested with. -/
  aliases : List String
  /-- Names of the languages that have to be loaded with it. -/
  embedded : List String
  /-- Everything else. -/
  body : Table Value
deriving DecidableEq

/-- What the engine is given for a language: definitions, the language itself last. -/
structure LanguagePack where
  languages : List Language
deriving DecidableEq

/-! ## Plain text -/

/-- The name of the language that highlights nothing. -/
def plaintextName : String := "plaintext"

/-- Other names of plain text. -/
def plaintextAliases : List String := ["text", "txt", "plain"]

/-- Whether the name asks for plain text. A blank name does. -/
def isPlaintext (name : String) : Bool :=
  let name := trim name
  name.isEmpty || name == plaintextName || plaintextAliases.contains name

namespace LanguagePack

/-- The pack that highlights nothing. -/
def plaintext : LanguagePack := ⟨[]⟩

/-- The pack of a language alone. -/
def single (language : Language) : LanguagePack := ⟨[language]⟩

/-- Whether the pack highlights nothing. -/
def isPlaintext (pack : LanguagePack) : Bool := pack.languages.isEmpty

/-- The language that the pack is for. -/
def main? (pack : LanguagePack) : Option Language := pack.languages.getLast?

/-- The name to highlight with. -/
def name (pack : LanguagePack) : String :=
  match pack.main? with
  | some language => language.name
  | none => plaintextName

end LanguagePack

namespace Language

/-- The names under which the language can be requested: its aliases, then its name. -/
def keys (language : Language) : List String :=
  language.aliases ++ [language.name]

theorem mem_keys_iff {language : Language} {key : String} :
    key ∈ language.keys ↔ key = language.name ∨ key ∈ language.aliases := by
  rw [keys, List.mem_append, List.mem_singleton, or_comm]

/-! ## Reading -/

/-- What has been read of a definition. -/
structure Draft where
  name : Option String
  scopeName : Option String
  displayName : Option (Option String)
  aliases : Option (List String)
  embedded : Option (List String)
  body : List (String × Tree)

namespace Draft

/-- Nothing has been read. -/
def empty : Draft := ⟨none, none, none, none, none, []⟩

/-- Reads the member with that key. -/
def member (depth : Nat) (draft : Draft) (key : String) : Reader Draft := fun text ↦
  if key = "name" then do
    let (x, rest) ← setOnce key draft.name readString text
    return ({ draft with name := some x }, rest)
  else if key = "scopeName" then do
    let (x, rest) ← setOnce key draft.scopeName readString text
    return ({ draft with scopeName := some x }, rest)
  else if key = "displayName" then do
    let (x, rest) ← setOnce key draft.displayName readOptionalString text
    return ({ draft with displayName := some x }, rest)
  else if key = "aliases" then do
    let (x, rest) ← setOnce key draft.aliases (readStrings depth) text
    return ({ draft with aliases := some x }, rest)
  else if key = "embeddedLangs" then do
    let (x, rest) ← setOnce key draft.embedded (readStrings depth) text
    return ({ draft with embedded := some x }, rest)
  else do
    let (body, rest) ← treeMember (readTree depth) draft.body key text
    return ({ draft with body := body }, rest)

/-- The definition, if its name and its scope have been read. -/
def finish (draft : Draft) : Except Cause Language := do
  let name ← required "name" draft.name
  let scopeName ← required "scopeName" draft.scopeName
  return {
    name, scopeName
    displayName := draft.displayName.getD none
    aliases := draft.aliases.getD []
    embedded := draft.embedded.getD []
    body := Value.tableOf draft.body }

end Draft

/-- A language definition. -/
def read (depth : Nat) : Reader Language :=
  readObject (.record "LanguageRegistration") Draft.empty Draft.member Draft.finish depth

/-- The language definition that a whole text is. -/
def ofText (text : Text) : Except Fault Language :=
  readWhole (read depthLimit) text

/-! ## Writing -/

/-- The written form. The body comes last, in the order of its keys. -/
def tree (language : Language) : Tree :=
  .object <|
    [("name", .string language.name), ("scopeName", .string language.scopeName)]
      ++ Tree.optionalMember "displayName" language.displayName
      ++ [("aliases", .array (language.aliases.map .string)),
        ("embeddedLangs", .array (language.embedded.map .string))]
      ++ Value.membersOf language.body

/-- Equality of what is meant: the numbers of the bodies are compared as numbers. -/
def agrees (a b : Language) : Bool :=
  a.name == b.name && a.scopeName == b.scopeName && a.displayName == b.displayName
    && a.aliases == b.aliases && a.embedded == b.embedded && a.body.agrees Value.agrees b.body

end Language

namespace LanguagePack

/-- A pack: a list of definitions. -/
def read (depth : Nat) : Reader LanguagePack := fun text ↦ do
  let (languages, rest) ← readList Language.read depth text
  return (⟨languages⟩, rest)

/-- The pack that a whole text is. -/
def ofText (text : Text) : Except Fault LanguagePack :=
  readWhole (read depthLimit) text

/-- The written form. -/
def tree (pack : LanguagePack) : Tree :=
  .array (pack.languages.map Language.tree)

/-- The lists agree one by one. -/
def languagesAgree : List Language → List Language → Bool
  | [], [] => true
  | a :: as, b :: bs => a.agrees b && languagesAgree as bs
  | _, _ => false

/-- Equality of what is meant. -/
def agrees (a b : LanguagePack) : Bool :=
  languagesAgree a.languages b.languages

end LanguagePack

end HighlightBundle
