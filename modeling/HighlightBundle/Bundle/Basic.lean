import HighlightBundle.Reference

/-!
# Bundles

A bundle is a fixed set of languages and themes by id. The table of languages has an entry for the
name and for every alias of a language, each with the whole pack that the language resolves to; the
table of themes has one entry for each theme, under its name. A bundle can also be made from tables
that were built elsewhere, so nothing in the type ties keys to names.

Adding a language settles its pack once and for all: the packs that its embedded languages have at
that moment, each definition at its first occurrence by name, and then the language itself.
Embedded languages that are not in the bundle are left out (`missingEmbedded`), and a later
definition of one of them does not reach into packs that exist.

The listings are functions of the values of a table in any order, because the order in which a
table is gone through is nobody's promise.
-/

namespace HighlightBundle

/-- Languages and themes by id. -/
structure Bundle where
  /-- Names and aliases, with what the engine is given for them. -/
  languages : Table LanguagePack
  themes : Table Theme
deriving DecidableEq

namespace Bundle

/-- The bundle without anything. -/
def empty : Bundle := ⟨.empty, .empty⟩

/-! ## Adding -/

/-- The definitions that are the first ones of their name, and whose name has not been seen. -/
def firstOfName (seen : List String) : List Language → List Language
  | [] => []
  | language :: rest =>
    if language.name ∈ seen then firstOfName seen rest
    else language :: firstOfName (language.name :: seen) rest

/-- The definitions under a key; none if it is not in the bundle. -/
def definitionsAt (bundle : Bundle) (key : String) : List Language :=
  match bundle.languages.get? key with
  | some pack => pack.languages
  | none => []

/-- What a language would resolve to if it were added now. -/
def packFor (bundle : Bundle) (language : Language) : LanguagePack :=
  ⟨firstOfName [language.name] (language.embedded.flatMap bundle.definitionsAt) ++ [language]⟩

/-- The embedded languages that are not in the bundle, in order. -/
def missingEmbedded (bundle : Bundle) (language : Language) : List String :=
  language.embedded.filter fun name ↦ !bundle.languages.contains name

/-- Adds a language under its aliases and its name. -/
def addLanguage (bundle : Bundle) (language : Language) : Bundle :=
  let pack := bundle.packFor language
  { bundle with languages := bundle.languages.insertAll (language.keys.map fun key ↦ (key, pack)) }

/-- Adds one more key for what is under a key; nothing happens if nothing is. -/
def addAlias (bundle : Bundle) (language newKey : String) : Bundle :=
  match bundle.languages.get? language with
  | some pack => { bundle with languages := bundle.languages.insert newKey pack }
  | none => bundle

/-- Adds a theme under its name. -/
def addTheme (bundle : Bundle) (theme : Theme) : Bundle :=
  { bundle with themes := bundle.themes.insert theme.name theme }

/-! ## Looking -/

/-- Whether the id is a key of a language. -/
def containsLanguage (bundle : Bundle) (id : String) : Bool :=
  bundle.languages.contains id

/-- Whether the id is a key of a theme. -/
def containsTheme (bundle : Bundle) (id : String) : Bool :=
  bundle.themes.contains id

/-- The languages that the packs are for, one of each name, sorted by name. Of several with one
name the first one counts. -/
def listLanguages (packs : List LanguagePack) : List Language :=
  (firstOfName [] (packs.filterMap LanguagePack.main?)).mergeSort
    fun a b ↦ decide (a.name ≤ b.name)

/-- The themes, sorted by name. -/
def listThemes (themes : List Theme) : List Theme :=
  themes.mergeSort fun a b ↦ decide (a.name ≤ b.name)

/-- All languages of the bundle, sorted by name. -/
def languageListing (bundle : Bundle) : List Language :=
  listLanguages bundle.languages.values

/-- All themes of the bundle, sorted by name. -/
def themeListing (bundle : Bundle) : List Theme :=
  listThemes bundle.themes.values

/-- Equality of what is meant: the numbers of the bodies are compared as numbers. -/
def agrees (a b : Bundle) : Bool :=
  a.languages.agrees LanguagePack.agrees b.languages && a.themes.agrees Theme.agrees b.themes

end Bundle

end HighlightBundle
