import HighlightBundle.Language
import HighlightBundle.Theme

/-!
# References

How a caller names what it wants: by an id that has to be in the bundle, or by giving the
definition itself. A language can also be plain text, which is in no bundle and always available.

A string becomes a reference in its trimmed form. The markers of plain text and blank strings ask
for plain text; a blank string as a theme asks for nothing (`ThemeReference.isBlank`). An id given
as an id is taken as it is.
-/

namespace HighlightBundle

/-- How a caller refers to a language. -/
inductive LanguageReference where
  /-- The text is kept as it is. -/
  | plaintext
  /-- A name or an alias that has to be in the bundle. -/
  | bundled (id : String)
  /-- Definitions given directly. -/
  | inline (pack : LanguagePack)
deriving DecidableEq

namespace LanguageReference

/-- The reference that a string is. -/
def ofString (s : String) : LanguageReference :=
  if isPlaintext s then plaintext else bundled (trim s)

/-- The name that the engine knows the language by. -/
def name : LanguageReference → String
  | plaintext => plaintextName
  | bundled id => id
  | inline pack => pack.name

end LanguageReference

/-- How a caller refers to a theme. -/
inductive ThemeReference where
  /-- A name that has to be in the bundle. -/
  | bundled (id : String)
  /-- A definition given directly. -/
  | inline (theme : Theme)
deriving DecidableEq

namespace ThemeReference

/-- The reference that a string is. -/
def ofString (s : String) : ThemeReference := bundled (trim s)

/-- The id, or the name of the definition. -/
def name : ThemeReference → String
  | bundled id => id
  | inline theme => theme.name

/-- Whether the reference asks for nothing. A definition never does, even without a name. -/
def isBlank : ThemeReference → Bool
  | bundled id => (trim id).isEmpty
  | inline _ => false

end ThemeReference

/-- What a caller asks for. -/
structure Request where
  themes : List ThemeReference
  languages : List LanguageReference
deriving DecidableEq

/-- What a request resolves to. -/
structure Assets where
  themes : List Theme
  packs : List LanguagePack
deriving DecidableEq

end HighlightBundle
