import HighlightBundle.Table

/-!
# Markup

Code is put into one preformatted element, with the language and the themes as attributes. Only
the code is escaped: the four characters with a meaning in markup are replaced by entities, one
after the other over the whole text, the ampersand first so that no entity is escaped again.
-/

namespace HighlightBundle.Markup

/-- The text with every occurrence of a character replaced. -/
def replaceChar (c : Char) (replacement : List Char) (text : List Char) : List Char :=
  text.flatMap fun d ↦ if d = c then replacement else [d]

/-- The text with the characters replaced that have a meaning in markup. -/
def escapeChars (text : List Char) : List Char :=
  replaceChar '"' "&quot;".toList <|
    replaceChar '>' "&gt;".toList <|
      replaceChar '<' "&lt;".toList <|
        replaceChar '&' "&amp;".toList text

/-- The code as it stands in markup. -/
def escape (code : String) : String :=
  String.ofList (escapeChars code.toList)

/-- The class of the element. -/
def classText : Option String → String
  | some name => s!"fake {name}"
  | none => "fake"

/-- An attribute with its value, and the space before it. -/
def attributeText (name value : String) : String :=
  s!" {name}=\"{value}\""

/-- The element around the code. -/
def element (className : Option String) (attributes : List (String × String)) (code : String) :
    String :=
  "<pre" ++ String.join ((("class", classText className) :: attributes).map fun a ↦
    attributeText a.1 a.2) ++ "><code>" ++ escape code ++ "</code></pre>"

/-- The themes with their roles, in the order of the roles. -/
def roleList (names : Table String) : String :=
  " ".intercalate (names.toList.map fun e ↦ s!"{e.1}:{e.2}")

end HighlightBundle.Markup
