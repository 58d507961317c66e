import HighlightBundle.Bundle.Basic
import HighlightBundle.Failure

/-!
# Resolving references

A reference resolves to what the engine needs. Plain text resolves to the empty pack whatever the
bundle contains, also when an id spells it, and a definition given directly resolves to itself;
everything else is looked up, exactly as it is written.

A request resolves to assets, or to the failure of its first reference that is not in the bundle:
its themes are resolved before its languages, and references to themes that ask for nothing are
left out before anything is looked up.
-/

namespace HighlightBundle.Bundle

/-- What the engine needs for a language. -/
def resolveLanguage (bundle : Bundle) : LanguageReference → Except Failure LanguagePack
  | .plaintext => .ok .plaintext
  | .inline pack => .ok pack
  | .bundled id =>
    if isPlaintext id then .ok .plaintext
    else match bundle.languages.get? id with
      | some pack => .ok pack
      | none => .error (.notBundled .language id)

/-- What the engine needs for a theme. -/
def resolveTheme (bundle : Bundle) : ThemeReference → Except Failure Theme
  | .inline theme => .ok theme
  | .bundled id =>
    match bundle.themes.get? id with
    | some theme => .ok theme
    | none => .error (.notBundled .theme id)

/-- What the engine needs for all the languages. -/
def resolveLanguages (bundle : Bundle) (references : List LanguageReference) :
    Except Failure (List LanguagePack) :=
  references.mapM bundle.resolveLanguage

/-- What the engine needs for all the themes, those left out that ask for nothing. -/
def resolveThemes (bundle : Bundle) (references : List ThemeReference) :
    Except Failure (List Theme) :=
  (references.filter fun r ↦ !r.isBlank).mapM bundle.resolveTheme

/-- What the engine needs for a request. -/
def resolve (bundle : Bundle) (request : Request) : Except Failure Assets := do
  let themes ← bundle.resolveThemes request.themes
  let packs ← bundle.resolveLanguages request.languages
  return { themes, packs }

end HighlightBundle.Bundle
