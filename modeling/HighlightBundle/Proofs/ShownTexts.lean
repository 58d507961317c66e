import HighlightBundle.Proofs.LoadedRendering
import HighlightBundle.Proofs.ResolvedStrings

/-!
# What rendered code shows

The answers of an engine, written out. The two forms of markup are given as texts
(`Markup.element_oneTheme`, `Markup.element_roles`), the name that a language is shown with in terms
of the definitions of its pack (`LanguagePack.ShownAs`), and the colour of tokens in terms of the
body of a theme (`Theme.editorForeground`). Nothing of the engine occurs in these descriptions.
-/

namespace HighlightBundle

open Json

/-! ### Markup -/

namespace Markup

theorem classText_eq (className : Option String) :
    classText className = "fake" ++ className.elim "" (" " ++ ·) := by
  cases className <;> rfl

/-- The text of an element: first its class, then its attributes. -/
theorem element_eq (className : Option String) (attributes : List (String × String))
    (code : String) : element className attributes code =
      "<pre class=\"fake" ++ className.elim "" (" " ++ ·) ++ "\"" ++
        String.join (attributes.map fun a ↦ " " ++ a.1 ++ "=\"" ++ a.2 ++ "\"") ++ "><code>" ++
          escape code ++ "</code></pre>" := by
  have hclass : "<pre" ++ attributeText "class" (classText className) =
      "<pre class=\"fake" ++ className.elim "" (" " ++ ·) ++ "\"" := by
    rw [classText_eq]
    rfl
  rw [element, List.map_cons, String.join_cons, ← String.append_assoc, hclass]
  rfl

/-- The text of an element with a language and one theme. -/
theorem element_oneTheme (className : Option String) (language theme code : String) :
    element className [("data-lang", language), ("data-theme", theme)] code =
      "<pre class=\"fake" ++ className.elim "" (" " ++ ·) ++ "\" data-lang=\"" ++ language ++
        "\" data-theme=\"" ++ theme ++ "\"><code>" ++ escape code ++ "</code></pre>" := by
  simp only [element_eq, List.map_cons, List.map_nil, String.join_cons, String.join_nil,
    String.append_assoc]
  rfl

/-- The text of an element with a language and a theme for each role. -/
theorem element_roles (className : Option String) (pack : LanguagePack) (names : Table String)
    (defaultColor : Option String) (code : String) :
    element className (Engine.roleAttributes pack names defaultColor) code =
      "<pre class=\"fake" ++ className.elim "" (" " ++ ·) ++ "\" data-lang=\"" ++
        pack.shownName ++ "\" data-themes=\"" ++
          " ".intercalate (names.toList.map fun e ↦ e.1 ++ ":" ++ e.2) ++ "\"" ++
            defaultColor.elim "" (fun role ↦ " data-default=\"" ++ role ++ "\"") ++ "><code>" ++
              escape code ++ "</code></pre>" := by
  have hroles : roleList names = " ".intercalate (names.toList.map fun e ↦ e.1 ++ ":" ++ e.2) := rfl
  rw [← hroles, Engine.roleAttributes]
  cases defaultColor <;>
    simp only [element_eq, Option.map_none, Option.map_some, Option.toList_none,
      Option.toList_some, List.cons_append, List.nil_append, List.map_cons, List.map_nil,
      String.join_cons, String.join_nil, String.append_assoc, Option.elim_none, Option.elim_some] <;>
    rfl

end Markup

/-! ### Names of languages -/

/-- Code in the language of the pack is shown as `plaintext` if the pack is empty or the name of its
last definition asks for plain text, and else with this name. -/
def LanguagePack.ShownAs (pack : LanguagePack) (shown : String) : Prop :=
  (pack.languages = [] ∧ shown = "plaintext") ∨
    ∃ front last, pack.languages = front ++ [last] ∧
      shown = if Unhighlighted (trim last.name) then "plaintext" else last.name

/-- There is one name to show, which is the one that is shown. -/
theorem LanguagePack.shownAs_iff {pack : LanguagePack} {shown : String} :
    pack.ShownAs shown ↔ shown = pack.shownName := by
  rcases pack.languages.eq_nil_or_concat' with hnil | ⟨front, last, hlast⟩
  · have hmain : pack.main? = none := by rw [main?, hnil, List.getLast?_nil]
    rw [ShownAs, shownName, hmain, hnil]
    simp [plaintextName]
  · have hmain : pack.main? = some last := by rw [main?, hlast, List.getLast?_concat]
    rw [ShownAs, shownName, hmain, hlast]
    simp [plaintextName, isPlaintext_iff]

/-! ### Colours of tokens -/

namespace Theme

variable {theme : Theme} {color : String}

/-- The string that is `editor.foreground` among the `colors` of the body. -/
def editorForeground (theme : Theme) : Option String :=
  match (theme.body.get? "colors").map Value.tree with
  | some (.object colors) =>
    match colors.lookup "editor.foreground" with
    | some (.string color) => some color
    | _ => none
  | _ => none

/-- The members of an object of the body are the entries of a table. -/
theorem ascending_of_tree_eq {colors : Value} {members : List (String × Tree)}
    (h : colors.tree = .object members) : Ascending members := by
  have hcanonical := colors.canonical
  rw [h] at hcanonical
  exact hcanonical.1

/-- It is a string if there are such members. -/
theorem editorForeground_eq_some_iff : theme.editorForeground = some color ↔
    ∃ colors members, theme.body.get? "colors" = some colors ∧ colors.tree = .object members ∧
      ("editor.foreground", .string color) ∈ members := by
  have hmem {colors : Value} {members : List (String × Tree)} (h : colors.tree = .object members) :
      ("editor.foreground", .string color) ∈ members ↔
        members.lookup "editor.foreground" = some (.string color) := by
    let table : Table Tree := ⟨members, ascending_of_tree_eq h⟩
    exact (Table.mem_toList_iff : _ ∈ table.toList ↔ table.get? _ = _)
  rw [editorForeground]
  constructor
  · intro h
    split at h
    · next members hobject =>
      obtain ⟨colors, hcolors, htree⟩ := Option.map_eq_some_iff.1 hobject
      split at h
      · next hlookup =>
        obtain rfl := Option.some.inj h
        exact ⟨colors, members, hcolors, htree, (hmem htree).2 hlookup⟩
      · exact absurd h nofun
    · exact absurd h nofun
  · rintro ⟨colors, members, hcolors, htree, hmember⟩
    rw [hcolors, Option.map_some, htree]
    show (match members.lookup "editor.foreground" with | some (.string color) => _ | _ => _) = _
    rw [(hmem htree).1 hmember]

/-- **Code has this colour in general.** -/
theorem foreground?_eq (theme : Theme) : theme.foreground? = theme.editorForeground := by
  rw [foreground?, editorForeground]
  rcases theme.body.get? "colors" with - | colors
  · rfl
  · rw [Option.map_some]
    show (colors.tree.member? "editor.foreground").bind Tree.string? = _
    rcases htree : colors.tree with - | - | - | - | - | members
    all_goals try rfl
    show (members.reverse.lookup "editor.foreground").bind Tree.string? = _
    rw [Table.lookup_reverse ⟨members, ascending_of_tree_eq htree⟩]
    show (members.lookup "editor.foreground").bind Tree.string? =
      match members.lookup "editor.foreground" with | some (.string color) => some color | _ => none
    rcases members.lookup "editor.foreground" with - | (- | - | - | - | - | -) <;> rfl

end Theme

namespace Engine

/-- Every line that is not empty is one token. -/
theorem contents_lineTokens {color : Option String} {offset : Nat} {lines : List (List Char)} :
    (lineTokens color offset lines).map (fun tokens ↦ tokens.map Token.content) =
      lines.map fun line ↦ if line = [] then [] else [String.ofList line] := by
  induction lines generalizing offset with
  | nil => rfl
  | cons line rest ih =>
    rw [lineTokens, List.map_cons, ih, List.map_cons]
    cases line <;> rfl

end Engine

end HighlightBundle
