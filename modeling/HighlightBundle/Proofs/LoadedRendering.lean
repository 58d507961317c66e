import HighlightBundle.Proofs.Jobs

/-!
# Rendering with what was registered last

The tables of an engine are shared by everybody who loads into it, and what a name stands for may be
replaced at any time. But just after assets have been registered, their names stand for them: the
last definition of a pack is under its own name, whatever was there and whatever else the pack
brings (`Carries.languageName`), and a theme is under its own name (`Carries.theme`). So rendering
with the names of a call's own assets shows nothing of what the engine held before.
-/

namespace HighlightBundle

/-- The name that code in the language of a pack is shown with: the one of its last definition, and
plain text when there is none or when that name asks for plain text. -/
def LanguagePack.shownName (pack : LanguagePack) : String :=
  match pack.main? with
  | none => plaintextName
  | some language =>
    if HighlightBundle.isPlaintext language.name then plaintextName else language.name

namespace Engine

variable {engine : Engine} {assets : Assets} {pack : LanguagePack} {themes : List Theme}
  {own : Theme} {code : String}

/-- The assets are what was registered last, over whatever there was. -/
structure Carries (engine : Engine) (assets : Assets) : Prop where
  languages : ∃ before : Table Language,
    engine.languages = before.insertAll (languageEntries assets.packs)
  themes : ∃ before : Table Theme, engine.themes = before.insertAll (themeEntries assets.themes)

/-- A new engine carries what it was built with. -/
theorem stocked_carries (serial : Nat) (className : Option String) (assets : Assets) :
    (stocked serial className assets).Carries assets :=
  ⟨⟨.empty, rfl⟩, ⟨.empty, rfl⟩⟩

/-- After a load an engine carries what was loaded, also when a batch was left out because it was
empty. -/
theorem load_carries (engine : Engine) (assets : Assets) :
    (engine.load assets).2.Carries assets := by
  obtain ⟨themes, packs⟩ := assets
  cases themes <;> cases packs <;> exact ⟨⟨_, rfl⟩, ⟨_, rfl⟩⟩

/-! ### Looking up one's own names -/

/-- The last definition of the last pack is found under its own name. -/
theorem get?_languageEntries {before : Table Language} {definition : Language}
    (h : pack.main? = some definition) :
    (before.insertAll (languageEntries [pack])).get? definition.name = some definition := by
  obtain ⟨first, hpack⟩ := List.getLast?_eq_some_iff.1 h
  -- the entries end with the name of the last definition, since names come behind aliases
  have hentries : languageEntries [pack] =
      (first.flatMap (fun l ↦ l.keys.map fun key ↦ (key, l)) ++
        definition.aliases.map fun key ↦ (key, definition)) ++ [(definition.name, definition)] := by
    simp only [languageEntries, hpack, List.flatMap_cons, List.flatMap_nil, List.append_nil,
      List.flatMap_append, Language.keys, List.map_append, List.map_cons, List.map_nil,
      List.append_assoc]
  rw [hentries, Table.get?_insertAll_last]

theorem languageName_of_isPlaintext {key : String} (h : isPlaintext key = true) :
    engine.languageName key = .ok plaintextName :=
  if_pos h

theorem languageName_of_get? {key : String} {definition : Language} (h : isPlaintext key = false)
    (hget : engine.languages.get? key = some definition) :
    engine.languageName key = .ok definition.name := by
  rw [languageName, h, if_neg Bool.false_ne_true, hget]

/-- **A language is shown with the name of its own pack.** -/
theorem Carries.languageName (h : engine.Carries ⟨themes, [pack]⟩) :
    engine.languageName pack.name = .ok pack.shownName := by
  obtain ⟨before, hlanguages⟩ := h.languages
  rcases hmain : pack.main? with - | definition
  · have hname : pack.name = plaintextName := by rw [LanguagePack.name, hmain]
    have hshown : pack.shownName = plaintextName := by rw [LanguagePack.shownName, hmain]
    rw [hname, hshown]
    exact languageName_of_isPlaintext (by decide +kernel)
  · have hname : pack.name = definition.name := by rw [LanguagePack.name, hmain]
    have hget : engine.languages.get? definition.name = some definition := by
      rw [hlanguages]
      exact get?_languageEntries hmain
    rw [hname, LanguagePack.shownName, hmain]
    show _ = Except.ok
      (if HighlightBundle.isPlaintext definition.name then plaintextName else definition.name)
    rcases hplain : HighlightBundle.isPlaintext definition.name with - | -
    · exact languageName_of_get? hplain hget
    · exact languageName_of_isPlaintext hplain

/-- Under the name of a theme there is a theme with this name. -/
theorem Carries.theme (h : engine.Carries assets) (ht : own ∈ assets.themes)
    (hname : own.name ≠ "") :
    ∃ found, engine.theme own.name = .ok found ∧ found.name = own.name := by
  obtain ⟨before, hthemes⟩ := h.themes
  have hkey : own.name ∈ (themeEntries assets.themes).map Prod.fst :=
    List.mem_map.2 ⟨(own.name, own), mem_themeEntries.2 ⟨ht, hname, rfl⟩, rfl⟩
  obtain ⟨found, hmem, hfound⟩ : ∃ found, (own.name, found) ∈ themeEntries assets.themes ∧
      (before.insertAll (themeEntries assets.themes)).get? own.name = some found :=
    Table.exists_mem_get?_insertAll hkey
  obtain ⟨-, -, heq⟩ := mem_themeEntries.1 hmem
  exact ⟨found, by rw [Engine.theme, hthemes, hfound], heq⟩

/-- A theme that was registered alone is found under its name. -/
theorem Carries.theme_self {packs : List LanguagePack} (h : engine.Carries ⟨[own], packs⟩)
    (hname : own.name ≠ "") : engine.theme own.name = .ok own := by
  obtain ⟨before, hthemes⟩ := h.themes
  have hentries : themeEntries [own] = [] ++ [(own.name, own)] := by
    have hnot : own.name.isEmpty = false := by
      rw [← Bool.not_eq_true, String.isEmpty_iff]
      exact hname
    rw [themeEntries, List.filter_cons_of_pos (by rw [hnot]; rfl)]
    rfl
  rw [Engine.theme, hthemes, hentries, Table.get?_insertAll_last]

/-- The roles are shown with the names that were asked for. -/
theorem Carries.roleNames (h : engine.Carries assets) (hnamed : ∀ t ∈ assets.themes, t.name ≠ "") :
    ∀ {roles : List (String × String)}, (∀ e ∈ roles, ∃ t ∈ assets.themes, e.2 = t.name) →
      engine.roleNames roles = .ok roles
  | [], _ => rfl
  | e :: roles, hroles => by
    obtain ⟨t, ht, heq⟩ := hroles e List.mem_cons_self
    obtain ⟨found, hfound, hname⟩ := h.theme ht (hnamed t ht)
    have hrest := h.roleNames hnamed fun e' he' ↦ hroles e' (List.mem_cons_of_mem e he')
    have hhead : (do let theme ← engine.theme e.2; return (e.1, theme.name) :
        Except EngineFailure (String × String)) = .ok e := by
      rw [heq, hfound]
      show Except.ok (e.1, found.name) = .ok e
      rw [hname, ← heq]
    rw [Engine.roleNames, List.mapM_cons, hhead]
    exact bind_eq_ok_iff.2 ⟨_, rfl, bind_eq_ok_iff.2 ⟨roles, hrest, rfl⟩⟩

/-! ### Rendering with one's own names -/

theorem Carries.html (h : engine.Carries ⟨[own], [pack]⟩) (hname : own.name ≠ "") :
    engine.html code pack.name own.name = .ok (Markup.element engine.className
      [("data-lang", pack.shownName), ("data-theme", own.name)] code) := by
  rw [Engine.html, h.languageName, h.theme_self hname]
  rfl

theorem Carries.tokens (h : engine.Carries ⟨[own], [pack]⟩) (hname : own.name ≠ "") :
    engine.tokens code pack.name own.name =
      .ok (lineTokens own.foreground? 0 (pieces '\n' code.toList)) := by
  rw [Engine.tokens, h.languageName, h.theme_self hname]
  rfl

/-- The attributes of code with a theme for each role. -/
def roleAttributes (pack : LanguagePack) (names : Table String) (defaultColor : Option String) :
    List (String × String) :=
  [("data-lang", pack.shownName), ("data-themes", Markup.roleList names)] ++
    (defaultColor.map fun color ↦ ("data-default", color)).toList

theorem Carries.htmlThemes {names : Table String} {defaultColor : Option String}
    (h : engine.Carries ⟨themes, [pack]⟩) (hnamed : ∀ t ∈ themes, t.name ≠ "")
    (hnames : ∀ e ∈ names.toList, ∃ t ∈ themes, e.2 = t.name) :
    engine.htmlThemes code pack.name names defaultColor =
      .ok (Markup.element engine.className (roleAttributes pack names defaultColor) code) := by
  have hroles := h.roleNames hnamed hnames
  rw [Engine.htmlThemes.eq_def, h.languageName]
  show (engine.roleNames names.toList >>= fun roles ↦ _) = _
  rw [hroles]
  show Except.ok (Markup.element _ ([_, ("data-themes", Markup.roleList (.ofList _))] ++ _) _) = _
  rw [Table.ofList_toList]
  cases defaultColor <;> rfl

/-- All tokens have the one colour. -/
theorem color_of_mem_lineTokens {color : Option String} {lines : List (List Char)} {offset : Nat} :
    ∀ tokens ∈ lineTokens color offset lines, ∀ token ∈ tokens, token.color = color := by
  induction lines generalizing offset with
  | nil => exact fun tokens h ↦ absurd h List.not_mem_nil
  | cons line rest ih =>
    intro tokens htokens token htoken
    rcases List.mem_cons.1 htokens with rfl | htokens
    · split at htoken
      · exact absurd htoken List.not_mem_nil
      · rw [List.mem_singleton.1 htoken]
    · exact ih tokens htokens token htoken

end Engine

end HighlightBundle
