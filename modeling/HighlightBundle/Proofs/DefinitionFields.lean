import HighlightBundle.Proofs.RecordFields

/-!
# The fields of definitions

Languages and themes are records of five and of three fields with a body (`Language.layout`,
`Theme.layout`). The fields are strings and lists of strings, but for the kind of a theme, which is
the name of a kind or an object with such a name as its one key (`ThemeKind.sees_read`).
-/

namespace HighlightBundle

open Json

/-! ### Kinds of themes -/

namespace ThemeKind

theorem ofTree?_eq_some_iff {t : Tree} {kind : ThemeKind} :
    ofTree? t = some kind ↔ t = .string kind.name ∨ t = .object [(kind.name, .null)] := by
  have hname : ∀ name, ofName? name = some kind ↔ name = kind.name := by
    intro name
    cases kind <;> grind [ofName?, ThemeKind.name]
  unfold ofTree?
  split
  · simp [hname]
  · simp [hname]
  · rename_i hstring hobject
    refine iff_of_false nofun ?_
    rintro (rfl | rfl)
    · exact hstring _ rfl
    · exact hobject _ rfl

theorem gives_named (name : String) (rest : Text) :
    Gives (ofName? name) (named name rest) rest := by
  rw [named]
  cases ofName? name with
  | none => exact gives_error
  | some kind => exact gives_ok

/-- Behind the one member of an object the brace closes. -/
theorem gives_closing {value : Reader Tree} {fuel : Nat} {m : String × Tree}
    {more : List (String × Tree)} {text rest : Text} (kind : ThemeKind)
    (h : readMembers (treeMember value) fuel false [m] text = .ok (m :: more, rest)) :
    Gives (if more = [] then some kind else none) (
      match skipSpaces text with
      | [] => .error (.here .endInObject [])
      | s :: rest =>
        if s = .char '\x7d' then .ok (kind, rest)
        else .error (.here .valueExpected rest)) rest := by
  rcases fuel with - | fuel
  · exact absurd h nofun
  rcases readMembers_cases h with ⟨hall, hclose, -⟩ | ⟨body, hfurther, hopen, -, -⟩
  · rw [if_pos (List.cons.inj hall).2, hclose]
    exact gives_ok
  · have hmore : more ≠ [] := by
      obtain ⟨⟨key, text⟩, -, hfurther⟩ := bind_eq_ok_iff.1 hfurther
      obtain ⟨⟨done, text⟩, hvalue, hfurther⟩ := bind_eq_ok_iff.1 hfurther
      obtain ⟨-, t, -, -, rfl⟩ := treeMember_eq_ok hvalue
      obtain ⟨others, hall⟩ := exists_append_of_readMembers hfurther
      rw [← (List.cons.inj hall).2]
      exact List.cons_ne_nil _ _
    rw [if_neg hmore]
    split
    · exact gives_error
    · rename_i s tail hskip
      have hnot : s ≠ .char '\x7d' := fun heq ↦ hopen tail (heq ▸ hskip)
      rw [if_neg hnot]
      exact gives_error

/-- An object is a kind if its first key names one, with null there, and no member follows. -/
theorem ofTree?_object (key : String) (t : Tree) (more : List (String × Tree)) :
    ofTree? (.object ((key, t) :: more)) = (ofName? key >>= fun kind ↦ t.null? >>= fun _ ↦
      if more = [] then some kind else none) := by
  rcases more with - | ⟨m, more⟩
  · cases t with
    | null => exact (bind_pure (ofName? key)).symm
    | _ => cases ofName? key <;> rfl
  · have hnone : ofTree? (.object ((key, t) :: m :: more)) = none := by cases t <;> rfl
    rw [hnone]
    cases ofName? key <;> cases t.null? <;> rfl

/-- A kind as the key of an object, from the opening brace on. -/
theorem gives_object {depth : Nat} {text rest : Text} {members : List (String × Tree)}
    (h : membersOf (treeMember (readTree depth)) [] text = .ok (members, rest)) :
    Gives (ofTree? (.object members)) (do
      let (kind, rest) ← readKey text
      let rest ← readColon rest
      let (_, rest) ← readNull rest
      match skipSpaces rest with
      | [] => .error (.here .endInObject [])
      | s :: rest =>
        if s = .char '\x7d' then .ok (kind, rest)
        else .error (.here .valueExpected rest)) rest := by
  rcases readMembers_cases h with ⟨rfl, hclose, -⟩ | ⟨body, hfurther, -, hquote, -⟩
  · have hkey : readKey text = .error (.here .valueExpected rest) := by
      rw [readKey, hclose]
      rfl
    rw [hkey]
    exact gives_error
  · obtain ⟨⟨key, behindKey⟩, hname, hfurther⟩ := bind_eq_ok_iff.1 hfurther
    obtain ⟨⟨done, behindValue⟩, hvalue, hfurther⟩ := bind_eq_ok_iff.1 hfurther
    obtain ⟨behind, t, hcolon, htree, rfl⟩ := treeMember_eq_ok hvalue
    obtain ⟨more, rfl⟩ := exists_append_of_readMembers hfurther
    have hkey : readKey text = named key behindKey := by
      rw [readKey, hquote rfl]
      show (readStringBody body >>= fun r ↦ named r.1 r.2) = _
      rw [hname]
      rfl
    have hview : ofTree? (.object ([] ++ [(key, t)] ++ more)) = _ := ofTree?_object key t more
    rw [hview, hkey]
    refine (gives_named key behindKey).bind fun kind _ ↦ ?_
    dsimp only
    rw [hcolon]
    exact (sees_readNull htree).bind fun _ _ ↦ gives_closing kind hfurther

/-- A kind is seen as one. -/
theorem sees_read {depth : Nat} : Sees depth (ThemeKind.read depth) ofTree? := by
  intro text rest t h
  have hfront := front_of_readTree h
  rw [ThemeKind.read]
  split
  · rename_i hskip
    rw [hskip] at hfront
    cases hfront
  · rename_i body hskip
    rw [hskip] at hfront
    cases hfront with
    | string hread =>
      rw [hread]
      exact gives_named _ _
    | number hc => exact absurd hc (by decide)
    | boolean hc => exact absurd hc (by decide)
  · rename_i body hskip
    rw [hskip] at hfront
    cases hfront with
    | object hdepth hread =>
      subst hdepth
      rw [if_neg (Nat.succ_ne_zero _)]
      exact gives_object hread
    | number hc => exact absurd hc (by decide)
    | boolean hc => exact absurd hc (by decide)
  · rename_i hstring hobject hskip
    rw [hskip] at hfront
    cases hfront with
    | string => exact (hstring rfl).elim
    | object => exact (hobject rfl).elim
    | _ => exact gives_error

theorem reads_string (kind : ThemeKind) : Reads ThemeKind.read (.string kind.name) kind := by
  intro depth rest _
  refine OkIff.of_ok (Nat.zero_le depth) ?_
  have hnamed : named kind.name rest = .ok (kind, rest) := by
    cases kind <;> rfl
  rw [Tree.write, map_char_writeString_append, ThemeKind.read, skipSpaces_cons rfl]
  exact bind_eq_ok_iff.2 ⟨(kind.name, rest), readStringBody_written kind.name rest, hnamed⟩

theorem reads_object (kind : ThemeKind) :
    Reads ThemeKind.read (.object [(kind.name, .null)]) kind := by
  intro depth rest _
  rcases depth with - | depth
  · cases kind <;> exact OkIff.of_error (by decide) rfl
  · cases kind <;> exact OkIff.of_ok (Nat.le_add_left 1 depth) rfl

/-- The kinds of themes as values of a field. -/
def typed : Typed ThemeKind := ⟨ThemeKind.read, ofTree?, sees_read⟩

theorem typed_readsBack : typed.ReadsBack := by
  intro t kind h
  rcases ofTree?_eq_some_iff.1 h with rfl | rfl
  · exact reads_string kind
  · exact reads_object kind

end ThemeKind

/-! ### Languages -/

namespace Language

theorem Draft.finish_eq_ok_iff {draft : Draft} {language : Language} :
    draft.finish = .ok language ↔ draft.name = some language.name ∧
      draft.scopeName = some language.scopeName ∧
      language.displayName = draft.displayName.getD none ∧
      language.aliases = draft.aliases.getD [] ∧ language.embedded = draft.embedded.getD [] ∧
      language.body = Value.tableOf draft.body := by
  obtain ⟨name, scopeName, displayName, aliases, embedded, body⟩ := draft
  obtain ⟨name', scopeName', displayName', aliases', embedded', body'⟩ := language
  rcases name with - | name
  · exact iff_of_false nofun nofun
  rcases scopeName with - | scopeName
  · exact iff_of_false nofun nofun
  · show Except.ok _ = Except.ok _ ↔ _
    rw [Except.ok.injEq, Language.mk.injEq]
    grind

/-- The fields of a language, and its body. -/
def layout : Layout Draft Language where
  fields := [
    .required "name" .string Draft.name Language.name
      (fun draft x ↦ { draft with name := some x }) fun _ _ ↦ rfl,
    .required "scopeName" .string Draft.scopeName Language.scopeName
      (fun draft x ↦ { draft with scopeName := some x }) fun _ _ ↦ rfl,
    .optional "displayName" .optionalString none Draft.displayName Language.displayName
      (fun draft x ↦ { draft with displayName := some x }) fun _ _ ↦ rfl,
    .optional "aliases" .strings [] Draft.aliases Language.aliases
      (fun draft x ↦ { draft with aliases := some x }) fun _ _ ↦ rfl,
    .optional "embeddedLangs" .strings [] Draft.embedded Language.embedded
      (fun draft x ↦ { draft with embedded := some x }) fun _ _ ↦ rfl]
  body := some ⟨Draft.body, fun draft members ↦ { draft with body := members }, fun _ _ ↦ rfl,
    Language.body⟩
  start := Draft.empty
  finish := Draft.finish
  apart := by simp [Field.apart_iff, Field.required, Field.optional]
  get_start := by simp [Field.required, Field.optional, Draft.empty]
  body_start := by simp [Draft.empty]
  get_body := by simp [Field.required, Field.optional]
  body_put := by simp [Field.required, Field.optional]
  finish_iff := by simp [Field.required, Field.optional, Draft.finish_eq_ok_iff, and_assoc]

theorem keys_layout : layout.keys = fieldKeys :=
  rfl

/-- A language is read by its fields. -/
theorem read_eq : read = readObject (.record "LanguageRegistration") layout.start layout.member
    layout.finish :=
  rfl

end Language

/-! ### Themes -/

namespace Theme

theorem Draft.finish_eq_ok_iff {draft : Draft} {theme : Theme} :
    draft.finish = .ok theme ↔ draft.name = some theme.name ∧
      theme.displayName = draft.displayName.getD none ∧ theme.kind = draft.kind.getD .dark ∧
      theme.body = Value.tableOf draft.body := by
  obtain ⟨name, displayName, kind, body⟩ := draft
  obtain ⟨name', displayName', kind', body'⟩ := theme
  rcases name with - | name
  · exact iff_of_false nofun nofun
  · show Except.ok _ = Except.ok _ ↔ _
    rw [Except.ok.injEq, Theme.mk.injEq]
    grind

/-- The fields of a theme, and its body. -/
def layout : Layout Draft Theme where
  fields := [
    .required "name" .string Draft.name Theme.name
      (fun draft x ↦ { draft with name := some x }) fun _ _ ↦ rfl,
    .optional "displayName" .optionalString none Draft.displayName Theme.displayName
      (fun draft x ↦ { draft with displayName := some x }) fun _ _ ↦ rfl,
    .optional "type" ThemeKind.typed .dark Draft.kind Theme.kind
      (fun draft x ↦ { draft with kind := some x }) fun _ _ ↦ rfl]
  body := some ⟨Draft.body, fun draft members ↦ { draft with body := members }, fun _ _ ↦ rfl,
    Theme.body⟩
  start := Draft.empty
  finish := Draft.finish
  apart := by simp [Field.apart_iff, Field.required, Field.optional]
  get_start := by simp [Field.required, Field.optional, Draft.empty]
  body_start := by simp [Draft.empty]
  get_body := by simp [Field.required, Field.optional]
  body_put := by simp [Field.required, Field.optional]
  finish_iff := by simp [Field.required, Field.optional, Draft.finish_eq_ok_iff, and_assoc]

theorem keys_layout : layout.keys = fieldKeys :=
  rfl

/-- A theme is read by its fields. -/
theorem read_eq : read = readObject (.record "ThemeRegistration") layout.start layout.member
    layout.finish :=
  rfl

end Theme

end HighlightBundle
