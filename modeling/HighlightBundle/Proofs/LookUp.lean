import HighlightBundle.Proofs.Jobs

/-!
# Looking up what is needed

What a call needs is a request again (`Action.needs`): the references that ask for something, with
one exception, the single theme of a rendering call, which is needed even if it asks for nothing.

Whether a request can be met, and what is reported when it cannot, is said in terms of the tables of
the bundle, by `Bundle.HasAll` and `Bundle.FirstMissing`. `Bundle.lookUp` is the computation beside
them: the references of a request, themes first, each of them looked up.

* `lookUp_eq_error_iff`: it fails on the first reference that is missing, and on nothing else.
* `prepare_bind_resolve`: a call of the shared highlighter asks for what its own references stand
  for, also when it looks them up early and then asks for the definitions that it found.
-/

namespace HighlightBundle

namespace Bundle

variable {bundle : Bundle} {needs request : Request} {kind : AssetKind} {id : String}

/-! ### What is in a bundle -/

/-- Whether a reference to a theme stands for something. -/
def HasTheme (bundle : Bundle) : ThemeReference → Prop
  | .bundled id => bundle.containsTheme id = true
  | .inline _ => True

/-- Whether a reference to a language stands for something; plain text always does, and so does an
id that spells it. -/
def HasLanguage (bundle : Bundle) : LanguageReference → Prop
  | .bundled id => isPlaintext id = true ∨ bundle.containsLanguage id = true
  | .plaintext | .inline _ => True

instance (bundle : Bundle) : (r : ThemeReference) → Decidable (bundle.HasTheme r)
  | .bundled id => inferInstanceAs (Decidable (bundle.containsTheme id = true))
  | .inline _ => .isTrue trivial

instance (bundle : Bundle) : (r : LanguageReference) → Decidable (bundle.HasLanguage r)
  | .bundled id =>
    inferInstanceAs (Decidable (isPlaintext id = true ∨ bundle.containsLanguage id = true))
  | .plaintext | .inline _ => .isTrue trivial

/-- Whether all references of a request stand for something. -/
def HasAll (bundle : Bundle) (needs : Request) : Prop :=
  (∀ r ∈ needs.themes, bundle.HasTheme r) ∧ ∀ r ∈ needs.languages, bundle.HasLanguage r

instance (bundle : Bundle) (needs : Request) : Decidable (bundle.HasAll needs) :=
  inferInstanceAs (Decidable ((∀ r ∈ needs.themes, bundle.HasTheme r) ∧
    ∀ r ∈ needs.languages, bundle.HasLanguage r))

/-- The id that is reported for a request: that of its first theme which is not in the bundle, and
only if all themes are there, that of its first language which is not. -/
inductive FirstMissing (bundle : Bundle) (needs : Request) : AssetKind → String → Prop
  | theme {before after : List ThemeReference} {id : String}
      (hsplit : needs.themes = before ++ .bundled id :: after)
      (hbefore : ∀ r ∈ before, bundle.HasTheme r)
      (hmissing : ¬bundle.HasTheme (.bundled id)) : FirstMissing bundle needs .theme id
  | language {before after : List LanguageReference} {id : String}
      (hthemes : ∀ r ∈ needs.themes, bundle.HasTheme r)
      (hsplit : needs.languages = before ++ .bundled id :: after)
      (hbefore : ∀ r ∈ before, bundle.HasLanguage r)
      (hmissing : ¬bundle.HasLanguage (.bundled id)) : FirstMissing bundle needs .language id

theorem hasTheme_iff {r : ThemeReference} :
    bundle.HasTheme r ↔ ∃ theme, bundle.resolveTheme r = .ok theme := by
  cases r with
  | inline theme => exact iff_of_true trivial ⟨theme, rfl⟩
  | bundled id =>
    rw [HasTheme, containsTheme, Table.contains, resolveTheme]
    cases bundle.themes.get? id <;> simp

theorem hasLanguage_iff {r : LanguageReference} :
    bundle.HasLanguage r ↔ ∃ pack, bundle.resolveLanguage r = .ok pack := by
  cases r with
  | plaintext => exact iff_of_true trivial ⟨_, rfl⟩
  | inline pack => exact iff_of_true trivial ⟨pack, rfl⟩
  | bundled id =>
    rw [HasLanguage, containsLanguage, Table.contains, resolveLanguage]
    by_cases h : isPlaintext id = true
    · simp [h]
    · cases bundle.languages.get? id <;> simp [h]

theorem resolveTheme_eq_error_iff {r : ThemeReference} {failure : Failure} :
    bundle.resolveTheme r = .error failure ↔
      ∃ id, r = .bundled id ∧ ¬bundle.HasTheme r ∧ failure = .notBundled .theme id := by
  constructor
  · intro h
    obtain ⟨id, hr, hfailure⟩ := resolveTheme_eq_error h
    refine ⟨id, hr, fun hhas ↦ ?_, hfailure⟩
    obtain ⟨theme, htheme⟩ := hasTheme_iff.1 hhas
    exact absurd (htheme.symm.trans h) nofun
  · rintro ⟨id, rfl, hmissing, rfl⟩
    rcases h : bundle.resolveTheme (.bundled id) with failure | theme
    · obtain ⟨id', hid, rfl⟩ := resolveTheme_eq_error h
      rw [ThemeReference.bundled.inj hid]
    · exact absurd (hasTheme_iff.2 ⟨theme, h⟩) hmissing

theorem resolveLanguage_eq_error_iff {r : LanguageReference} {failure : Failure} :
    bundle.resolveLanguage r = .error failure ↔
      ∃ id, r = .bundled id ∧ ¬bundle.HasLanguage r ∧ failure = .notBundled .language id := by
  constructor
  · intro h
    obtain ⟨id, hr, hfailure⟩ := resolveLanguage_eq_error h
    refine ⟨id, hr, fun hhas ↦ ?_, hfailure⟩
    obtain ⟨pack, hpack⟩ := hasLanguage_iff.1 hhas
    exact absurd (hpack.symm.trans h) nofun
  · rintro ⟨id, rfl, hmissing, rfl⟩
    rcases h : bundle.resolveLanguage (.bundled id) with failure | pack
    · obtain ⟨id', hid, rfl⟩ := resolveLanguage_eq_error h
      rw [LanguageReference.bundled.inj hid]
    · exact absurd (hasLanguage_iff.2 ⟨pack, h⟩) hmissing

/-! ### Looking up a request -/

/-- Looks up all references of a request, themes first, those that ask for nothing included. -/
def lookUp (bundle : Bundle) (needs : Request) : Except Failure Assets := do
  let themes ← needs.themes.mapM bundle.resolveTheme
  let packs ← needs.languages.mapM bundle.resolveLanguage
  return { themes, packs }

/-- **A look-up fails on the first reference that is missing**, and on nothing else. -/
theorem lookUp_eq_error_iff {failure : Failure} : bundle.lookUp needs = .error failure ↔
    ∃ kind id, failure = .notBundled kind id ∧ bundle.FirstMissing needs kind id := by
  rw [lookUp, bind_eq_error_iff]
  constructor
  · rintro (hthemes | ⟨themes, hthemes, h⟩)
    · obtain ⟨before, r, after, hsplit, hbefore, hr⟩ := mapM_eq_error_iff.1 hthemes
      obtain ⟨id, rfl, hmissing, rfl⟩ := resolveTheme_eq_error_iff.1 hr
      exact ⟨.theme, id, rfl, .theme hsplit (fun r hr ↦ hasTheme_iff.2 (hbefore r hr)) hmissing⟩
    · have hall : ∀ r ∈ needs.themes, bundle.HasTheme r := fun r hr ↦
        hasTheme_iff.2 (forall_ok_of_mapM_eq_ok hthemes r hr)
      rcases bind_eq_error_iff.1 h with hlanguages | ⟨packs, -, h⟩
      · obtain ⟨before, r, after, hsplit, hbefore, hr⟩ := mapM_eq_error_iff.1 hlanguages
        obtain ⟨id, rfl, hmissing, rfl⟩ := resolveLanguage_eq_error_iff.1 hr
        exact ⟨.language, id, rfl,
          .language hall hsplit (fun r hr ↦ hasLanguage_iff.2 (hbefore r hr)) hmissing⟩
      · exact absurd h nofun
  · rintro ⟨kind, id, rfl, hfirst⟩
    cases hfirst with
    | theme hsplit hbefore hmissing =>
      exact Or.inl (mapM_eq_error_iff.2 ⟨_, _, _, hsplit, fun r hr ↦ hasTheme_iff.1 (hbefore r hr),
        resolveTheme_eq_error_iff.2 ⟨id, rfl, hmissing, rfl⟩⟩)
    | language hthemes hsplit hbefore hmissing =>
      rcases hlist : needs.themes.mapM bundle.resolveTheme with failure | themes
      · obtain ⟨r, hr, hfail⟩ := exists_mem_of_mapM_eq_error hlist
        obtain ⟨theme, htheme⟩ := hasTheme_iff.1 (hthemes r hr)
        exact absurd (htheme.symm.trans hfail) nofun
      · refine Or.inr ⟨themes, rfl, bind_eq_error_iff.2 (Or.inl ?_)⟩
        exact mapM_eq_error_iff.2 ⟨_, _, _, hsplit, fun r hr ↦ hasLanguage_iff.1 (hbefore r hr),
          resolveLanguage_eq_error_iff.2 ⟨id, rfl, hmissing, rfl⟩⟩

/-- A look-up succeeds when everything is there. -/
theorem hasAll_iff : bundle.HasAll needs ↔ ∃ assets, bundle.lookUp needs = .ok assets := by
  constructor
  · rintro ⟨hthemes, hlanguages⟩
    rcases h : bundle.lookUp needs with failure | assets
    · obtain ⟨kind, id, -, hfirst⟩ := lookUp_eq_error_iff.1 h
      cases hfirst with
      | theme hsplit _ hmissing =>
        exact absurd (hthemes _ (hsplit ▸ List.mem_append_right _ List.mem_cons_self)) hmissing
      | language _ hsplit _ hmissing =>
        exact absurd (hlanguages _ (hsplit ▸ List.mem_append_right _ List.mem_cons_self)) hmissing
    · exact ⟨assets, rfl⟩
  · rintro ⟨assets, h⟩
    obtain ⟨themes, hthemes, h⟩ := bind_eq_ok_iff.1 h
    obtain ⟨packs, hpacks, -⟩ := bind_eq_ok_iff.1 h
    exact ⟨fun r hr ↦ hasTheme_iff.2 (forall_ok_of_mapM_eq_ok hthemes r hr),
      fun r hr ↦ hasLanguage_iff.2 (forall_ok_of_mapM_eq_ok hpacks r hr)⟩

end Bundle

/-! ### The references of a call -/

/-- The request without the references to themes that ask for nothing. -/
def Request.withoutBlank (request : Request) : Request :=
  { request with themes := request.themes.filter fun r ↦ !r.isBlank }

/-- What a call of the shared highlighter needs. A single theme is needed even if it asks for
nothing. -/
def Action.needs : Action → Request
  | .get request => request.withoutBlank
  | .html _ language theme | .tokens _ language theme => ⟨[theme], [language]⟩
  | .htmlThemes _ options =>
    Request.withoutBlank ⟨options.themes.values.filterMap id, [options.language]⟩

namespace Bundle

variable {bundle : Bundle}

/-- The themes that have a role, in the order of the roles. -/
theorem map_snd_setThemes (options : RoleOptions) : options.setThemes.map Prod.snd =
    (options.themes.values.filterMap id).filter fun r ↦ !r.isBlank := by
  rw [RoleOptions.setThemes, Table.values]
  induction options.themes.toList with
  | nil => rfl
  | cons e rest ih =>
    obtain ⟨role, - | theme⟩ := e
    · exact ih
    · by_cases hblank : theme.isBlank = true <;> simp [hblank, ih]

/-- Looking up the themes of roles is looking up the themes. -/
theorem map_snd_resolveRoles (bundle : Bundle) (roles : List (String × ThemeReference)) :
    (bundle.resolveRoles roles).map (List.map Prod.snd) =
      (roles.map Prod.snd).mapM bundle.resolveTheme := by
  induction roles with
  | nil => rfl
  | cons role roles ih =>
    rw [List.map_cons, List.mapM_cons, ← ih]
    show Except.map _ (List.mapM _ (role :: roles)) = _
    rw [List.mapM_cons]
    show Except.map _ (_ >>= fun e ↦ bundle.resolveRoles roles >>= fun rest ↦ pure (e :: rest)) = _
    rcases bundle.resolveTheme role.2 with failure | theme
    · rfl
    · rcases bundle.resolveRoles roles with failure | done <;> rfl

/-- **What a call asks for is what its own references stand for.** -/
theorem prepare_bind_resolve (bundle : Bundle) (action : Action) :
    (bundle.prepare action >>= fun job ↦ bundle.resolve job.request) =
      bundle.lookUp action.needs := by
  cases action with
  | get request => rfl
  | html code language theme | tokens code language theme =>
    rw [Action.needs, lookUp, prepare, renderJob, List.mapM_cons, List.mapM_nil]
    rcases bundle.resolveTheme theme with failure | own
    · rfl
    · rw [List.mapM_cons, List.mapM_nil]
      rcases bundle.resolveLanguage language with failure | pack
      · rfl
      · exact bundle.resolve_inlineRequest [own] pack
  | htmlThemes code options =>
    rw [Action.needs, Request.withoutBlank, lookUp, prepare, ← map_snd_setThemes,
      ← map_snd_resolveRoles]
    rcases bundle.resolveRoles options.setThemes with failure | roles
    · rfl
    · rw [List.mapM_cons, List.mapM_nil]
      rcases bundle.resolveLanguage options.language with failure | pack
      · rfl
      · exact bundle.resolve_inlineRequest (roles.map Prod.snd) pack

end Bundle

end HighlightBundle
