import HighlightBundle.Proofs.StringReferences

/-!
# What a string resolves to

`TrimsTo` says what the trimmed form of a string is without saying how it is found: the string is
this form with blanks around it, and the form itself neither begins nor ends with a blank. There is
one such form, and `trim` gives it (`trimsTo_iff`).

A string resolves by its trimmed form, whatever the tables of the bundle hold. If this form is empty
or a marker of plain text, the tables are not asked, not even when they have such a key; else it is
the key that is looked up. An id that is given as an id is tested for plain text in its trimmed form
as well, but it is looked up as it is. So it differs from the string with the same characters only
if it has blanks at its ends and asks for a language, and for a theme whenever it has such blanks.
-/

namespace HighlightBundle

/-! ### Trimmed forms -/

section Blanks

variable {cs before after : List Char}

/-- What does not begin with a blank is left alone when blanks are dropped. -/
theorem dropWhile_isBlank_eq_self_iff :
    cs.dropWhile isBlank = cs ↔ ∀ c ∈ cs.head?, isBlank c = false := by
  rw [List.dropWhile_eq_self_iff]
  cases cs <;> simp

/-- Blanks around a text are dropped. -/
theorem trimBlanks_around (hbefore : ∀ c ∈ before, isBlank c = true)
    (hafter : ∀ c ∈ after, isBlank c = true) (hfront : ∀ c ∈ cs.head?, isBlank c = false)
    (hback : ∀ c ∈ cs.getLast?, isBlank c = false) : trimBlanks (before ++ cs ++ after) = cs := by
  have hreverse : ∀ c ∈ after.reverse, isBlank c = true := fun c hc ↦
    hafter c (List.mem_reverse.1 hc)
  have hlast : cs.reverse.dropWhile isBlank = cs.reverse :=
    dropWhile_isBlank_eq_self_iff.2 (by rwa [List.head?_reverse])
  rw [trimBlanks, List.append_assoc, List.dropWhile_append_of_pos hbefore]
  rcases cs with - | ⟨c, cs⟩
  · -- nothing but blanks
    have hnone : after.dropWhile isBlank = [] := List.dropWhile_eq_nil_iff.2 hafter
    rw [List.nil_append, hnone]
    rfl
  · have hfirst : (c :: cs ++ after).dropWhile isBlank = c :: cs ++ after :=
      dropWhile_isBlank_eq_self_iff.2 hfront
    rw [hfirst, List.reverse_append, List.dropWhile_append_of_pos hreverse, hlast,
      List.reverse_reverse]

end Blanks

/-- The one string is the other one without the blanks at its ends. -/
structure TrimsTo (s t : String) : Prop where
  around : ∃ before after, s.toList = before ++ t.toList ++ after ∧
    (∀ c ∈ before, isBlank c = true) ∧ ∀ c ∈ after, isBlank c = true
  front : ∀ c ∈ t.toList.head?, isBlank c = false
  back : ∀ c ∈ t.toList.getLast?, isBlank c = false

/-- **A string has one trimmed form**, the one that trimming gives. -/
theorem trimsTo_iff {s t : String} : TrimsTo s t ↔ t = trim s := by
  constructor
  · rintro ⟨⟨before, after, hs, hbefore, hafter⟩, hfront, hback⟩
    rw [trim, hs, trimBlanks_around hbefore hafter hfront hback, String.ofList_toList]
  · rintro rfl
    have hchars : (trim s).toList = (s.toList.dropWhile isBlank).rdropWhile isBlank :=
      String.toList_ofList
    refine ⟨⟨s.toList.takeWhile isBlank, (s.toList.dropWhile isBlank).rtakeWhile isBlank, ?_,
      fun c ↦ List.mem_takeWhile_imp, fun c ↦ List.mem_rtakeWhile_imp⟩, ?_, ?_⟩
    · rw [hchars, List.append_assoc, List.rdropWhile_append_rtakeWhile,
        List.takeWhile_append_dropWhile]
    · rw [hchars]
      exact dropWhile_isBlank_eq_self_iff.1 (dropWhile_isBlank_trimBlanks s.toList)
    · rw [hchars, ← List.head?_reverse, List.rdropWhile, List.reverse_reverse]
      exact dropWhile_isBlank_eq_self_iff.1 (List.dropWhile_idempotent isBlank _)

/-! ### Plain text -/

/-- A trimmed form that asks for plain text. -/
def Unhighlighted (t : String) : Prop :=
  t = "" ∨ t ∈ ["plaintext", "text", "txt", "plain"]

instance (t : String) : Decidable (Unhighlighted t) :=
  inferInstanceAs (Decidable (_ ∨ _))

theorem isPlaintext_iff (s : String) : isPlaintext s = true ↔ Unhighlighted (trim s) := by
  rw [isPlaintext, Bool.or_eq_true, Bool.or_eq_true, String.isEmpty_iff, beq_iff_eq,
    List.contains_iff_mem, Unhighlighted, List.mem_cons (l := ["text", "txt", "plain"]), or_assoc]
  rfl

/-! ### References -/

/-- A reference is made from the name of a reference that is made from a string: it is the same. -/
theorem LanguageReference.ofString_name (s : String) :
    ofString (ofString s).name = ofString s := by
  rcases hplain : isPlaintext s with - | -
  · have hid : ofString s = .bundled (trim s) := if_neg (Bool.eq_false_iff.1 hplain)
    have hagain : isPlaintext (trim s) = false := (isPlaintext_trim s).trans hplain
    rw [hid, name, ofString, if_neg (Bool.eq_false_iff.1 hagain), trim_trim]
  · have hmarker : ofString s = .plaintext := if_pos hplain
    rw [hmarker, name]
    exact if_pos (by decide +kernel)

theorem ThemeReference.ofString_name (s : String) : ofString (ofString s).name = ofString s :=
  congrArg bundled (trim_trim s)

namespace Bundle

variable {bundle : Bundle} {id s : String}

/-- What a table has under a key, or the failure that the bundle does not have it. -/
def found {α : Type} (kind : AssetKind) (table : Table α) (key : String) : Except Failure α :=
  (table.get? key).elim (.error (.notBundled kind key)) .ok

theorem resolveTheme_bundled (bundle : Bundle) (id : String) :
    bundle.resolveTheme (.bundled id) = found .theme bundle.themes id := by
  rw [resolveTheme, found]
  cases bundle.themes.get? id <;> rfl

/-- An id that asks for plain text is not looked up. -/
theorem resolveLanguage_of_unhighlighted (bundle : Bundle) (h : Unhighlighted (trim id)) :
    bundle.resolveLanguage (.bundled id) = .ok .plaintext :=
  if_pos ((isPlaintext_iff id).2 h)

/-- Any other id is looked up as it is. -/
theorem resolveLanguage_bundled (bundle : Bundle) (h : ¬Unhighlighted (trim id)) :
    bundle.resolveLanguage (.bundled id) = found .language bundle.languages id := by
  rw [resolveLanguage, if_neg (mt (isPlaintext_iff id).1 h), found]
  cases bundle.languages.get? id <;> rfl

/-- **A string resolves by its trimmed form.** -/
theorem resolveLanguage_ofString (bundle : Bundle) (s : String) :
    bundle.resolveLanguage (.ofString s) =
      if Unhighlighted (trim s) then .ok .plaintext
      else found .language bundle.languages (trim s) := by
  rw [LanguageReference.ofString]
  by_cases h : Unhighlighted (trim s)
  · rw [if_pos h, if_pos ((isPlaintext_iff s).2 h), resolveLanguage]
  · rw [if_neg h, if_neg (mt (isPlaintext_iff s).1 h)]
    exact bundle.resolveLanguage_bundled (by rwa [trim_trim])

/-- **Strings resolve by their trimmed form.** For any bundle, whatever is in its tables, and any
string with its trimmed form,

* as a language it is plain text if this form asks for plain text, and else what the bundle has
  under this form; as a theme it is what the bundle has under this form;
* the reference made from the name of its reference is this reference;
* an id that is given as an id resolves like the string when it has no blanks at its ends, and as a
  language also when its trimmed form asks for plain text; else it is looked up with its blanks. -/
theorem strings_resolve_trimmed (bundle : Bundle) {s t : String} (htrim : TrimsTo s t) :
    bundle.resolveLanguage (.ofString s) =
      (if Unhighlighted t then .ok .plaintext else found .language bundle.languages t) ∧
    bundle.resolveTheme (.ofString s) = found .theme bundle.themes t ∧
    LanguageReference.ofString (LanguageReference.ofString s).name = .ofString s ∧
    ThemeReference.ofString (ThemeReference.ofString s).name = .ofString s ∧
    (s = t ∨ Unhighlighted t →
      bundle.resolveLanguage (.bundled s) = bundle.resolveLanguage (.ofString s)) ∧
    (¬(s = t ∨ Unhighlighted t) →
      bundle.resolveLanguage (.bundled s) = found .language bundle.languages s) ∧
    (s = t → bundle.resolveTheme (.bundled s) = bundle.resolveTheme (.ofString s)) ∧
    (s ≠ t → bundle.resolveTheme (.bundled s) = found .theme bundle.themes s) := by
  obtain rfl := trimsTo_iff.1 htrim
  refine ⟨bundle.resolveLanguage_ofString s, bundle.resolveTheme_bundled (trim s),
    LanguageReference.ofString_name s, ThemeReference.ofString_name s, fun h ↦ ?_, fun h ↦ ?_,
    fun h ↦ congrArg (bundle.resolveTheme <| .bundled ·) h,
    fun _ ↦ bundle.resolveTheme_bundled s⟩
  · rw [resolveLanguage_ofString]
    by_cases hplain : Unhighlighted (trim s)
    · rw [if_pos hplain, bundle.resolveLanguage_of_unhighlighted hplain]
    · rw [if_neg hplain, bundle.resolveLanguage_bundled hplain, ← h.resolve_right hplain]
  · exact bundle.resolveLanguage_bundled (not_or.1 h).2

/-- A bundle with keys that are blank, spell plain text or have blanks at their ends. -/
def looselyKeyed : Bundle where
  languages := .ofList [("", .single Sample.javascript), ("text", .single Sample.javascript),
    ("\tes ", .single Sample.terse)]
  themes := .ofList [("\tes ", Sample.day)]

/-- The key with blanks is found by the id with the same blanks only, and the marker never. -/
theorem strings_resolve_trimmed_of_looselyKeyed :
    TrimsTo "\tes " "es" ∧
      looselyKeyed.resolveLanguage (.ofString "\tes ") = .error (.notBundled .language "es") ∧
      looselyKeyed.resolveLanguage (.bundled "\tes ") = .ok (.single Sample.terse) ∧
      looselyKeyed.resolveTheme (.ofString "\tes ") = .error (.notBundled .theme "es") ∧
      looselyKeyed.resolveTheme (.bundled "\tes ") = .ok Sample.day ∧
      looselyKeyed.resolveLanguage (.bundled " text ") =
        looselyKeyed.resolveLanguage (.ofString " text ") := by
  have hpadded : TrimsTo "\tes " "es" := trimsTo_iff.2 (by decide +kernel)
  have hmarker : TrimsTo " text " "text" := trimsTo_iff.2 (by decide +kernel)
  obtain ⟨hlanguage, htheme, -, -, -, hid, -, hthemeId⟩ :=
    looselyKeyed.strings_resolve_trimmed hpadded
  obtain ⟨-, -, -, -, hplain, -⟩ := looselyKeyed.strings_resolve_trimmed hmarker
  exact ⟨hpadded, hlanguage.trans (by decide +kernel),
    (hid (by decide +kernel)).trans (by decide +kernel), htheme.trans (by decide +kernel),
    (hthemeId (by decide +kernel)).trans (by decide +kernel), hplain (Or.inr (by decide +kernel))⟩

end Bundle

end HighlightBundle
