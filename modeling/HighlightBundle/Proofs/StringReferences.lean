import Mathlib.Data.List.DropRight
import HighlightBundle.Proofs.BundleEdits
import HighlightBundle.Proofs.LookUp

/-!
# References that are written as strings

An id is a key of a bundle as it stands: it is kept as it was added, and looked for as it is given.
A string is not an id yet. It becomes a reference in its trimmed form, and if it spells plain text,
a reference to plain text, so what can be requested by a string is decided by the trimmed string.
Trimming again changes nothing (`trim_trim`), so the two tests for plain text, when a string becomes
a reference and when the reference is resolved, agree.

`Bundle.Highlights` says that a reference stands for a language, and not for plain text. In a bundle
that was made by edits no key stands for plain text, so an id stands for a language if it is a key
and does not spell plain text (`highlights_bundled_iff`), and a string does if its trimmed form is
such an id (`highlights_ofString_iff`). Whether a key spells plain text is nobody's concern when it
is added.
-/

namespace HighlightBundle

/-! ### Trimming -/

/-- The character that comes first when blanks are dropped is none. -/
theorem dropWhile_isBlank_trimBlanks (cs : List Char) :
    (trimBlanks cs).dropWhile isBlank = trimBlanks cs := by
  have hfront : ∀ hlength : 0 < (cs.dropWhile isBlank).length,
      ¬isBlank (cs.dropWhile isBlank)[0] = true :=
    List.dropWhile_eq_self_iff.1 (List.dropWhile_idempotent isBlank cs)
  -- dropping from the end leaves a prefix, which begins with the same character
  have hinit : trimBlanks cs <+: cs.dropWhile isBlank :=
    List.rdropWhile_prefix isBlank (cs.dropWhile isBlank)
  refine List.dropWhile_eq_self_iff.2 fun hlength ↦ ?_
  rw [hinit.getElem hlength]
  exact hfront (hlength.trans_le hinit.length_le)

theorem trimBlanks_trimBlanks (cs : List Char) : trimBlanks (trimBlanks cs) = trimBlanks cs := by
  have hagain : trimBlanks (trimBlanks cs) = (trimBlanks cs).rdropWhile isBlank :=
    congrArg (List.rdropWhile isBlank) (dropWhile_isBlank_trimBlanks cs)
  rw [hagain]
  exact List.rdropWhile_idempotent isBlank (cs.dropWhile isBlank)

/-- **What is trimmed stays as it is.** -/
theorem trim_trim (s : String) : trim (trim s) = trim s := by
  rw [trim, trim, String.toList_ofList, trimBlanks_trimBlanks]

/-- Whether a string asks for plain text is a matter of its trimmed form. -/
theorem isPlaintext_trim (s : String) : isPlaintext (trim s) = isPlaintext s := by
  rw [isPlaintext, trim_trim, isPlaintext]

namespace Bundle

/-- The reference stands for a language of the bundle or one that is given, not for plain text. -/
def Highlights (bundle : Bundle) (reference : LanguageReference) : Prop :=
  ∃ pack, bundle.resolveLanguage reference = .ok pack ∧ pack.isPlaintext = false

variable {bundle : Bundle}

/-! ### Ids -/

theorem not_highlights_plaintext (bundle : Bundle) : ¬bundle.Highlights .plaintext := by
  rintro ⟨pack, hresolve, hpack⟩
  obtain rfl : LanguagePack.plaintext = pack := Except.ok.inj hresolve
  exact absurd hpack (by decide)

/-- An id that does not spell plain text resolves to what is under it. -/
theorem resolveLanguage_bundled_eq_ok_iff {id : String} {pack : LanguagePack}
    (h : isPlaintext id = false) :
    bundle.resolveLanguage (.bundled id) = .ok pack ↔ bundle.languages.get? id = some pack := by
  rw [resolveLanguage, if_neg (Bool.eq_false_iff.1 h)]
  rcases bundle.languages.get? id with - | found
  · exact iff_of_false (fun hok ↦ by cases hok) (fun hsome ↦ by cases hsome)
  · rw [Except.ok.injEq, Option.some.injEq]

/-- **An id stands for a language** if it is a key and does not spell plain text. -/
theorem highlights_bundled_iff (htidy : bundle.Tidy) (id : String) :
    bundle.Highlights (.bundled id) ↔
      isPlaintext id = false ∧ bundle.containsLanguage id = true := by
  rcases hplain : isPlaintext id with - | -
  · rw [and_iff_right rfl, containsLanguage, Table.contains_iff_exists]
    refine exists_congr fun pack ↦ ?_
    rw [resolveLanguage_bundled_eq_ok_iff hplain]
    exact and_iff_left_of_imp fun hget ↦ List.isEmpty_eq_false_iff.2 (htidy.nonempty hget)
  · refine iff_of_false ?_ (fun h ↦ by cases h.1)
    rintro ⟨pack, hresolve, hpack⟩
    rw [resolveLanguage, if_pos hplain] at hresolve
    exact bundle.not_highlights_plaintext ⟨pack, hresolve, hpack⟩

/-! ### Strings -/

/-- **A string stands for a language** if its trimmed form does. -/
theorem highlights_ofString_iff (htidy : bundle.Tidy) (s : String) :
    bundle.Highlights (.ofString s) ↔
      isPlaintext s = false ∧ bundle.containsLanguage (trim s) = true := by
  rw [LanguageReference.ofString]
  split
  · rename_i hplain
    refine iff_of_false bundle.not_highlights_plaintext fun h ↦ ?_
    exact Bool.false_ne_true (h.1.symm.trans hplain)
  · rw [highlights_bundled_iff htidy, isPlaintext_trim]

theorem exists_resolveTheme_ofString_iff (bundle : Bundle) (s : String) :
    (∃ theme, bundle.resolveTheme (.ofString s) = .ok theme) ↔
      bundle.containsTheme (trim s) = true :=
  hasTheme_iff.symm

/-- **What can be requested by a string.** After any edits, and for every string,

* it stands for a language exactly if it does not spell plain text and its trimmed form is a
  language of the bundle, and for a theme exactly if its trimmed form is a theme of the bundle;
* so an id without blanks at its ends which does not spell plain text can be requested as a language
  exactly if it is one of the bundle, and such an id can be requested as a theme, whatever it
  spells, exactly if it is one. -/
theorem requested_by_trimmed_ids (edits : List Edit) (s : String) :
    ((ofEdits edits).Highlights (.ofString s) ↔
      isPlaintext s = false ∧ (ofEdits edits).containsLanguage (trim s) = true) ∧
    ((∃ theme, (ofEdits edits).resolveTheme (.ofString s) = .ok theme) ↔
      (ofEdits edits).containsTheme (trim s) = true) ∧
    (trim s = s → isPlaintext s = false →
      ((ofEdits edits).containsLanguage s = true ↔ (ofEdits edits).Highlights (.ofString s))) ∧
    (trim s = s → ((ofEdits edits).containsTheme s = true ↔
      ∃ theme, (ofEdits edits).resolveTheme (.ofString s) = .ok theme)) := by
  have hlanguage := highlights_ofString_iff (tidy_ofEdits edits) s
  have htheme := (ofEdits edits).exists_resolveTheme_ofString_iff s
  refine ⟨hlanguage, htheme, fun htrim hplain ↦ ?_, fun htrim ↦ ?_⟩
  · rw [hlanguage, htrim, and_iff_right hplain]
  · rw [htheme, htrim]

/-- A language with an alias that has blanks at its ends and one that spells plain text. -/
def oddlyNamed : List Edit := [.language Sample.javascript, .newAlias "javascript" " es ",
  .newAlias "javascript" "text", .theme Sample.day]

/-- The names without blanks can be requested, and with blanks around them too. The alias with
blanks is a key, and cannot be requested by any string; the other one asks for plain text. -/
theorem requested_by_trimmed_ids_of_oddlyNamed :
    (ofEdits oddlyNamed).Highlights (.ofString "js") ∧
      (ofEdits oddlyNamed).Highlights (.ofString "\tjs ") ∧
      (ofEdits oddlyNamed).containsLanguage " es " = true ∧
      ¬(ofEdits oddlyNamed).Highlights (.ofString " es ") ∧
      ¬(ofEdits oddlyNamed).Highlights (.ofString "text") ∧
      (∃ theme, (ofEdits oddlyNamed).resolveTheme (.ofString "day") = .ok theme) ∧
      ¬∃ theme, (ofEdits oddlyNamed).resolveTheme (.ofString "js") = .ok theme := by
  refine ⟨?_, (requested_by_trimmed_ids oddlyNamed "\tjs ").1.2 (by decide +kernel),
    by decide +kernel, mt (requested_by_trimmed_ids oddlyNamed " es ").1.1 (by decide +kernel),
    mt (requested_by_trimmed_ids oddlyNamed "text").1.1 (by decide +kernel), ?_,
    mt (requested_by_trimmed_ids oddlyNamed "js").2.1.1 (by decide +kernel)⟩
  · obtain ⟨-, -, hlanguage, -⟩ := requested_by_trimmed_ids oddlyNamed "js"
    exact (hlanguage (by decide +kernel) (by decide +kernel)).1 (by decide +kernel)
  · obtain ⟨-, -, -, htheme⟩ := requested_by_trimmed_ids oddlyNamed "day"
    exact (htheme (by decide +kernel)).1 (by decide +kernel)

/-- So to be a key and to be a name that can be requested are two things. -/
theorem not_forall_contains_iff_requested : ¬∀ (edits : List Edit) (id : String),
    ((ofEdits edits).containsLanguage id = true ↔ (ofEdits edits).Highlights (.ofString id)) ∧
      ((ofEdits edits).containsTheme id = true ↔
        ∃ theme, (ofEdits edits).resolveTheme (.ofString id) = .ok theme) := by
  intro h
  have hkey : (ofEdits oddlyNamed).containsLanguage " es " = true := by decide +kernel
  have hrequested := (highlights_ofString_iff (tidy_ofEdits oddlyNamed) " es ").1
    ((h oddlyNamed " es ").1.1 hkey)
  exact absurd hrequested (by decide +kernel)

end Bundle

end HighlightBundle
