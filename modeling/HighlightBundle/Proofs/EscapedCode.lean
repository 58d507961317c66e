import HighlightBundle.Proofs.ReturnedAnswers

/-!
# Escaped code

Escaping goes over the whole text four times, and each time it sees what the times before have
written. That it is nevertheless one pass, which replaces each character by itself
(`escapeChars_eq_flatMap`), rests on the order: the ampersand, which every entity has, is replaced
first, and no entity has any of the other three characters.

So an ampersand in escaped text stands at the beginning of an entity, and reading the entities from
left to right gives the text back (`unescapeChars_escapeChars`). In markup the attributes are not
escaped and can be anything, but the code is behind the last angle bracket in front of the closing
tags (`element_injective`): whatever two calls are told about languages and themes, they give the
same markup for the same code only.
-/

namespace HighlightBundle

namespace Markup

/-! ### One character -/

/-- The characters with a meaning in markup, and the entities that stand for them. -/
def entities : List (Char × List Char) :=
  [('&', "&amp;".toList), ('<', "&lt;".toList), ('>', "&gt;".toList), ('"', "&quot;".toList)]

/-- How a character stands in markup: as its entity if it has one, else as itself. -/
def escapedChar (c : Char) : List Char :=
  (entities.lookup c).getD [c]

variable {c : Char} {text before after : List Char}

/-- A character with an entity is replaced by it, and any other one is left as it is. -/
theorem escapedChar_cases (c : Char) : (c, escapedChar c) ∈ entities ∨
    (c ≠ '&' ∧ c ≠ '<' ∧ c ≠ '>' ∧ c ≠ '"') ∧ escapedChar c = [c] := by
  by_cases hmem : c ∈ entities.map Prod.fst
  · simp only [entities, List.map_cons, List.map_nil, List.mem_cons, List.not_mem_nil,
      or_false] at hmem
    rcases hmem with rfl | rfl | rfl | rfl <;> exact Or.inl (by decide)
  · have hother : c ≠ '&' ∧ c ≠ '<' ∧ c ≠ '>' ∧ c ≠ '"' := by simpa [entities] using hmem
    have hnone : entities.lookup c = none :=
      List.lookup_eq_none_iff.2 (by simp [entities, hother])
    exact Or.inr ⟨hother, by rw [escapedChar, hnone, Option.getD_none]⟩

/-! ### Four passes and one -/

theorem escapeChars_append (text more : List Char) :
    escapeChars (text ++ more) = escapeChars text ++ escapeChars more := by
  simp only [escapeChars, replaceChar, List.flatMap_append]

theorem replaceChar_of_ne {d : Char} {replacement : List Char} (h : c ≠ d) :
    replaceChar d replacement [c] = [c] := by
  rw [replaceChar, List.flatMap_singleton, if_neg h]

/-- On one character the four passes do not get into each other's way. -/
theorem escapeChars_singleton (c : Char) : escapeChars [c] = escapedChar c := by
  rcases escapedChar_cases c with hentity | ⟨⟨hamp, hlt, hgt, hquot⟩, hself⟩
  · have hentities : ∀ e ∈ entities, escapeChars [e.1] = e.2 := by decide
    exact hentities (c, escapedChar c) hentity
  · rw [hself, escapeChars, replaceChar_of_ne hamp, replaceChar_of_ne hlt, replaceChar_of_ne hgt,
      replaceChar_of_ne hquot]

/-- **Four passes over the text are one**, which replaces each character by itself. -/
theorem escapeChars_eq_flatMap (text : List Char) :
    escapeChars text = text.flatMap escapedChar := by
  induction text with
  | nil => rfl
  | cons c text ih =>
    rw [← List.singleton_append, escapeChars_append, escapeChars_singleton, ih]
    rfl

/-! ### What is left in escaped text -/

/-- Of the four characters only the ampersand is left. -/
theorem eq_of_mem_escapeChars (h : c ∈ escapeChars text) : c ≠ '<' ∧ c ≠ '>' ∧ c ≠ '"' := by
  rw [escapeChars_eq_flatMap, List.mem_flatMap] at h
  obtain ⟨d, -, hc⟩ := h
  rcases escapedChar_cases d with hentity | ⟨⟨-, hlt, hgt, hquot⟩, hself⟩
  · have hclean : ∀ e ∈ entities, '<' ∉ e.2 ∧ '>' ∉ e.2 ∧ '"' ∉ e.2 := by decide
    obtain ⟨hlt, hgt, hquot⟩ := hclean _ hentity
    exact ⟨fun h ↦ hlt (h ▸ hc), fun h ↦ hgt (h ▸ hc), fun h ↦ hquot (h ▸ hc)⟩
  · rw [hself, List.mem_singleton] at hc
    exact hc ▸ ⟨hlt, hgt, hquot⟩

/-- An entity has its ampersand in front. -/
theorem eq_nil_of_entity {e : Char × List Char} (he : e ∈ entities)
    (h : e.2 = before ++ '&' :: after) : before = [] := by
  have htail : ∀ e ∈ entities, '&' ∉ e.2.tail := by decide
  rcases before with - | ⟨b, before⟩
  · rfl
  · refine absurd ?_ (htail e he)
    rw [h]
    exact List.mem_append_right before List.mem_cons_self

/-- **Every ampersand begins an entity.** -/
theorem exists_entity_of_ampersand (h : escapeChars text = before ++ '&' :: after) :
    ∃ e ∈ entities, e.2 <+: '&' :: after := by
  rw [escapeChars_eq_flatMap] at h
  induction text generalizing before with
  | nil => exact absurd h.symm (List.append_ne_nil_of_right_ne_nil _ (List.cons_ne_nil _ _))
  | cons c text ih =>
    rw [List.flatMap_cons, List.append_eq_append_iff] at h
    rcases h with ⟨more, -, hrest⟩ | ⟨part, hchar, hrest⟩
    · exact ih hrest
    · rcases part with - | ⟨a, part⟩
      · exact @ih [] hrest.symm
      · -- the ampersand is in what the character is replaced by
        obtain ⟨rfl, -⟩ := List.cons.inj hrest
        rcases escapedChar_cases c with hentity | ⟨⟨hamp, -⟩, hself⟩
        · obtain rfl := eq_nil_of_entity hentity hchar
          exact ⟨_, hentity, hrest ▸ hchar ▸ List.prefix_append _ _⟩
        · have hmem : '&' ∈ [c] := hself ▸ hchar ▸ List.mem_append_right _ List.mem_cons_self
          exact absurd (List.mem_singleton.1 hmem).symm hamp

/-! ### Reading entities -/

/-- The text in which entities are read from left to right. -/
def unescapeChars : List Char → List Char
  | '&' :: 'a' :: 'm' :: 'p' :: ';' :: rest => '&' :: unescapeChars rest
  | '&' :: 'l' :: 't' :: ';' :: rest => '<' :: unescapeChars rest
  | '&' :: 'g' :: 't' :: ';' :: rest => '>' :: unescapeChars rest
  | '&' :: 'q' :: 'u' :: 'o' :: 't' :: ';' :: rest => '"' :: unescapeChars rest
  | c :: rest => c :: unescapeChars rest
  | [] => []

/-- The code that stands in markup as the text. -/
def unescape (text : String) : String :=
  String.ofList (unescapeChars text.toList)

theorem unescapeChars_cons (hamp : c ≠ '&') (rest : List Char) :
    unescapeChars (c :: rest) = c :: unescapeChars rest := by
  rw [unescapeChars]
  all_goals exact fun _ hc ↦ absurd hc hamp

/-- An entity is read as its character. -/
theorem unescapeChars_entity {e : Char × List Char} (he : e ∈ entities) (rest : List Char) :
    unescapeChars (e.2 ++ rest) = e.1 :: unescapeChars rest := by
  simp only [entities, List.mem_cons, List.not_mem_nil, or_false] at he
  rcases he with rfl | rfl | rfl | rfl <;> rfl

theorem unescapeChars_escapeChars (text : List Char) : unescapeChars (escapeChars text) = text := by
  rw [escapeChars_eq_flatMap]
  induction text with
  | nil => rfl
  | cons c text ih =>
    rw [List.flatMap_cons]
    rcases escapedChar_cases c with hentity | ⟨⟨hamp, -⟩, hself⟩
    · exact (unescapeChars_entity hentity _).trans (congrArg (c :: ·) ih)
    · rw [hself, List.singleton_append, unescapeChars_cons hamp, ih]

/-- **Escaped text can be read back.** -/
theorem unescape_escape (text : String) : unescape (escape text) = text := by
  rw [unescape, escape, String.toList_ofList, unescapeChars_escapeChars, String.ofList_toList]

theorem escape_append (text more : String) : escape (text ++ more) = escape text ++ escape more := by
  rw [escape, String.toList_append, escapeChars_append, String.ofList_append]
  rfl

/-! ### Code in an element -/

/-- What stands in front of the code ends with a bracket, whatever the attributes are. -/
theorem exists_front (className : Option String) (attributes : List (String × String)) :
    ∃ front, ∀ code, (element className attributes code).toList =
      front ++ '>' :: (escapeChars code.toList ++ "</code></pre>".toList) := by
  refine ⟨("<pre" ++ String.join ((("class", classText className) :: attributes).map fun a ↦
    attributeText a.1 a.2)).toList ++ "><code".toList, fun code ↦ ?_⟩
  have hbracket : "><code>".toList = "><code".toList ++ ['>'] := rfl
  simp only [element, escape, String.toList_append, String.toList_ofList, hbracket,
    List.append_assoc, List.cons_append, List.nil_append]

/-- What stands behind the last occurrence of a character. -/
theorem eq_of_behind_last {front front' rest rest' : List Char}
    (h : front ++ c :: rest = front' ++ c :: rest') (hrest : c ∉ rest) (hrest' : c ∉ rest') :
    rest = rest' := by
  rcases List.append_eq_append_iff.1 h with ⟨between, -, hbehind⟩ | ⟨between, -, hbehind⟩
  · rcases between with - | ⟨d, between⟩
    · exact (List.cons.inj hbehind).2
    · rw [(List.cons.inj hbehind).2] at hrest
      exact absurd (List.mem_append_right _ List.mem_cons_self) hrest
  · rcases between with - | ⟨d, between⟩
    · exact (List.cons.inj hbehind).2.symm
    · rw [(List.cons.inj hbehind).2] at hrest'
      exact absurd (List.mem_append_right _ List.mem_cons_self) hrest'

/-- **The code can be read off the element**, whatever its class and its attributes are. -/
theorem element_injective {className className' : Option String}
    {attributes attributes' : List (String × String)} {code code' : String}
    (h : element className attributes code = element className' attributes' code') :
    code = code' := by
  obtain ⟨front, hfront⟩ := exists_front className attributes
  obtain ⟨front', hfront'⟩ := exists_front className' attributes'
  have hlists : front ++ '>' :: escapeChars code.toList =
      front' ++ '>' :: escapeChars code'.toList := by
    have hall := (hfront code).symm.trans ((congrArg String.toList h).trans (hfront' code'))
    simpa only [← List.cons_append, ← List.append_assoc, List.append_cancel_right_eq] using hall
  have hclean : ∀ text, '>' ∉ escapeChars text := fun text hmem ↦
    (eq_of_mem_escapeChars hmem).2.1 rfl
  have hescaped : escapeChars code.toList = escapeChars code'.toList :=
    eq_of_behind_last hlists (hclean _) (hclean _)
  have hcode := congrArg unescapeChars hescaped
  rw [unescapeChars_escapeChars, unescapeChars_escapeChars] at hcode
  exact String.toList_injective hcode

/-- **Escaping is faithful.** For every text,

* the four passes are one, which replaces each character by itself, and so a text that is put
  together is escaped part by part;
* escaped text has no angle bracket and no quotation mark, and every ampersand in it begins one of
  the four entities;
* when the entities are read from left to right, the text is there again.

So two calls that return markup for different codes return different markup, alone or among others,
whatever languages and themes they are given and whatever the engine holds. -/
theorem escaping_is_faithful (text : String) :
    (escape text).toList = text.toList.flatMap escapedChar ∧
    (∀ more, escape (text ++ more) = escape text ++ escape more) ∧
    (∀ c ∈ (escape text).toList, c ≠ '<' ∧ c ≠ '>' ∧ c ≠ '"') ∧
    (∀ before after, (escape text).toList = before ++ '&' :: after →
      ∃ e ∈ entities, e.2 <+: '&' :: after) ∧
    unescape (escape text) = text ∧
    (∀ (engine engine' : Engine) (code language theme code' language' theme' markup : String),
      engine.html code language theme = .ok markup →
        engine'.html code' language' theme' = .ok markup → code = code') ∧
    ∀ (action action' : Action) (markup markup' : String),
      Shared.Returned action (.html markup) → Shared.Returned action' (.html markup') →
        action.code? ≠ action'.code? → markup ≠ markup' := by
  have hchars : (escape text).toList = escapeChars text.toList := String.toList_ofList
  rw [hchars]
  refine ⟨escapeChars_eq_flatMap _, escape_append text, fun c hc ↦ eq_of_mem_escapeChars hc,
    fun before after h ↦ exists_entity_of_ampersand h, unescape_escape text, ?_, ?_⟩
  · intro engine engine' code language theme code' language' theme' markup h h'
    obtain ⟨attributes, rfl⟩ := Engine.exists_element_of_html h
    obtain ⟨attributes', hmarkup⟩ := Engine.exists_element_of_html h'
    exact element_injective hmarkup
  · intro action action' markup markup' h h' hne heq
    obtain ⟨code, className, attributes, hcode, rfl⟩ := h.exists_element
    obtain ⟨code', className', attributes', hcode', rfl⟩ := h'.exists_element
    rw [hcode, hcode', element_injective heq] at hne
    exact hne rfl

/-- The one code is the entity for the other one, and they are shown as what they are. -/
theorem escaping_is_faithful_of_entity :
    ∃ markup markup',
      Shared.Returned (.html "<" .plaintext (.inline Sample.day)) (.html markup) ∧
      Shared.Returned (.html "&lt;" .plaintext (.inline Sample.day)) (.html markup') ∧
      (escape ("&lt;" ++ "<") = escape "&lt;" ++ escape "<" ∧ markup ≠ markup') := by
  have hreturned : Shared.Returned (.html "<" .plaintext (.inline Sample.day)) (.html _) :=
    .alone (show ((Shared.ofBundle ⟨.empty, .empty⟩ none).run .fresh _).1 = _ from rfl)
  have hreturned' : Shared.Returned (.html "&lt;" .plaintext (.inline Sample.day)) (.html _) :=
    .alone (show ((Shared.ofBundle ⟨.empty, .empty⟩ none).run .fresh _).1 = _ from rfl)
  obtain ⟨-, happend, -, -, -, -, hcalls⟩ := escaping_is_faithful "&lt;"
  exact ⟨_, _, hreturned, hreturned', happend "<", hcalls _ _ _ _ hreturned hreturned' (by decide)⟩

end Markup

end HighlightBundle
