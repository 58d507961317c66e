import HighlightBundle.Proofs.SpelledTexts

/-!
# Values that are passed over

A value that nobody wants is passed over by the grammar alone: a number may be out of range, the
code units of a string may be halves of pairs, and brackets may be open to any depth. `WellFormed`
is this grammar, and what is well-formed is passed over (`skipTree_of_wellFormed`). What spells a
tree is well-formed (`wellFormed_of_spells`), so whatever a value is, it can be passed over.

The other way round, nothing is passed over differently from how it is read: a reader of a string
or of a number that succeeds leaves the text where passing over leaves it (`Skips`). So a pass over
a text that wants nothing of it finds the same members as one that wants some of them.
-/

namespace HighlightBundle.Json

/-! ### The grammar -/

/-- What may stand between quotes. -/
inductive QuotedChars : List Char → Prop
  | nil : QuotedChars []
  | plain {c : Char} {more : List Char} (hquote : c ≠ '"') (hback : c ≠ '\\')
      (hcontrol : 0x20 ≤ c.toNat) (hmore : QuotedChars more) : QuotedChars (c :: more)
  | escape {letter c : Char} {more : List Char} (h : (letter, c) ∈ escapes)
      (hmore : QuotedChars more) : QuotedChars ('\\' :: letter :: more)
  /-- A code unit, which may be half of a pair. -/
  | unit {digits more : List Char} {n : Nat} (h : IsUnit digits n) (hmore : QuotedChars more) :
      QuotedChars ('\\' :: 'u' :: (digits ++ more))

/-- The kinds of phrases. -/
inductive Part where
  | value
  /-- A value with spaces around it. -/
  | item
  /-- Items with commas between them, at least one. -/
  | items
  /-- A key and a value, with spaces around both. -/
  | member
  /-- Members with commas between them, at least one. -/
  | members

/-- The kind of a phrase. -/
def Phrase.part : Phrase → Part
  | value _ => .value
  | item _ => .item
  | items _ => .items
  | member _ => .member
  | members _ => .members

/-- **What a text has to look like** so that it can be passed over. -/
inductive WellFormed : Part → List Char → Prop
  | word {cs : List Char} (h : cs ∈ ["null".toList, "true".toList, "false".toList]) :
      WellFormed .value cs
  | number {cs : List Char} (h : IsNumeral cs) : WellFormed .value cs
  | string {body : List Char} (h : QuotedChars body) :
      WellFormed .value ('"' :: (body ++ ['"']))
  | emptyArray {gap : List Char} (hgap : IsBlank gap) :
      WellFormed .value ('[' :: (gap ++ [']']))
  | array {cs : List Char} (h : WellFormed .items cs) : WellFormed .value ('[' :: (cs ++ [']']))
  | emptyObject {gap : List Char} (hgap : IsBlank gap) :
      WellFormed .value ('\x7b' :: (gap ++ ['\x7d']))
  | object {cs : List Char} (h : WellFormed .members cs) :
      WellFormed .value ('\x7b' :: (cs ++ ['\x7d']))
  | item {before cs after : List Char} (hbefore : IsBlank before) (h : WellFormed .value cs)
      (hafter : IsBlank after) : WellFormed .item (before ++ (cs ++ after))
  | lastItem {cs : List Char} (h : WellFormed .item cs) : WellFormed .items cs
  | moreItems {cs more : List Char} (h : WellFormed .item cs) (hmore : WellFormed .items more) :
      WellFormed .items (cs ++ ',' :: more)
  | member {before body gap cs : List Char} (hbefore : IsBlank before) (hkey : QuotedChars body)
      (hgap : IsBlank gap) (h : WellFormed .item cs) :
      WellFormed .member (before ++ '"' :: (body ++ '"' :: (gap ++ ':' :: cs)))
  | lastMember {cs : List Char} (h : WellFormed .member cs) : WellFormed .members cs
  | moreMembers {cs more : List Char} (h : WellFormed .member cs)
      (hmore : WellFormed .members more) : WellFormed .members (cs ++ ',' :: more)

theorem QuotedChars.append_of_spellsChar {cs more : List Char} {c : Char} (h : SpellsChar cs c)
    (hmore : QuotedChars more) : QuotedChars (cs ++ more) := by
  cases h with
  | plain hquote hback hcontrol => exact .plain hquote hback hcontrol hmore
  | escape h => exact .escape h hmore
  | unit h _ => exact .unit h hmore
  | pair h h' _ _ =>
    have hpair := QuotedChars.unit h (.unit h' hmore)
    simpa only [List.append_assoc, List.cons_append] using hpair

theorem quotedChars_of_spellsChars {cs said : List Char} (h : SpellsChars cs said) :
    QuotedChars cs := by
  induction h with
  | nil => exact .nil
  | cons h _ ih => exact ih.append_of_spellsChar h

/-- **What spells a tree is well-formed.** -/
theorem wellFormed_of_spells {phrase : Phrase} {cs : List Char} (h : Spells phrase cs) :
    WellFormed phrase.part cs := by
  induction h with
  | null | isTrue | isFalse => exact .word (by decide)
  | number hnumeral _ => exact .number hnumeral
  | string h => exact .string (quotedChars_of_spellsChars h)
  | emptyArray hgap => exact .emptyArray hgap
  | array _ ih => exact .array ih
  | emptyObject hgap => exact .emptyObject hgap
  | object _ ih => exact .object ih
  | item hbefore _ hafter ih => exact .item hbefore ih hafter
  | lastItem _ ih => exact .lastItem ih
  | moreItems _ _ ih ihmore => exact .moreItems ih ihmore
  | member hbefore hkey hgap _ ih =>
    exact .member hbefore (quotedChars_of_spellsChars hkey) hgap ih
  | lastMember _ ih => exact .lastMember ih
  | moreMembers _ _ ih ihmore => exact .moreMembers ih ihmore

/-- Around a value there need be no spaces. -/
theorem wellFormed_item {cs : List Char} (h : WellFormed .value cs) : WellFormed .item cs := by
  have hitem : WellFormed .item ([] ++ (cs ++ [])) := .item nofun h nofun
  rwa [List.append_nil] at hitem

variable {gap cs body : List Char} {text rest : Text} {depth fuel : Nat} {first : Bool}

/-! ### Strings -/

theorem skipStringBody_plain {c : Char} (hquote : c ≠ '"') (hback : c ≠ '\\')
    (hcontrol : isControl c = false) (text : Text) :
    skipStringBody (.char c :: text) = skipStringBody text := by
  rw [skipStringBody.eq_def]
  simp only [if_neg hquote, if_neg hback, hcontrol]
  rfl

theorem skipStringBody_escape {e c : Char} (hu : e ≠ 'u') (h : escaped? e = some c) (text : Text) :
    skipStringBody (.char '\\' :: .char e :: text) = skipStringBody text := by
  rw [skipStringBody.eq_def]
  simp only [if_neg hu, h]
  rfl

theorem skipStringBody_unit {s₁ s₂ s₃ s₄ : Symbol} {n : Nat} (h : hexUnit? s₁ s₂ s₃ s₄ = some n)
    (text : Text) :
    skipStringBody (.char '\\' :: .char 'u' :: s₁ :: s₂ :: s₃ :: s₄ :: text) =
      skipStringBody text := by
  rw [skipStringBody.eq_def]
  simp only [h]
  rfl

/-- What may stand between quotes is passed over, up to the closing quote. -/
theorem skipStringBody_of_quotedChars (h : QuotedChars body) (rest : Text) :
    skipStringBody (body.map .char ++ .char '"' :: rest) = .ok rest := by
  induction h with
  | nil => rw [List.map_nil, List.nil_append, skipStringBody.eq_def]; rfl
  | plain hquote hback hcontrol _ ih =>
    refine (skipStringBody_plain hquote hback ?_ _).trans ih
    rw [isControl, decide_eq_false_iff_not]
    omega
  | escape h _ ih =>
    have hescape : ∀ e ∈ escapes, e.1 ≠ 'u' ∧ escaped? e.1 = some e.2 := by decide
    exact (skipStringBody_escape (hescape _ h).1 (hescape _ h).2 _).trans ih
  | unit h _ ih =>
    obtain ⟨a, b, c, d, rfl, hunit⟩ := exists_hexUnit?_of_isUnit h
    exact (skipStringBody_unit hunit _).trans ih

/-! ### Numbers -/

/-- The text behind an exponent, if there is one. -/
def skipScale : Text → Except Fault Text
  | .char 'e' :: rest | .char 'E' :: rest => skipExponent rest
  | text => .ok text

/-- The text behind what follows the whole part of a number. -/
def skipFraction : Text → Except Fault Text
  | .char '.' :: rest => skipDigits rest >>= skipScale
  | text => skipScale text

theorem skipScale_of_mark {s : Symbol} (h : IsScaleMark s) (text : Text) :
    skipScale (s :: text) = skipExponent text := by
  rcases h with rfl | rfl <;> rfl

theorem skipScale_of_not_mark (h : ∀ s ∈ text.head?, ¬IsScaleMark s) :
    skipScale text = .ok text := by
  unfold skipScale
  split
  · exact absurd (Or.inl rfl) (h _ rfl)
  · exact absurd (Or.inr rfl) (h _ rfl)
  · rfl

theorem skipFraction_of_not_point (h : ∀ s ∈ text.head?, ¬s = .char '.') :
    skipFraction text = skipScale text := by
  unfold skipFraction
  split
  · exact absurd rfl (h _ rfl)
  · rfl

theorem skipExponent_eq (text : Text) : skipExponent text = skipDigits (takeSign text).2 := by
  unfold takeSign
  split
  · rfl
  · rfl
  · rename_i hplus hminus
    rw [skipExponent]
    · exact hplus
    · exact hminus

/-- The text behind the sign of a number. -/
def behindSign (text : Text) : Text :=
  match text with
  | .char '-' :: rest => rest
  | _ => text

theorem behindSign_of_not_minus (h : ∀ s ∈ text.head?, ¬s = .char '-') : behindSign text = text := by
  unfold behindSign
  split
  · exact absurd rfl (h _ rfl)
  · rfl

/-- Passing over a number whose digits have been taken. -/
theorem skipNumber_of_takeDigits {digits : List Nat} {after : Text}
    (htake : takeDigits (behindSign text) = (digits, after)) (hne : digits ≠ [])
    (hlead : ∀ d ds, digits ≠ 0 :: d :: ds) : skipNumber text = skipFraction after := by
  unfold skipNumber
  dsimp only
  split <;> rename_i heq <;> obtain ⟨rfl, rfl⟩ := Prod.mk.inj (htake.symm.trans heq)
  · exact absurd rfl hne
  · exact absurd rfl (hlead _ _)
  · rfl
  · rfl
  · rfl
  · rename_i hpoint hsmall hlarge
    have hnot : ∀ s ∈ after.head?, ¬s = .char '.' ∧ ¬IsScaleMark s := by
      rintro s hs
      obtain ⟨tail, rfl⟩ := List.head?_eq_some_iff.1 hs
      refine ⟨?_, ?_⟩
      · rintro rfl
        exact hpoint _ rfl
      · rintro (rfl | rfl)
        · exact hsmall _ rfl
        · exact hlarge _ rfl
    rw [skipFraction_of_not_point fun s hs ↦ (hnot s hs).1,
      skipScale_of_not_mark fun s hs ↦ (hnot s hs).2]
    rfl

theorem skipDigits_of_takeDigits {digits : List Nat} {after : Text}
    (htake : takeDigits text = (digits, after)) (hne : digits ≠ []) :
    skipDigits text = .ok after := by
  rw [skipDigits, htake]
  rcases digits with - | ⟨d, ds⟩
  · exact absurd rfl hne
  · rfl

/-- What ends a number is no digit. -/
theorem Ends.not_digit (hrest : Ends rest) : ∀ s ∈ rest.head?, Symbol.digit? s = none := by
  have hdigit : ∀ s ∈ enders, Symbol.digit? s = none := by decide
  exact fun s hs ↦ hdigit s (hrest s hs)

section Numerals

variable {digits fraction scale : List Char}

theorem skipDigits_of_areDigits (h : AreDigits digits)
    (htext : ∀ s ∈ text.head?, Symbol.digit? s = none) :
    skipDigits (digits.map .char ++ text) = .ok text :=
  skipDigits_of_takeDigits (takeDigits_of_areDigits h htext) (mt List.map_eq_nil_iff.1 h.1)

theorem skipScale_of_isScale (h : IsScale scale) (hrest : Ends rest) :
    skipScale (scale.map .char ++ rest) = .ok rest := by
  rcases h with rfl | ⟨mark, sign, digits, rfl, hmark, hsign, hdigits⟩
  · exact skipScale_of_not_mark (hrest.not (by decide))
  · rw [List.map_cons, List.cons_append, skipScale_of_mark (isScaleMark_char hmark),
      skipExponent_eq, takeSign_of_areDigits hsign hdigits]
    exact skipDigits_of_areDigits hdigits hrest.not_digit

theorem skipFraction_of_numeral
    (hfraction : fraction = [] ∨ ∃ digits, fraction = '.' :: digits ∧ AreDigits digits)
    (hscale : IsScale scale) (hrest : Ends rest) :
    skipFraction ((fraction ++ scale).map .char ++ rest) = .ok rest := by
  have hbehind := skipScale_of_isScale hscale hrest
  rcases hfraction with rfl | ⟨digits, rfl, hdigits⟩
  · rw [List.nil_append, skipFraction_of_not_point]
    · exact hbehind
    · refine forall_head?_append ?_ (hrest.not (by decide))
      rcases hscale with rfl | ⟨mark, sign, digits, rfl, rfl | rfl, -, -⟩ <;> simp
  · have hnot : ∀ s ∈ (scale.map Symbol.char ++ rest).head?, Symbol.digit? s = none :=
      forall_head?_append (not_digit_of_isScale hscale) hrest.not_digit
    show skipDigits ((digits ++ scale).map .char ++ rest) >>= skipScale = _
    rw [List.map_append, List.append_assoc, skipDigits_of_areDigits hdigits hnot]
    exact hbehind

/-- **A numeral is passed over**, also when its number is out of range. -/
theorem skipNumber_of_isNumeral {cs : List Char} (h : IsNumeral cs) (hrest : Ends rest) :
    skipNumber (cs.map .char ++ rest) = .ok rest := by
  obtain @⟨sign, whole, fraction, scale, hsign, hwhole, hlead, hfraction, hscale⟩ := h
  have hsigned : behindSign ((sign ++ (whole ++ (fraction ++ scale))).map .char ++ rest) =
      whole.map .char ++ ((fraction ++ scale).map .char ++ rest) := by
    rcases hsign with rfl | rfl
    · rw [List.nil_append, List.map_append, List.append_assoc, behindSign_of_not_minus]
      exact fun s hs ↦ (not_sign_of_areDigits hwhole _ s hs).2
    · show (whole ++ (fraction ++ scale)).map .char ++ rest = _
      rw [List.map_append, List.append_assoc]
  have htake := takeDigits_of_areDigits hwhole
    (forall_head?_append (not_digit_of_isFraction hfraction hscale) hrest.not_digit)
  rw [skipNumber_of_takeDigits ((congrArg takeDigits hsigned).trans htake)
    (mt List.map_eq_nil_iff.1 hwhole.1) fun _ _ ↦ digits_ne_zero_cons hwhole hlead]
  exact skipFraction_of_numeral hfraction hscale hrest

end Numerals

/-! ### Passing over phrases -/

/-- Passing over begins with the first symbol that is no space. -/
theorem skipNested_congr {text' : Text} (h : skipSpaces text = skipSpaces text') (depth : Nat) :
    skipNested depth text = skipNested depth text' := by
  cases depth <;> rw [skipNested, skipNested, h]

/-- A value that opens no bracket is passed over at any depth. -/
theorem skipNested_eq_skipScalar {c : Char} (hspace : isSpace (.char c) = false) (harray : c ≠ '[')
    (hobject : c ≠ '\x7b') (depth : Nat) (text : Text) :
    skipNested depth (.char c :: text) = skipScalar (.char c :: text) := by
  cases depth <;> rw [skipNested, skipSpaces_cons hspace]
  split <;> simp_all

theorem skipNested_array (depth : Nat) (text : Text) : skipNested (depth + 1) (.char '[' :: text) =
    skipItems (skipNested depth) (text.length + 1) true text := by
  rw [skipNested, skipSpaces_cons rfl]
  rfl

theorem skipNested_object (depth : Nat) (text : Text) :
    skipNested (depth + 1) (.char '\x7b' :: text) =
      skipMembers (skipNested depth) (text.length + 1) true text := by
  rw [skipNested, skipSpaces_cons rfl]
  rfl

section Loops

variable {pass : Text → Except Fault Text}

theorem skipItems_close : skipItems pass (fuel + 1) first (.char ']' :: rest) = .ok rest := by
  rw [skipItems, skipSpaces_cons rfl]
  rfl

theorem skipItems_first (h : Tree.StartsItem (skipSpaces text)) :
    skipItems pass (fuel + 1) true text =
      pass (skipSpaces text) >>= skipItems pass fuel false := by
  obtain ⟨s, tail, hskip, -, hclose⟩ := h
  rw [skipItems, hskip]
  exact if_neg hclose

theorem skipItems_next : skipItems pass (fuel + 1) false (.char ',' :: text) =
    pass text >>= skipItems pass fuel false := by
  rw [skipItems, skipSpaces_cons rfl]
  rfl

theorem skipItems_congr {text' : Text} (h : skipSpaces text = skipSpaces text') :
    skipItems pass fuel first text = skipItems pass fuel first text' := by
  cases fuel <;> rw [skipItems, skipItems]
  rw [h]

theorem skipMembers_close : skipMembers pass (fuel + 1) first (.char '\x7d' :: rest) = .ok rest := by
  rw [skipMembers, skipSpaces_cons rfl]
  rfl

theorem skipMembers_first {tail : Text} (h : skipSpaces text = .char '"' :: tail) :
    skipMembers pass (fuel + 1) true text =
      skipMember pass (skipSpaces text) >>= skipMembers pass fuel false := by
  rw [skipMembers, h]
  rfl

theorem skipMembers_next : skipMembers pass (fuel + 1) false (.char ',' :: text) =
    skipMember pass text >>= skipMembers pass fuel false := by
  rw [skipMembers, skipSpaces_cons rfl]
  rfl

theorem skipMembers_congr {text' : Text} (h : skipSpaces text = skipSpaces text') :
    skipMembers pass fuel first text = skipMembers pass fuel first text' := by
  cases fuel <;> rw [skipMembers, skipMembers]
  rw [h]

theorem skipMember_congr {text' : Text} (h : skipSpaces text = skipSpaces text') :
    skipMember pass text = skipMember pass text' := by
  rw [skipMember, skipMember, h]

end Loops

/-- How a value begins. -/
theorem startsItem_of_wellFormed (h : WellFormed .value cs) (rest : Text) :
    Tree.StartsItem (cs.map .char ++ rest) := by
  cases h with
  | word h =>
    simp only [List.mem_cons, List.not_mem_nil, or_false] at h
    rcases h with rfl | rfl | rfl <;> exact startsItem_cons (by decide) (by decide) _ rest
  | number hnumeral => exact startsItem_of_isNumeral hnumeral rest
  | _ => exact startsItem_cons (by decide) (by decide) _ rest

/-- The characters are passed over as a phrase of this kind, with so many brackets open at once,
whatever stands behind them: the closing bracket, for items and members. Spaces behind an item are
left to whoever goes on. -/
def Part.IsPassed (depth : Nat) (cs : List Char) : Part → Prop
  | value => ∀ rest, Ends rest → skipNested depth (cs.map .char ++ rest) = .ok rest
  | item => ∀ rest, Ends rest → Tree.StartsItem (skipSpaces (cs.map .char ++ rest)) ∧
      ∃ gap, IsBlank gap ∧ skipNested depth (cs.map .char ++ rest) = .ok (gap.map .char ++ rest)
  | items => ∀ fuel rest, cs.length < fuel →
      Tree.StartsItem (skipSpaces (cs.map .char ++ .char ']' :: rest)) ∧
        skipNested depth (cs.map .char ++ .char ']' :: rest) >>=
          skipItems (skipNested depth) fuel false = .ok rest
  | member => ∀ rest, Ends rest → (∃ tail, skipSpaces (cs.map .char ++ rest) = .char '"' :: tail) ∧
      ∃ gap, IsBlank gap ∧
        skipMember (skipNested depth) (cs.map .char ++ rest) = .ok (gap.map .char ++ rest)
  | members => ∀ fuel rest, cs.length < fuel →
      (∃ tail, skipSpaces (cs.map .char ++ .char '\x7d' :: rest) = .char '"' :: tail) ∧
        skipMember (skipNested depth) (cs.map .char ++ .char '\x7d' :: rest) >>=
          skipMembers (skipNested depth) fuel false = .ok rest

theorem isPassed_word (h : cs ∈ ["null".toList, "true".toList, "false".toList]) :
    Part.value.IsPassed depth cs := by
  simp only [List.mem_cons, List.not_mem_nil, or_false] at h
  intro rest _
  rcases h with rfl | rfl | rfl <;>
    exact skipNested_eq_skipScalar rfl (by decide) (by decide) depth _

theorem isPassed_number (h : IsNumeral cs) : Part.value.IsPassed depth cs := by
  intro rest hrest
  obtain ⟨c, tail, rfl, hc⟩ := head_of_isNumeral h
  refine (skipNested_eq_skipScalar (Tree.isSpace_of_number hc) (Tree.ne_of_number hc (by decide))
    (Tree.ne_of_number hc (by decide)) depth _).trans ?_
  rw [skipScalar, if_neg (Tree.ne_of_number hc (by decide)), if_pos hc]
  exact skipNumber_of_isNumeral h hrest

theorem isPassed_string (h : QuotedChars body) :
    Part.value.IsPassed depth ('"' :: (body ++ ['"'])) := by
  intro rest _
  have hbody : skipStringBody ((body ++ ['"']).map .char ++ rest) = .ok rest := by
    rw [List.map_append, List.append_assoc]
    exact skipStringBody_of_quotedChars h rest
  exact (skipNested_eq_skipScalar rfl (by decide) (by decide) depth _).trans hbody

theorem isPassed_emptyArray (hgap : IsBlank gap) :
    Part.value.IsPassed (depth + 1) ('[' :: (gap ++ [']'])) := by
  intro rest _
  rw [List.map_cons, List.cons_append, skipNested_array, List.map_append, List.append_assoc,
    skipItems_congr (skipSpaces_blank hgap _)]
  exact skipItems_close

theorem isPassed_array (h : Part.items.IsPassed depth cs) :
    Part.value.IsPassed (depth + 1) ('[' :: (cs ++ [']'])) := by
  intro rest _
  have htext : (cs ++ [']']).map Symbol.char ++ rest = cs.map .char ++ .char ']' :: rest := by simp
  obtain ⟨hstarts, hpassed⟩ := h _ rest (length_lt_of_followed cs (.char ']') rest)
  rw [List.map_cons, List.cons_append, htext, skipNested_array, skipItems_first hstarts,
    skipNested_congr (skipSpaces_skipSpaces _)]
  exact hpassed

theorem isPassed_emptyObject (hgap : IsBlank gap) :
    Part.value.IsPassed (depth + 1) ('\x7b' :: (gap ++ ['\x7d'])) := by
  intro rest _
  rw [List.map_cons, List.cons_append, skipNested_object, List.map_append, List.append_assoc,
    skipMembers_congr (skipSpaces_blank hgap _)]
  exact skipMembers_close

theorem isPassed_object (h : Part.members.IsPassed depth cs) :
    Part.value.IsPassed (depth + 1) ('\x7b' :: (cs ++ ['\x7d'])) := by
  intro rest _
  have htext : (cs ++ ['\x7d']).map Symbol.char ++ rest = cs.map .char ++ .char '\x7d' :: rest := by
    simp
  obtain ⟨⟨tail, hquote⟩, hpassed⟩ := h _ rest (length_lt_of_followed cs (.char '\x7d') rest)
  rw [List.map_cons, List.cons_append, htext, skipNested_object, skipMembers_first hquote,
    skipMember_congr (skipSpaces_skipSpaces _)]
  exact hpassed

theorem isPassed_item {before after : List Char} (hbefore : IsBlank before)
    (hafter : IsBlank after) (hwell : WellFormed .value cs) (h : Part.value.IsPassed depth cs) :
    Part.item.IsPassed depth (before ++ (cs ++ after)) := by
  intro rest hrest
  have htext : (before ++ (cs ++ after)).map Symbol.char ++ rest =
      before.map .char ++ (cs.map .char ++ (after.map .char ++ rest)) := by simp
  have hstarts := startsItem_of_wellFormed hwell (after.map .char ++ rest)
  rw [htext, skipSpaces_blank hbefore, hstarts.skipSpaces_eq]
  refine ⟨hstarts, after, hafter, ?_⟩
  rw [skipNested_congr (skipSpaces_blank hbefore _)]
  exact h _ (ends_blank hafter hrest)

/-- An item, with what passes over the items behind it. -/
theorem skipNested_bind_of_isPassed {left : Text} (h : Part.item.IsPassed depth cs)
    (hrest : Ends rest) (hnext : skipItems (skipNested depth) fuel false rest = .ok left) :
    skipNested depth (cs.map .char ++ rest) >>= skipItems (skipNested depth) fuel false =
      .ok left := by
  obtain ⟨-, gap, hgap, hpassed⟩ := h rest hrest
  rw [hpassed]
  exact (skipItems_congr (skipSpaces_blank hgap rest)).trans hnext

theorem isPassed_lastItem (h : Part.item.IsPassed depth cs) : Part.items.IsPassed depth cs := by
  intro fuel rest hfuel
  obtain ⟨fuel, rfl⟩ := Nat.exists_eq_add_one_of_ne_zero (Nat.ne_zero_of_lt hfuel)
  have hends : Ends (.char ']' :: rest) := ends_cons (by decide)
  exact ⟨(h _ hends).1, skipNested_bind_of_isPassed h hends skipItems_close⟩

theorem isPassed_moreItems {more : List Char} (h : Part.item.IsPassed depth cs)
    (hmore : Part.items.IsPassed depth more) :
    Part.items.IsPassed depth (cs ++ ',' :: more) := by
  intro fuel rest hfuel
  obtain ⟨fuel, rfl⟩ := Nat.exists_eq_add_one_of_ne_zero (Nat.ne_zero_of_lt hfuel)
  have hlength : more.length < fuel := by
    rw [List.length_append, List.length_cons] at hfuel
    omega
  have hends : Ends (.char ',' :: (more.map .char ++ .char ']' :: rest)) := ends_cons (by decide)
  rw [List.map_append, List.append_assoc]
  exact ⟨(h _ hends).1,
    skipNested_bind_of_isPassed h hends (skipItems_next.trans (hmore fuel rest hlength).2)⟩

theorem isPassed_member {before : List Char} (hbefore : IsBlank before) (hkey : QuotedChars body)
    (hgap : IsBlank gap) (h : Part.item.IsPassed depth cs) :
    Part.member.IsPassed depth (before ++ '"' :: (body ++ '"' :: (gap ++ ':' :: cs))) := by
  intro rest hrest
  obtain ⟨-, after, hafter, hpassed⟩ := h rest hrest
  have hskip := skipSpaces_member hbefore body gap cs rest
  refine ⟨⟨_, hskip⟩, after, hafter, ?_⟩
  rw [skipMember, hskip]
  dsimp only
  rw [if_pos rfl, skipStringBody_of_quotedChars hkey]
  show (readColon (gap.map .char ++ .char ':' :: (cs.map .char ++ rest)) >>= skipNested depth) = _
  rw [readColon_blank hgap]
  exact hpassed

/-- A member, with what passes over the members behind it. -/
theorem skipMember_bind_of_isPassed {left : Text} (h : Part.member.IsPassed depth cs)
    (hrest : Ends rest) (hnext : skipMembers (skipNested depth) fuel false rest = .ok left) :
    skipMember (skipNested depth) (cs.map .char ++ rest) >>=
      skipMembers (skipNested depth) fuel false = .ok left := by
  obtain ⟨-, gap, hgap, hpassed⟩ := h rest hrest
  rw [hpassed]
  exact (skipMembers_congr (skipSpaces_blank hgap rest)).trans hnext

theorem isPassed_lastMember (h : Part.member.IsPassed depth cs) :
    Part.members.IsPassed depth cs := by
  intro fuel rest hfuel
  obtain ⟨fuel, rfl⟩ := Nat.exists_eq_add_one_of_ne_zero (Nat.ne_zero_of_lt hfuel)
  have hends : Ends (.char '\x7d' :: rest) := ends_cons (by decide)
  exact ⟨(h _ hends).1, skipMember_bind_of_isPassed h hends skipMembers_close⟩

theorem isPassed_moreMembers {more : List Char} (h : Part.member.IsPassed depth cs)
    (hmore : Part.members.IsPassed depth more) :
    Part.members.IsPassed depth (cs ++ ',' :: more) := by
  intro fuel rest hfuel
  obtain ⟨fuel, rfl⟩ := Nat.exists_eq_add_one_of_ne_zero (Nat.ne_zero_of_lt hfuel)
  have hlength : more.length < fuel := by
    rw [List.length_append, List.length_cons] at hfuel
    omega
  have hends : Ends (.char ',' :: (more.map .char ++ .char '\x7d' :: rest)) := ends_cons (by decide)
  rw [List.map_append, List.append_assoc]
  exact ⟨(h _ hends).1,
    skipMember_bind_of_isPassed h hends (skipMembers_next.trans (hmore fuel rest hlength).2)⟩

/-- **What is well-formed is passed over**, as long as it has no more characters than brackets may
be open. -/
theorem isPassed_of_wellFormed {part : Part} (h : WellFormed part cs) (hdepth : cs.length ≤ depth) :
    part.IsPassed depth cs := by
  induction h generalizing depth with
  | word h => exact isPassed_word h
  | number h => exact isPassed_number h
  | string h => exact isPassed_string h
  | emptyArray hgap =>
    obtain ⟨depth, rfl⟩ := Nat.exists_eq_add_one_of_ne_zero (Nat.ne_zero_of_lt hdepth)
    exact isPassed_emptyArray hgap
  | array _ ih =>
    obtain ⟨depth, rfl⟩ := Nat.exists_eq_add_one_of_ne_zero (Nat.ne_zero_of_lt hdepth)
    exact isPassed_array (ih (by simp at hdepth; omega))
  | emptyObject hgap =>
    obtain ⟨depth, rfl⟩ := Nat.exists_eq_add_one_of_ne_zero (Nat.ne_zero_of_lt hdepth)
    exact isPassed_emptyObject hgap
  | object _ ih =>
    obtain ⟨depth, rfl⟩ := Nat.exists_eq_add_one_of_ne_zero (Nat.ne_zero_of_lt hdepth)
    exact isPassed_object (ih (by simp at hdepth; omega))
  | item hbefore h hafter ih =>
    exact isPassed_item hbefore hafter h (ih (by simp at hdepth; omega))
  | lastItem _ ih => exact isPassed_lastItem (ih hdepth)
  | moreItems _ _ ih ihmore =>
    exact isPassed_moreItems (ih (by simp at hdepth; omega)) (ihmore (by simp at hdepth; omega))
  | member hbefore hkey hgap _ ih =>
    exact isPassed_member hbefore hkey hgap (ih (by simp at hdepth; omega))
  | lastMember _ ih => exact isPassed_lastMember (ih hdepth)
  | moreMembers _ _ ih ihmore =>
    exact isPassed_moreMembers (ih (by simp at hdepth; omega)) (ihmore (by simp at hdepth; omega))

/-- **A well-formed value is passed over**, up to the spaces behind it. -/
theorem skipTree_of_wellFormed (h : WellFormed .item cs) (hrest : Ends rest) :
    ∃ gap, IsBlank gap ∧ skipTree (cs.map .char ++ rest) = .ok (gap.map .char ++ rest) :=
  (isPassed_of_wellFormed h (by simp) rest hrest).2

/-! ### What is read is passed over alike -/

/-- What has been read of a string beyond its first symbol. -/
theorem exists_of_thenSaid {s : Symbol} {more : Except Fault (Text × Text)} {said : Text}
    (h : (do let (said, rest) ← more; return (s :: said, rest)) = .ok (said, rest)) :
    ∃ said, more = .ok (said, rest) := by
  obtain ⟨⟨said', rest'⟩, hmore, h⟩ := bind_eq_ok_iff.1 h
  obtain ⟨-, rfl⟩ := Prod.mk.inj (Except.ok.inj h)
  exact ⟨said', hmore⟩

/-- **A string that is read is passed over alike.** -/
theorem skipStringBody_of_readCharacters {said : Text} (h : readCharacters text = .ok (said, rest)) :
    skipStringBody text = .ok rest := by
  fun_induction readCharacters text generalizing said
  -- a symbol that is no character
  case case2 ih =>
    obtain ⟨more, hmore⟩ := exists_of_thenSaid h
    exact ih hmore
  -- the closing quote
  case case3 =>
    obtain ⟨-, rfl⟩ := Prod.mk.inj (Except.ok.inj h)
    rw [skipStringBody.eq_def]
    rfl
  -- two halves of a pair
  case case11 hunit _ _ _ _ _ _ _ _ hunit' _ _ ih =>
    obtain ⟨more, hmore⟩ := exists_of_thenSaid h
    exact (skipStringBody_unit hunit _).trans ((skipStringBody_unit hunit' _).trans (ih hmore))
  -- one code unit
  case case16 hunit _ _ _ ih =>
    obtain ⟨more, hmore⟩ := exists_of_thenSaid h
    exact (skipStringBody_unit hunit _).trans (ih hmore)
  -- a letter behind a backslash
  case case19 hu _ hescaped _ ih =>
    obtain ⟨more, hmore⟩ := exists_of_thenSaid h
    exact (skipStringBody_escape hu hescaped _).trans (ih hmore)
  -- any other character
  case case21 hquote hback hcontrol ih =>
    obtain ⟨more, hmore⟩ := exists_of_thenSaid h
    exact (skipStringBody_plain hquote hback (Bool.eq_false_iff.2 hcontrol) _).trans (ih hmore)
  all_goals cases h

section Numbers

variable {negative : Bool} {significand extra : Nat} {exponent : Int} {x : Number}

/-- Where digits are read there is one. -/
theorem exists_of_readDigits {behind : List Nat → Reader Number}
    (h : readDigits behind text = .ok (x, rest)) :
    ∃ digits after, takeDigits text = (digits, after) ∧ digits ≠ [] ∧
      behind digits after = .ok (x, rest) := by
  rw [readDigits] at h
  rcases htake : takeDigits text with ⟨_ | ⟨d, ds⟩, after⟩ <;> rw [htake] at h
  · cases after <;> cases h
  · exact ⟨d :: ds, after, rfl, List.cons_ne_nil _ _, h⟩

theorem eq_of_readPower {down : Bool} {digits : List Nat}
    (h : readPower negative significand exponent down digits text = .ok (x, rest)) :
    text = rest := by
  rw [readPower] at h
  rcases habsorb : absorb maxExponent 0 digits with ⟨e, _ | ⟨d, ds⟩⟩ <;> rw [habsorb] at h
  · obtain ⟨-, -, -, rfl⟩ := readDecimal_eq_ok_iff.1 h
    rfl
  · dsimp only at h
    split at h
    · exact absurd h nofun
    · exact (Prod.mk.inj (Except.ok.inj h)).2

theorem skipExponent_of_readExponent
    (h : readExponent negative significand exponent text = .ok (x, rest)) :
    skipExponent text = .ok rest := by
  rw [readExponent_eq] at h
  obtain ⟨digits, after, htake, hne, hpower⟩ := exists_of_readDigits h
  rw [skipExponent_eq, skipDigits_of_takeDigits htake hne, eq_of_readPower hpower]

theorem skipScale_of_readScale
    (h : readScale negative significand exponent text = .ok (x, rest)) :
    skipScale text = .ok rest := by
  rcases head?_cases IsScaleMark text with hnot | ⟨s, tail, rfl, hs⟩
  · rw [readScale_of_not_mark hnot] at h
    obtain ⟨-, -, -, rfl⟩ := readDecimal_eq_ok_iff.1 h
    exact skipScale_of_not_mark hnot
  · rw [readScale_of_mark hs] at h
    rw [skipScale_of_mark hs]
    exact skipExponent_of_readExponent h

theorem skipFraction_of_readAfterInteger
    (h : readAfterInteger negative significand extra text = .ok (x, rest)) :
    skipFraction text = .ok rest := by
  rcases head?_cases (· = .char '.') text with hpoint | ⟨s, tail, rfl, rfl⟩
  · rw [skipFraction_of_not_point hpoint]
    rcases head?_cases IsScaleMark text with hmark | ⟨s, tail, rfl, hs⟩
    · rw [skipScale_of_not_mark hmark]
      rw [readAfterInteger_eq_ok_iff hpoint hmark] at h
      split at h
      · rw [h.2]
      · obtain ⟨-, -, -, rfl⟩ := readDecimal_eq_ok_iff.1 h
        rfl
    · rw [readAfterInteger_of_mark hs] at h
      rw [skipScale_of_mark hs]
      exact skipExponent_of_readExponent h
  · have hfraction : readFraction negative significand extra tail = .ok (x, rest) := h
    rw [readFraction_eq] at hfraction
    obtain ⟨digits, after, htake, hne, hscale⟩ := exists_of_readDigits hfraction
    show skipDigits tail >>= skipScale = _
    rw [skipDigits_of_takeDigits htake hne]
    exact skipScale_of_readScale hscale

theorem skipNumber_of_readUnsigned (h : readUnsigned negative (behindSign text) = .ok (x, rest)) :
    skipNumber text = .ok rest := by
  rw [readUnsigned_eq] at h
  obtain ⟨digits, after, htake, hne, hbehind⟩ := exists_of_readDigits h
  dsimp only at hbehind
  split at hbehind
  · exact absurd hbehind nofun
  · rename_i hlead
    rw [skipNumber_of_takeDigits htake hne hlead]
    exact skipFraction_of_readAfterInteger hbehind

/-- **A number that is read is passed over alike.** -/
theorem skipNumber_of_readNumber (h : readNumber text = .ok (x, rest)) :
    skipNumber text = .ok rest := by
  rcases head?_cases (· = .char '-') text with hminus | ⟨s, tail, rfl, rfl⟩
  · rw [readNumber_of_not_minus hminus] at h
    rw [← behindSign_of_not_minus hminus] at h
    exact skipNumber_of_readUnsigned h
  · exact skipNumber_of_readUnsigned h

end Numbers

/-- Wherever the reader succeeds, passing over leaves the same text behind. -/
def Skips {α : Type} (reader : Reader α) : Prop :=
  ∀ {text rest : Text} {x : α}, reader text = .ok (x, rest) → skipTree text = .ok rest

/-- A value that opens no bracket is passed over by itself. -/
theorem skipTree_of_skipScalar {c : Char} {body : Text} (hskip : skipSpaces text = .char c :: body)
    (harray : c ≠ '[') (hobject : c ≠ '\x7b') (h : skipScalar (.char c :: body) = .ok rest) :
    skipTree text = .ok rest := by
  have hspace : isSpace (.char c) = false := by
    have hhead := List.head?_dropWhile_not isSpace text
    rw [← skipSpaces, hskip] at hhead
    simpa using hhead
  rw [skipTree, skipNested_congr ((skipSpaces_skipSpaces text).symm), hskip,
    skipNested_eq_skipScalar hspace harray hobject, h]

theorem skips_readString : Skips readString := by
  intro text rest s h
  rw [readString] at h
  split at h
  · rename_i body hskip
    obtain ⟨⟨said, left⟩, hread, h⟩ := bind_eq_ok_iff.1 h
    have hbehind := skipStringBody_of_readCharacters hread
    dsimp only at h
    split at h
    · obtain ⟨-, rfl⟩ := Prod.mk.inj (Except.ok.inj h)
      exact skipTree_of_skipScalar hskip (by decide) (by decide) hbehind
    · cases h
  · cases h

theorem skips_readOptionalString : Skips readOptionalString := by
  intro text rest o h
  rw [readOptionalString] at h
  split at h
  · rename_i body hskip
    obtain ⟨left, hread, h⟩ := bind_eq_ok_iff.1 h
    obtain ⟨-, rfl⟩ := Prod.mk.inj (Except.ok.inj h)
    exact skipTree_of_skipScalar hskip (by decide) (by decide) hread
  · obtain ⟨⟨s, left⟩, hread, h⟩ := bind_eq_ok_iff.1 h
    obtain ⟨-, rfl⟩ := Prod.mk.inj (Except.ok.inj h)
    exact skips_readString (readString_skipSpaces text ▸ hread)

theorem skips_readNatural (expected : Expected) (largest : Nat) :
    Skips (readNatural expected largest) := by
  intro text rest n h
  rw [readNatural] at h
  split at h
  · rename_i c body hskip
    split at h
    · rename_i hc
      obtain ⟨⟨x, left⟩, hread, h⟩ := bind_eq_ok_iff.1 h
      have hbehind : skipScalar (.char c :: body) = .ok left := by
        rw [skipScalar, if_neg (Tree.ne_of_number hc (by decide)), if_pos hc]
        exact skipNumber_of_readNumber hread
      have hpassed := skipTree_of_skipScalar hskip (Tree.ne_of_number hc (by decide))
        (Tree.ne_of_number hc (by decide)) hbehind
      cases x with
      | double y => exact absurd h nofun
      | integer i fits =>
        dsimp only at h
        split at h
        · obtain ⟨-, rfl⟩ := Prod.mk.inj (Except.ok.inj h)
          exact hpassed
        · exact absurd h nofun
    · exact absurd h nofun
  · exact absurd h nofun

end HighlightBundle.Json
