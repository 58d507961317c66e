import HighlightBundle.Proofs.TypedReading

/-!
# Texts that spell trees

The grammar of the format, apart from any reader: `Spells` says which characters spell a tree, with
all the ways that one tree can be spelled. Spaces may stand around every value and every key;
a character of a string stands for itself, or is one of eight escapes, or a code unit of four
hexadecimal digits, or a pair of them; members may come in any order and again. It is one relation
over the kinds of phrases there are, so that a proof about all of them is one induction.

`readDocument_of_spells` is that the reader of trees knows the grammar: what spells a tree, with no
more brackets open at once than allowed, is read as this tree. It is proved phrase by phrase, with
one lemma a constructor, and says on the way that no text spells two trees (`eq_of_spells`).

Numbers are spelled by numerals (`IsNumeral`), and which number a numeral is (`numeral?`) is taken
from the reader of numbers, which rounds. Of a numeral alone this reader says one of two things, the
number or that it is out of range (`readNumber_numeral`), so a numeral that is within range spells
the number that it is read as.
-/

namespace HighlightBundle.Json

/-! ### The grammar -/

/-- The spaces that may stand between tokens. -/
def IsBlank (gap : List Char) : Prop :=
  ∀ c ∈ gap, c = ' ' ∨ c = '\t' ∨ c = '\n' ∨ c = '\r'

/-- A hexadecimal digit, small or capital, and its value. -/
def IsHexDigit (c : Char) (n : Nat) : Prop :=
  n < 16 ∧ (c = Nat.digitChar n ∨ c = (Nat.digitChar n).toUpper)

/-- Four hexadecimal digits and the number that they are. -/
inductive IsUnit : List Char → Nat → Prop
  | mk {a b c d : Char} {i j k l : Nat} (ha : IsHexDigit a i) (hb : IsHexDigit b j)
      (hc : IsHexDigit c k) (hd : IsHexDigit d l) :
      IsUnit [a, b, c, d] (((i * 16 + j) * 16 + k) * 16 + l)

/-- The letters of the escapes, and what they stand for. -/
def escapes : List (Char × Char) :=
  [('"', '"'), ('\\', '\\'), ('/', '/'), ('b', '\x08'), ('f', '\x0c'), ('n', '\n'), ('r', '\r'),
    ('t', '\t')]

/-- How a character of a string is spelled. -/
inductive SpellsChar : List Char → Char → Prop
  | plain {c : Char} (hquote : c ≠ '"') (hback : c ≠ '\\') (hcontrol : 0x20 ≤ c.toNat) :
      SpellsChar [c] c
  | escape {letter c : Char} (h : (letter, c) ∈ escapes) : SpellsChar ['\\', letter] c
  /-- A code unit that is no surrogate. -/
  | unit {digits : List Char} {n : Nat} (h : IsUnit digits n)
      (hscalar : n < 0xD800 ∨ 0xDFFF < n) :
      SpellsChar ('\\' :: 'u' :: digits) (Char.ofNat n)
  /-- A leading and a trailing surrogate. -/
  | pair {digits digits' : List Char} {n n' : Nat} (h : IsUnit digits n) (h' : IsUnit digits' n')
      (hleading : 0xD800 ≤ n ∧ n ≤ 0xDBFF) (htrailing : 0xDC00 ≤ n' ∧ n' ≤ 0xDFFF) :
      SpellsChar ('\\' :: 'u' :: digits ++ '\\' :: 'u' :: digits')
        (Char.ofNat (0x10000 + (n - 0xD800) * 0x400 + (n' - 0xDC00)))

/-- How a string is spelled between its quotes. -/
inductive SpellsChars : List Char → List Char → Prop
  | nil : SpellsChars [] []
  | cons {cs more said : List Char} {c : Char} (h : SpellsChar cs c)
      (hmore : SpellsChars more said) : SpellsChars (cs ++ more) (c :: said)

/-- At least one decimal digit, and nothing else. -/
def AreDigits (cs : List Char) : Prop :=
  cs ≠ [] ∧ ∀ c ∈ cs, '0' ≤ c ∧ c ≤ '9'

/-- The exponent of a numeral, if it has one. -/
def IsScale (scale : List Char) : Prop :=
  scale = [] ∨ ∃ mark sign digits, scale = mark :: (sign ++ digits) ∧
    (mark = 'e' ∨ mark = 'E') ∧ (sign = [] ∨ sign = ['+'] ∨ sign = ['-']) ∧ AreDigits digits

/-- A numeral: a sign, digits without a leading zero, a fraction, and an exponent. -/
inductive IsNumeral : List Char → Prop
  | mk {sign whole fraction scale : List Char} (hsign : sign = [] ∨ sign = ['-'])
      (hwhole : AreDigits whole) (hlead : whole.head? = some '0' → whole = ['0'])
      (hfraction : fraction = [] ∨ ∃ digits, fraction = '.' :: digits ∧ AreDigits digits)
      (hscale : IsScale scale) :
      IsNumeral (sign ++ (whole ++ (fraction ++ scale)))

/-- The number that a numeral is, rounded, unless it is out of range. -/
def numeral? (cs : List Char) : Option Number :=
  (readNumber (cs.map .char)).toOption.map Prod.fst

/-- What a part of a text may be. -/
inductive Phrase where
  /-- A value from its first character to its last. -/
  | value (t : Tree)
  /-- A value with spaces around it. -/
  | item (t : Tree)
  /-- Items with commas between them, at least one. -/
  | items (ts : List Tree)
  /-- A key and a value, with spaces around both. -/
  | member (m : String × Tree)
  /-- Members with commas between them, at least one. -/
  | members (ms : List (String × Tree))

/-- **How a tree is spelled.** -/
inductive Spells : Phrase → List Char → Prop
  | null : Spells (.value .null) ['n', 'u', 'l', 'l']
  | isTrue : Spells (.value (.boolean true)) ['t', 'r', 'u', 'e']
  | isFalse : Spells (.value (.boolean false)) ['f', 'a', 'l', 's', 'e']
  | number {cs : List Char} {n : Number} (hnumeral : IsNumeral cs)
      (hfits : numeral? cs = some n) : Spells (.value (.number n)) cs
  | string {body : List Char} {s : String} (h : SpellsChars body s.toList) :
      Spells (.value (.string s)) ('"' :: (body ++ ['"']))
  | emptyArray {gap : List Char} (hgap : IsBlank gap) :
      Spells (.value (.array [])) ('[' :: (gap ++ [']']))
  | array {cs : List Char} {ts : List Tree} (h : Spells (.items ts) cs) :
      Spells (.value (.array ts)) ('[' :: (cs ++ [']']))
  | emptyObject {gap : List Char} (hgap : IsBlank gap) :
      Spells (.value (.object [])) ('\x7b' :: (gap ++ ['\x7d']))
  | object {cs : List Char} {ms : List (String × Tree)} (h : Spells (.members ms) cs) :
      Spells (.value (.object ms)) ('\x7b' :: (cs ++ ['\x7d']))
  | item {before cs after : List Char} {t : Tree} (hbefore : IsBlank before)
      (h : Spells (.value t) cs) (hafter : IsBlank after) :
      Spells (.item t) (before ++ (cs ++ after))
  | lastItem {cs : List Char} {t : Tree} (h : Spells (.item t) cs) : Spells (.items [t]) cs
  | moreItems {cs more : List Char} {t : Tree} {ts : List Tree} (h : Spells (.item t) cs)
      (hmore : Spells (.items ts) more) : Spells (.items (t :: ts)) (cs ++ ',' :: more)
  | member {before body gap cs : List Char} {key : String} {t : Tree} (hbefore : IsBlank before)
      (hkey : SpellsChars body key.toList) (hgap : IsBlank gap) (h : Spells (.item t) cs) :
      Spells (.member (key, t)) (before ++ '"' :: (body ++ '"' :: (gap ++ ':' :: cs)))
  | lastMember {cs : List Char} {m : String × Tree} (h : Spells (.member m) cs) :
      Spells (.members [m]) cs
  | moreMembers {cs more : List Char} {m : String × Tree} {ms : List (String × Tree)}
      (h : Spells (.member m) cs) (hmore : Spells (.members ms) more) :
      Spells (.members (m :: ms)) (cs ++ ',' :: more)

/-! ### The plainest spellings -/

/-- A character that needs no escape. -/
def isPlain (c : Char) : Bool :=
  c ≠ '"' && c ≠ '\\' && 0x20 ≤ c.toNat

/-- Characters that need no escape stand for themselves. -/
theorem spellsChars_self {cs : List Char} (h : cs.all isPlain = true) : SpellsChars cs cs := by
  induction cs with
  | nil => exact .nil
  | cons c cs ih =>
    rw [List.all_cons, Bool.and_eq_true] at h
    have hplain : c ≠ '"' ∧ c ≠ '\\' ∧ 0x20 ≤ c.toNat := by simpa [isPlain, and_assoc] using h.1
    exact .cons (.plain hplain.1 hplain.2.1 hplain.2.2) (ih h.2)

/-- Around a value there need be no spaces. -/
theorem spells_item {cs : List Char} {t : Tree} (h : Spells (.value t) cs) :
    Spells (.item t) cs := by
  have hitem : Spells (.item t) ([] ++ (cs ++ [])) := .item nofun h nofun
  rwa [List.append_nil] at hitem

/-- Nor around a key. -/
theorem spells_member {cs : List Char} {t : Tree} (key : String)
    (hkey : key.toList.all isPlain = true) (h : Spells (.value t) cs) :
    Spells (.member (key, t)) ('"' :: (key.toList ++ '"' :: ':' :: cs)) :=
  @Spells.member [] key.toList [] cs key t nofun (spellsChars_self hkey) nofun (spells_item h)

/-! ### Numerals -/

section Numerals

-- powers of numbers are those of the core library, whatever else is in scope
attribute [local instance (2000)] instPowNat

variable {negative : Bool} {significand extra : Nat} {exponent : Int} {text : Text}
  {digits fraction scale : List Char} {result : Except Fault (Number × Text)}

/-- The result is a number behind which the text is left, or that the number is out of range. -/
def Settles (result : Except Fault (Number × Text)) (left : Text) : Prop :=
  (∃ n, result = .ok (n, left)) ∨ ∃ fault, result = .error fault ∧ fault.cause = .numberOutOfRange

theorem settles_readDecimal : Settles (readDecimal negative significand exponent text) text := by
  -- opened as a function of its arguments: with them in place the arithmetic would be unfolded
  generalize hread : readDecimal = read
  delta readDecimal at hread
  subst hread
  dsimp only
  generalize Binary64.ofDecimal? negative significand exponent = y
  rcases y with - | y
  · exact Or.inr ⟨_, rfl, rfl⟩
  · exact Or.inl ⟨_, rfl⟩

theorem settles_readPower {down : Bool} (values : List Nat) :
    Settles (readPower negative significand exponent down values text) text := by
  unfold readPower
  rcases absorb maxExponent 0 values with ⟨e, _ | ⟨d, ds⟩⟩
  · exact settles_readDecimal
  · dsimp only
    split
    · exact Or.inr ⟨_, rfl, rfl⟩
    · exact Or.inl ⟨_, rfl⟩

/-- Digits are taken up to what is no digit. -/
theorem takeDigits_of_areDigits (h : AreDigits digits)
    (htext : ∀ s ∈ text.head?, Symbol.digit? s = none) :
    takeDigits (digits.map .char ++ text) =
      (digits.map fun c ↦ c.toNat - '0'.toNat, text) := by
  obtain ⟨-, hall⟩ := h
  induction digits with
  | nil =>
    rcases text with - | ⟨s, text⟩
    · rfl
    · simp only [List.map_nil, List.nil_append, takeDigits, htext s rfl]
  | cons c digits ih =>
    obtain ⟨hc, hall⟩ := List.forall_mem_cons.1 hall
    have hdigit : Symbol.digit? (.char c) = some (c.toNat - '0'.toNat) := if_pos hc
    simp only [List.map_cons, List.cons_append, takeDigits, hdigit, ih hall]

/-- So they are read up to there. -/
theorem readDigits_of_areDigits (behind : List Nat → Reader Number) (h : AreDigits digits)
    (htext : ∀ s ∈ text.head?, Symbol.digit? s = none) :
    readDigits behind (digits.map .char ++ text) =
      behind (digits.map fun c ↦ c.toNat - '0'.toNat) text := by
  rw [readDigits, takeDigits_of_areDigits h htext]
  rcases digits with - | ⟨c, digits⟩
  · exact absurd rfl h.1
  · rfl

theorem isScaleMark_char {mark : Char} (h : mark = 'e' ∨ mark = 'E') :
    IsScaleMark (.char mark) :=
  h.imp (congrArg Symbol.char) (congrArg Symbol.char)

/-- Digits do not begin with a sign. -/
theorem not_sign_of_areDigits (h : AreDigits digits) (text : Text) :
    ∀ s ∈ (digits.map Symbol.char ++ text).head?, s ≠ .char '+' ∧ s ≠ .char '-' := by
  rcases digits with - | ⟨c, digits⟩
  · exact absurd rfl h.1
  · intro s hs
    obtain rfl : Symbol.char c = s := Option.some.inj hs
    have hc := h.2 c List.mem_cons_self
    constructor <;> rintro heq <;> rw [Symbol.char.inj heq] at hc <;> exact absurd hc (by decide)

/-- The sign of an exponent is taken, if there is one. -/
theorem takeSign_of_areDigits {sign : List Char} (hsign : sign = [] ∨ sign = ['+'] ∨ sign = ['-'])
    (h : AreDigits digits) (text : Text) :
    takeSign ((sign ++ digits).map .char ++ text) =
      (decide (sign = ['-']), digits.map .char ++ text) := by
  rcases hsign with rfl | rfl | rfl
  · have hnot := not_sign_of_areDigits h text
    rcases digits with - | ⟨c, digits⟩
    · exact absurd rfl h.1
    · exact takeSign_of_ne (hnot _ rfl).1 (hnot _ rfl).2 _
  · rfl
  · rfl

theorem settles_readExponent {sign : List Char} (hsign : sign = [] ∨ sign = ['+'] ∨ sign = ['-'])
    (h : AreDigits digits) :
    Settles (readExponent negative significand exponent ((sign ++ digits).map .char)) [] := by
  have htake := takeSign_of_areDigits hsign h []
  rw [List.append_nil] at htake
  rw [readExponent_eq, htake]
  dsimp only
  rw [readDigits_of_areDigits _ h (by simp)]
  exact settles_readPower _

theorem settles_readScale (hscale : IsScale scale) :
    Settles (readScale negative significand exponent (scale.map .char)) [] := by
  rcases hscale with rfl | ⟨mark, sign, digits, rfl, hmark, hsign, hdigits⟩
  · rw [List.map_nil, readScale_of_not_mark (by simp)]
    exact settles_readDecimal
  · rw [List.map_cons, readScale_of_mark (isScaleMark_char hmark)]
    exact settles_readExponent hsign hdigits

/-- An exponent does not begin with a digit. -/
theorem not_digit_of_isScale (hscale : IsScale scale) :
    ∀ s ∈ (scale.map Symbol.char).head?, Symbol.digit? s = none := by
  rcases hscale with rfl | ⟨mark, sign, digits, rfl, hmark, -, -⟩
  · exact nofun
  · intro s hs
    obtain rfl : Symbol.char mark = s := Option.some.inj hs
    rcases hmark with rfl | rfl <;> rfl

theorem settles_readFraction (h : AreDigits digits) (hscale : IsScale scale) :
    Settles (readFraction negative significand exponent ((digits ++ scale).map .char)) [] := by
  rw [readFraction_eq, List.map_append, readDigits_of_areDigits _ h (not_digit_of_isScale hscale)]
  exact settles_readScale hscale

theorem settles_readAfterInteger
    (hfraction : fraction = [] ∨ ∃ digits, fraction = '.' :: digits ∧ AreDigits digits)
    (hscale : IsScale scale) :
    Settles (readAfterInteger negative significand extra ((fraction ++ scale).map .char)) [] := by
  rcases hfraction with rfl | ⟨digits, rfl, hdigits⟩
  · rcases hscale with rfl | ⟨mark, sign, digits, rfl, hmark, hsign, hdigits⟩
    · have hdecimal : Settles (readDecimal negative significand extra []) [] := settles_readDecimal
      rw [List.append_nil, List.map_nil]
      delta readAfterInteger
      revert hdecimal
      generalize readDecimal = decimal
      intro hdecimal
      dsimp only
      split
      · generalize integerOf negative significand = n
        rcases n with - | n
        · exact Or.inr ⟨_, rfl, rfl⟩
        · exact Or.inl ⟨n, rfl⟩
      · exact hdecimal
    · rw [List.nil_append, List.map_cons, readAfterInteger_of_mark (isScaleMark_char hmark)]
      exact settles_readExponent hsign hdigits
  · exact settles_readFraction hdigits hscale

/-- What follows the whole part of a numeral does not begin with a digit. -/
theorem not_digit_of_isFraction
    (hfraction : fraction = [] ∨ ∃ digits, fraction = '.' :: digits ∧ AreDigits digits)
    (hscale : IsScale scale) :
    ∀ s ∈ ((fraction ++ scale).map Symbol.char).head?, Symbol.digit? s = none := by
  rcases hfraction with rfl | ⟨digits, rfl, -⟩
  · exact not_digit_of_isScale hscale
  · intro s hs
    obtain rfl : Symbol.char '.' = s := Option.some.inj hs
    rfl

/-- The whole part of a numeral has no zero in front of another digit. -/
theorem digits_ne_zero_cons {whole : List Char} {d : Nat} {ds : List Nat} (hwhole : AreDigits whole)
    (hlead : whole.head? = some '0' → whole = ['0']) :
    whole.map (fun c ↦ c.toNat - '0'.toNat) ≠ 0 :: d :: ds := by
  intro hvalues
  obtain ⟨c, tail, rfl, hc, htail⟩ := List.map_eq_cons_iff.1 hvalues
  obtain ⟨d, tail, rfl, -, -⟩ := List.map_eq_cons_iff.1 htail
  have hzero : c = '0' := by
    have hle := (hwhole.2 c List.mem_cons_self).1
    rw [Char.le_def, UInt32.le_iff_toNat_le] at hle
    refine Char.toNat_inj.1 (Nat.le_antisymm ?_ hle)
    exact Nat.le_of_sub_eq_zero hc
  exact absurd (hlead (by rw [hzero]; rfl)) (by simp)

/-- **A numeral is read as a number**, unless the number is out of range. -/
theorem readNumber_numeral (h : IsNumeral digits) : Settles (readNumber (digits.map .char)) [] := by
  obtain @⟨sign, whole, fraction, scale, hsign, hwhole, hlead, hfraction, hscale⟩ := h
  have hunsigned : ∀ negative,
      Settles (readUnsigned negative ((whole ++ (fraction ++ scale)).map .char)) [] := by
    intro negative
    rw [readUnsigned_eq, List.map_append,
      readDigits_of_areDigits _ hwhole (not_digit_of_isFraction hfraction hscale)]
    dsimp only
    split
    · rename_i hvalues
      exact absurd hvalues (digits_ne_zero_cons hwhole hlead)
    · exact settles_readAfterInteger hfraction hscale
  rcases hsign with rfl | rfl
  · rw [List.nil_append, readNumber_of_not_minus]
    · exact hunsigned false
    · rw [List.map_append]
      exact fun s hs ↦ (not_sign_of_areDigits hwhole _ s hs).2
  · exact hunsigned true

theorem readNumber_of_numeral? {n : Number} (h : IsNumeral digits)
    (hfits : numeral? digits = some n) : readNumber (digits.map .char) = .ok (n, []) := by
  rcases readNumber_numeral h with ⟨m, hread⟩ | ⟨fault, hread, -⟩
  · rw [numeral?, hread] at hfits
    obtain rfl : m = n := Option.some.inj hfits
    exact hread
  · rw [numeral?, hread] at hfits
    exact absurd hfits nofun

end Numerals

variable {gap cs body said : List Char} {text rest : Text} {depth fuel : Nat} {first : Bool}
  {t : Tree}

/-! ### Spaces -/

theorem isSpace_of_isBlank {c : Char} (h : c = ' ' ∨ c = '\t' ∨ c = '\n' ∨ c = '\r') :
    isSpace (.char c) = true := by
  rcases h with rfl | rfl | rfl | rfl <;> rfl

theorem skipSpaces_blank (hgap : IsBlank gap) (text : Text) :
    skipSpaces (gap.map .char ++ text) = skipSpaces text := by
  induction gap with
  | nil => rfl
  | cons c gap ih =>
    obtain ⟨hc, hgap⟩ := List.forall_mem_cons.1 hgap
    have hskip : skipSpaces (.char c :: (gap.map .char ++ text)) =
        skipSpaces (gap.map .char ++ text) :=
      List.dropWhile_cons_of_pos (isSpace_of_isBlank hc)
    exact hskip.trans (ih hgap)

theorem skipSpaces_of_isBlank (hgap : IsBlank gap) : skipSpaces (gap.map .char) = [] := by
  have hskip : skipSpaces (gap.map .char ++ []) = [] := skipSpaces_blank hgap []
  rwa [List.append_nil] at hskip

/-- Spaces may stand behind a number. -/
theorem ends_blank (hgap : IsBlank gap) (hrest : Ends rest) : Ends (gap.map .char ++ rest) := by
  rcases gap with - | ⟨c, gap⟩
  · exact hrest
  · refine ends_cons ?_
    rcases hgap c List.mem_cons_self with rfl | rfl | rfl | rfl <;> decide

theorem readTree_congr {text' : Text} (h : skipSpaces text = skipSpaces text') (depth : Nat) :
    readTree depth text = readTree depth text' := by
  cases depth <;> rw [readTree, readTree, h]

theorem readMembers_congr {σ : Type} {member : σ → String → Reader σ} {state : σ} {text' : Text}
    (h : skipSpaces text = skipSpaces text') :
    readMembers member fuel first state text = readMembers member fuel first state text' := by
  cases fuel <;> rw [readMembers, readMembers]
  rw [h]

theorem readColon_blank (hgap : IsBlank gap) (text : Text) :
    readColon (gap.map .char ++ .char ':' :: text) = .ok text := by
  rw [readColon, skipSpaces_blank hgap, skipSpaces_cons rfl]
  rfl

/-- A key, a colon and a value, behind the spaces in front of them. -/
theorem skipSpaces_member {before : List Char} (hbefore : IsBlank before) (body gap cs : List Char)
    (rest : Text) :
    skipSpaces ((before ++ '"' :: (body ++ '"' :: (gap ++ ':' :: cs))).map .char ++ rest) =
      .char '"' :: (body.map .char ++ .char '"' ::
        (gap.map .char ++ .char ':' :: (cs.map .char ++ rest))) := by
  have htext : (before ++ '"' :: (body ++ '"' :: (gap ++ ':' :: cs))).map Symbol.char ++ rest =
      before.map .char ++ .char '"' :: (body.map .char ++ .char '"' ::
        (gap.map .char ++ .char ':' :: (cs.map .char ++ rest))) := by simp
  rw [htext, skipSpaces_blank hbefore, skipSpaces_cons rfl]

/-! ### Strings -/

theorem hexValue?_of_isHexDigit {c : Char} {n : Nat} (h : IsHexDigit c n) :
    Symbol.hexValue? (.char c) = some n := by
  have hvalue : ∀ n < 16, Symbol.hexValue? (.char (Nat.digitChar n)) = some n ∧
      Symbol.hexValue? (.char (Nat.digitChar n).toUpper) = some n := by decide
  obtain ⟨hlow, rfl | rfl⟩ := h
  · exact (hvalue n hlow).1
  · exact (hvalue n hlow).2

theorem exists_hexUnit?_of_isUnit {digits : List Char} {n : Nat} (h : IsUnit digits n) :
    ∃ a b c d, digits = [a, b, c, d] ∧
      hexUnit? (.char a) (.char b) (.char c) (.char d) = some n := by
  obtain @⟨a, b, c, d, i, j, k, l, ha, hb, hc, hd⟩ := h
  refine ⟨a, b, c, d, rfl, ?_⟩
  rw [hexUnit?, hexValue?_of_isHexDigit ha, hexValue?_of_isHexDigit hb, hexValue?_of_isHexDigit hc,
    hexValue?_of_isHexDigit hd]
  have hsum : 4096 * i + 256 * j + 16 * k + l = ((i * 16 + j) * 16 + k) * 16 + l := by omega
  exact congrArg some hsum

theorem readCharacters_pair {s₁ s₂ s₃ s₄ s₅ s₆ s₇ s₈ : Symbol} {n n' : Nat} (text : Text)
    (h : hexUnit? s₁ s₂ s₃ s₄ = some n) (h' : hexUnit? s₅ s₆ s₇ s₈ = some n')
    (hn : 0xD800 ≤ n ∧ n ≤ 0xDBFF) (hn' : 0xDC00 ≤ n' ∧ n' ≤ 0xDFFF) :
    readCharacters (.char '\\' :: .char 'u' :: s₁ :: s₂ :: s₃ :: s₄ ::
      .char '\\' :: .char 'u' :: s₅ :: s₆ :: s₇ :: s₈ :: text) =
      thenSaid (.char (ofSurrogates n n')) (readCharacters text) := by
  have hleading : isLeading n = true := by simp [isLeading]; omega
  have hlow : isTrailing n = false := by simp [isTrailing]; omega
  have htrailing : isTrailing n' = true := by simp [isTrailing]; omega
  rw [readCharacters.eq_def]
  simp only [h, hlow, hleading, h', htrailing]
  exact bind_eq_thenSaid _ _

/-- **A spelled character says what it stands for.** -/
theorem readCharacters_of_spellsChar {c : Char} (h : SpellsChar cs c) (text : Text) :
    readCharacters (cs.map .char ++ text) = thenSaid (.char c) (readCharacters text) := by
  cases h with
  | plain hquote hback hcontrol =>
    refine readCharacters_plain hquote hback ?_
    rw [isControl, decide_eq_false_iff_not]
    omega
  | @escape letter c h =>
    have hescape : ∀ e ∈ escapes, e.1 ≠ 'u' ∧ escaped? e.1 = some e.2 := by decide
    exact readCharacters_escape (hescape _ h).1 (hescape _ h).2
  | unit h hscalar =>
    obtain ⟨a, b, c, d, rfl, hunit⟩ := exists_hexUnit?_of_isUnit h
    exact readCharacters_unit text hunit hscalar
  | @pair _ _ n n' h h' hleading htrailing =>
    obtain ⟨a, b, c, d, rfl, hunit⟩ := exists_hexUnit?_of_isUnit h
    obtain ⟨a', b', c', d', rfl, hunit'⟩ := exists_hexUnit?_of_isUnit h'
    have hsum : 0x10000 + (n - 0xD800) * 0x400 + (n' - 0xDC00) =
        (n - 0xD800) * 1024 + (n' - 0xDC00) + 0x10000 := by omega
    rw [hsum]
    exact readCharacters_pair text hunit hunit' hleading htrailing

theorem readCharacters_of_spellsChars (h : SpellsChars cs said) (text : Text) :
    readCharacters (cs.map .char ++ .char '"' :: text) = .ok (said.map .char, text) := by
  induction h with
  | nil => rw [List.map_nil, List.nil_append, readCharacters.eq_def]; rfl
  | cons h _ ih =>
    rw [List.map_append, List.append_assoc, readCharacters_of_spellsChar h, ih]
    rfl

/-- **A spelled string** is read up to its closing quote. -/
theorem readStringBody_of_spellsChars {s : String} (h : SpellsChars body s.toList) (text : Text) :
    readStringBody (body.map .char ++ .char '"' :: text) = .ok (s, text) := by
  rw [readStringBody, readCharacters_of_spellsChars h]
  simp only [bind, Except.bind, characters?_map_char, String.ofList_toList]
  rfl

/-! ### How phrases begin -/

theorem head_of_isNumeral (h : IsNumeral cs) :
    ∃ c tail, cs = c :: tail ∧ (c = '-' ∨ ('0' ≤ c ∧ c ≤ '9')) := by
  obtain @⟨sign, whole, fraction, scale, hsign, hwhole, -, -, -⟩ := h
  rcases hsign with rfl | rfl
  · rcases whole with - | ⟨c, whole⟩
    · exact absurd rfl hwhole.1
    · exact ⟨c, _, rfl, Or.inr (hwhole.2 c List.mem_cons_self)⟩
  · exact ⟨'-', _, rfl, Or.inl rfl⟩

theorem startsItem_cons {c : Char} (hspace : isSpace (.char c) = false) (hclose : c ≠ ']')
    (tail : List Char) (rest : Text) : Tree.StartsItem ((c :: tail).map .char ++ rest) :=
  ⟨.char c, _, rfl, hspace, fun h ↦ hclose (Symbol.char.inj h)⟩

theorem startsItem_of_isNumeral (h : IsNumeral cs) (rest : Text) :
    Tree.StartsItem (cs.map .char ++ rest) := by
  obtain ⟨c, tail, rfl, hc⟩ := head_of_isNumeral h
  exact startsItem_cons (Tree.isSpace_of_number hc) (Tree.ne_of_number hc (by decide)) tail rest

theorem startsItem_of_value (h : Spells (.value t) cs) (rest : Text) :
    Tree.StartsItem (cs.map .char ++ rest) := by
  cases h with
  | number hnumeral _ => exact startsItem_of_isNumeral hnumeral rest
  | _ => exact startsItem_cons (by decide) (by decide) _ rest

theorem startsItem_of_item (h : Spells (.item t) cs) (rest : Text) :
    Tree.StartsItem (skipSpaces (cs.map .char ++ rest)) := by
  cases h with
  | item hbefore hvalue _ =>
    rw [List.map_append, List.append_assoc, skipSpaces_blank hbefore, List.map_append,
      List.append_assoc]
    have hstarts := startsItem_of_value hvalue
    rw [(hstarts _).skipSpaces_eq]
    exact hstarts _

theorem startsItem_of_items {ts : List Tree} (h : Spells (.items ts) cs) (rest : Text) :
    Tree.StartsItem (skipSpaces (cs.map .char ++ rest)) := by
  cases h with
  | lastItem h => exact startsItem_of_item h rest
  | moreItems h _ =>
    rw [List.map_append, List.append_assoc]
    exact startsItem_of_item h _

/-! ### Reading phrases -/

/-- How many brackets the phrase has open at once. -/
def Phrase.nesting : Phrase → Nat
  | value t => t.nesting
  | item t => t.nesting
  | items ts => Tree.itemsNesting ts
  | member m => m.2.nesting
  | members ms => Tree.membersNesting ms

/-- The characters are read as the phrase, with a limit on the brackets that may be open, whatever
stands behind them: the closing bracket, for items and members. Spaces behind an item are left to
whoever reads on. -/
def Phrase.IsRead (depth : Nat) (cs : List Char) : Phrase → Prop
  | value t => ∀ rest, Ends rest → readTree depth (cs.map .char ++ rest) = .ok (t, rest)
  | item t => ∀ rest, Ends rest → ∃ gap, IsBlank gap ∧
      readTree depth (cs.map .char ++ rest) = .ok (t, gap.map .char ++ rest)
  | items ts => ∀ fuel rest, cs.length < fuel →
      readFurther (readTree depth) fuel (cs.map .char ++ .char ']' :: rest) = .ok (ts, rest)
  | member m => ∀ rest, Ends rest → ∃ body gap, IsBlank gap ∧
      skipSpaces (cs.map .char ++ rest) = .char '"' :: body ∧ ∀ fuel done,
        readFurtherMembers (treeMember (readTree depth)) fuel done body =
          readMembers (treeMember (readTree depth)) fuel false (done ++ [m])
            (gap.map .char ++ rest)
  | members ms => ∀ fuel rest, cs.length < fuel → ∃ body,
      skipSpaces (cs.map .char ++ .char '\x7d' :: rest) = .char '"' :: body ∧ ∀ done,
        readFurtherMembers (treeMember (readTree depth)) fuel done body = .ok (done ++ ms, rest)

/-- A round for each character is enough, since a bracket closes behind them. -/
theorem length_lt_of_followed (cs : List Char) (close : Symbol) (rest : Text) :
    cs.length < (cs.map Symbol.char ++ close :: rest).length := by
  simp only [List.length_append, List.length_map, List.length_cons]
  omega

/-- A value that opens no bracket. -/
theorem isRead_of_readScalar {c : Char} (hspace : isSpace (.char c) = false) (harray : c ≠ '[')
    (hobject : c ≠ '\x7b')
    (h : ∀ rest, Ends rest → readScalar (.char c :: (cs.map .char ++ rest)) = .ok (t, rest)) :
    (Phrase.value t).IsRead depth (c :: cs) := fun rest hrest ↦
  (readTree_eq_readScalar hspace harray hobject depth).trans (h rest hrest)

theorem isRead_number {n : Number} (hnumeral : IsNumeral cs) (hfits : numeral? cs = some n) :
    (Phrase.value (.number n)).IsRead depth cs := by
  have hwhole := readNumber_of_numeral? hnumeral hfits
  obtain ⟨c, tail, rfl, hc⟩ := head_of_isNumeral hnumeral
  refine isRead_of_readScalar (Tree.isSpace_of_number hc) (Tree.ne_of_number hc (by decide))
    (Tree.ne_of_number hc (by decide)) fun rest hrest ↦ ?_
  have hread : readNumber (.char c :: (tail.map .char ++ rest)) = .ok (n, rest) :=
    readNumber_undisturbed hrest hwhole
  rw [readScalar, if_neg (Tree.ne_of_number hc (by decide)), if_pos hc, hread]
  rfl

theorem isRead_string {s : String} (h : SpellsChars body s.toList) :
    (Phrase.value (.string s)).IsRead depth ('"' :: (body ++ ['"'])) := by
  refine isRead_of_readScalar rfl (by decide) (by decide) fun rest _ ↦ ?_
  rw [readScalar, if_pos rfl, List.map_append, List.append_assoc]
  have hread : readStringBody (body.map .char ++ (['"'].map .char ++ rest)) = .ok (s, rest) :=
    readStringBody_of_spellsChars h rest
  rw [hread]
  rfl

theorem isRead_emptyArray (hgap : IsBlank gap) :
    (Phrase.value (.array [])).IsRead (depth + 1) ('[' :: (gap ++ [']'])) := by
  intro rest _
  have hclose : itemsOf (readTree depth) ((gap ++ [']']).map .char ++ rest) = .ok ([], rest) := by
    rw [List.map_append, List.append_assoc, itemsOf, readItems_congr (skipSpaces_blank hgap _)]
    exact readItems_close
  rw [List.map_cons, List.cons_append, readTree_array, hclose]
  rfl

/-- Spaces in front of an item make no difference. -/
theorem readFurther_skipSpaces (text : Text) :
    readFurther (readTree depth) fuel (skipSpaces text) =
      readFurther (readTree depth) fuel text := by
  rw [readFurther, readFurther, readTree_congr (skipSpaces_skipSpaces text)]

theorem isRead_array {ts : List Tree} (hspells : Spells (.items ts) cs)
    (h : (Phrase.items ts).IsRead depth cs) :
    (Phrase.value (.array ts)).IsRead (depth + 1) ('[' :: (cs ++ [']'])) := by
  intro rest _
  have hitems : itemsOf (readTree depth) ((cs ++ [']']).map .char ++ rest) = .ok (ts, rest) := by
    have hstarts := startsItem_of_items hspells ([']'].map .char ++ rest)
    rw [List.map_append, List.append_assoc, itemsOf,
      ← readItems_congr (skipSpaces_skipSpaces _), readItems_first hstarts, readFurther_skipSpaces]
    exact h _ rest (length_lt_of_followed cs _ rest)
  rw [List.map_cons, List.cons_append, readTree_array, hitems]
  rfl

theorem isRead_emptyObject (hgap : IsBlank gap) :
    (Phrase.value (.object [])).IsRead (depth + 1) ('\x7b' :: (gap ++ ['\x7d'])) := by
  intro rest _
  have hclose : membersOf (treeMember (readTree depth)) []
      ((gap ++ ['\x7d']).map .char ++ rest) = .ok ([], rest) := by
    rw [List.map_append, List.append_assoc, membersOf, readMembers_congr (skipSpaces_blank hgap _)]
    exact readMembers_close
  rw [List.map_cons, List.cons_append, readTree_object, hclose]
  rfl

theorem isRead_object {ms : List (String × Tree)} (h : (Phrase.members ms).IsRead depth cs) :
    (Phrase.value (.object ms)).IsRead (depth + 1) ('\x7b' :: (cs ++ ['\x7d'])) := by
  intro rest _
  have hmembers : membersOf (treeMember (readTree depth)) []
      ((cs ++ ['\x7d']).map .char ++ rest) = .ok (ms, rest) := by
    have hlength : cs.length < ((cs ++ ['\x7d']).map Symbol.char ++ rest).length := by
      rw [List.map_append, List.append_assoc]
      exact length_lt_of_followed cs _ rest
    obtain ⟨body, hskip, hread⟩ := h _ rest hlength
    rw [membersOf, readMembers_first_of_skipSpaces (by simpa using hskip), hread]
    rfl
  rw [List.map_cons, List.cons_append, readTree_object, hmembers]
  rfl

theorem isRead_item {before after : List Char} (hbefore : IsBlank before) (hafter : IsBlank after)
    (h : (Phrase.value t).IsRead depth cs) :
    (Phrase.item t).IsRead depth (before ++ (cs ++ after)) := by
  intro rest hrest
  refine ⟨after, hafter, ?_⟩
  rw [List.map_append, List.append_assoc, readTree_congr (skipSpaces_blank hbefore _),
    List.map_append, List.append_assoc]
  exact h _ (ends_blank hafter hrest)

/-- An item, with what reads the items behind it. -/
theorem readFurther_of_isRead {rest left : Text} {ts : List Tree}
    (h : (Phrase.item t).IsRead depth cs) (hrest : Ends rest)
    (hfurther : readItems (readTree depth) fuel false rest = .ok (ts, left)) :
    readFurther (readTree depth) fuel (cs.map .char ++ rest) = .ok (t :: ts, left) := by
  obtain ⟨gap, hgap, hread⟩ := h rest hrest
  rw [readFurther, hread]
  show (readItems (readTree depth) fuel false (gap.map .char ++ rest) >>= _) = _
  rw [readItems_congr (skipSpaces_blank hgap rest), hfurther]
  rfl

theorem isRead_lastItem (h : (Phrase.item t).IsRead depth cs) :
    (Phrase.items [t]).IsRead depth cs := by
  intro fuel rest hfuel
  obtain ⟨fuel, rfl⟩ := Nat.exists_eq_add_one_of_ne_zero (Nat.ne_zero_of_lt hfuel)
  exact readFurther_of_isRead h (ends_cons (by decide)) readItems_close

theorem isRead_moreItems {more : List Char} {ts : List Tree}
    (h : (Phrase.item t).IsRead depth cs) (hspells : Spells (.items ts) more)
    (hmore : (Phrase.items ts).IsRead depth more) :
    (Phrase.items (t :: ts)).IsRead depth (cs ++ ',' :: more) := by
  intro fuel rest hfuel
  obtain ⟨fuel, rfl⟩ := Nat.exists_eq_add_one_of_ne_zero (Nat.ne_zero_of_lt hfuel)
  rw [List.map_append, List.append_assoc]
  refine readFurther_of_isRead h (ends_cons (by decide)) ?_
  have hstarts := startsItem_of_items hspells (.char ']' :: rest)
  rw [List.map_cons, List.cons_append, readItems_next_of_startsItem hstarts, readFurther_skipSpaces]
  refine hmore _ rest ?_
  rw [List.length_append, List.length_cons] at hfuel
  omega

theorem isRead_member {before : List Char} {key : String} (hbefore : IsBlank before)
    (hkey : SpellsChars body key.toList) (hgap : IsBlank gap)
    (h : (Phrase.item t).IsRead depth cs) :
    (Phrase.member (key, t)).IsRead depth
      (before ++ '"' :: (body ++ '"' :: (gap ++ ':' :: cs))) := by
  intro rest hrest
  obtain ⟨after, hafter, hread⟩ := h rest hrest
  refine ⟨_, after, hafter, skipSpaces_member hbefore body gap cs rest, fun fuel done ↦ ?_⟩
  have hmember : treeMember (readTree depth) done key
      (gap.map .char ++ .char ':' :: (cs.map .char ++ rest)) = _ :=
    treeMember_of_eq_ok (readColon_blank hgap _) hread done key
  rw [readFurtherMembers, readStringBody_of_spellsChars hkey]
  show (treeMember (readTree depth) done key _ >>= _) = _
  rw [hmember]
  rfl

theorem isRead_lastMember {m : String × Tree} (h : (Phrase.member m).IsRead depth cs) :
    (Phrase.members [m]).IsRead depth cs := by
  intro fuel rest hfuel
  obtain ⟨fuel, rfl⟩ := Nat.exists_eq_add_one_of_ne_zero (Nat.ne_zero_of_lt hfuel)
  obtain ⟨body, gap, hgap, hskip, hread⟩ := h (.char '\x7d' :: rest) (ends_cons (by decide))
  refine ⟨body, hskip, fun done ↦ ?_⟩
  rw [hread, readMembers_congr (skipSpaces_blank hgap _)]
  exact readMembers_close

theorem isRead_moreMembers {more : List Char} {m : String × Tree} {ms : List (String × Tree)}
    (h : (Phrase.member m).IsRead depth cs) (hmore : (Phrase.members ms).IsRead depth more) :
    (Phrase.members (m :: ms)).IsRead depth (cs ++ ',' :: more) := by
  intro fuel rest hfuel
  obtain ⟨fuel, rfl⟩ := Nat.exists_eq_add_one_of_ne_zero (Nat.ne_zero_of_lt hfuel)
  have hlength : more.length < fuel := by
    rw [List.length_append, List.length_cons] at hfuel
    omega
  obtain ⟨body', hskip', hread'⟩ := hmore fuel rest hlength
  obtain ⟨body, gap, hgap, hskip, hread⟩ :=
    h (.char ',' :: (more.map .char ++ .char '\x7d' :: rest)) (ends_cons (by decide))
  refine ⟨body, by simpa using hskip, fun done ↦ ?_⟩
  rw [hread, readMembers_congr (skipSpaces_blank hgap _),
    readMembers_next_of_skipSpaces (skipSpaces_cons rfl _) hskip', hread', List.append_assoc]
  rfl

/-- **What spells a phrase is read as it**, within the limit on open brackets. -/
theorem isRead_of_spells {phrase : Phrase} (h : Spells phrase cs)
    (hdepth : phrase.nesting ≤ depth) : phrase.IsRead depth cs := by
  induction h generalizing depth with
  | null => exact isRead_of_readScalar rfl (by decide) (by decide) fun _ _ ↦ rfl
  | isTrue => exact isRead_of_readScalar rfl (by decide) (by decide) fun _ _ ↦ rfl
  | isFalse => exact isRead_of_readScalar rfl (by decide) (by decide) fun _ _ ↦ rfl
  | number hnumeral hfits => exact isRead_number hnumeral hfits
  | string h => exact isRead_string h
  | emptyArray hgap =>
    obtain ⟨depth, rfl⟩ := Nat.exists_eq_add_of_le' hdepth
    exact isRead_emptyArray hgap
  | array h ih =>
    obtain ⟨depth, rfl⟩ := Nat.exists_eq_add_one_of_ne_zero (Nat.ne_zero_of_lt hdepth)
    exact isRead_array h (ih (Nat.le_of_succ_le_succ hdepth))
  | emptyObject hgap =>
    obtain ⟨depth, rfl⟩ := Nat.exists_eq_add_one_of_ne_zero (Nat.ne_zero_of_lt hdepth)
    exact isRead_emptyObject hgap
  | object h ih =>
    obtain ⟨depth, rfl⟩ := Nat.exists_eq_add_one_of_ne_zero (Nat.ne_zero_of_lt hdepth)
    exact isRead_object (ih (Nat.le_of_succ_le_succ hdepth))
  | item hbefore _ hafter ih => exact isRead_item hbefore hafter (ih hdepth)
  | lastItem _ ih => exact isRead_lastItem (ih (Nat.le_trans (Nat.le_max_left _ _) hdepth))
  | moreItems _ hmore ih ihmore =>
    exact isRead_moreItems (ih (Nat.le_trans (Nat.le_max_left _ _) hdepth)) hmore
      (ihmore (Nat.le_trans (Nat.le_max_right _ _) hdepth))
  | member hbefore hkey hgap _ ih => exact isRead_member hbefore hkey hgap (ih hdepth)
  | lastMember _ ih => exact isRead_lastMember (ih (Nat.le_trans (Nat.le_max_left _ _) hdepth))
  | moreMembers _ _ ih ihmore =>
    exact isRead_moreMembers (ih (Nat.le_trans (Nat.le_max_left _ _) hdepth))
      (ihmore (Nat.le_trans (Nat.le_max_right _ _) hdepth))

/-- **A text spells one tree at most.** -/
theorem eq_of_spells {t' : Tree} (h : Spells (.item t) cs) (h' : Spells (.item t') cs) :
    t = t' := by
  obtain ⟨gap, -, hread⟩ := isRead_of_spells h (Nat.le_max_left t.nesting t'.nesting) [] nofun
  obtain ⟨gap', -, hread'⟩ := isRead_of_spells h' (Nat.le_max_right t.nesting t'.nesting) [] nofun
  exact (Prod.mk.inj (Except.ok.inj (hread.symm.trans hread'))).1

/-- **A text that spells a tree is read as this tree.** -/
theorem readDocument_of_spells (h : Spells (.item t) cs) (hdepth : t.nesting ≤ depthLimit) :
    readDocument (cs.map .char) = .ok t := by
  obtain ⟨gap, hgap, hread⟩ := isRead_of_spells h hdepth [] nofun
  rw [List.append_nil, List.append_nil] at hread
  exact readWhole_eq_ok_iff_exists.2 ⟨gap.map .char, hread, skipSpaces_of_isBlank hgap⟩

end HighlightBundle.Json
