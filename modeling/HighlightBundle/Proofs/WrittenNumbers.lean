import HighlightBundle.Json.Numerals

/-!
# Written numbers read back

A number has no last symbol of its own: it ends where no digit follows. So for a number inside of a
larger text two things are needed. Reading is not disturbed by what stands behind a number in a
tree, a comma, a closing bracket or a space (`readNumber_undisturbed`, by one such fact for each
function that reads a part). And the text of the number alone is read as the number, which is shown
of every integer (`readsBack_integer`).

Of doubles it is not shown but said as a condition (`Number.ReadsBack`): decimals are read in a
quick way that does not always give the nearest double.

The functions that end in `readDecimal` are opened by `delta` with `readDecimal` generalized, since
its arithmetic with powers must stay closed.
-/

namespace HighlightBundle.Json

-- powers of numbers are those of the core library, whatever else is in scope
attribute [local instance (2000)] instPowNat

/-- What ends a number: a comma, a bracket that closes, or a space. -/
def enders : List Symbol :=
  [',', ']', '\x7d', ' ', '\t', '\n', '\r'].map .char

/-- What may stand behind a number: nothing, or what ends it. -/
def Ends (rest : Text) : Prop :=
  ∀ s ∈ rest.head?, s ∈ enders

/-- What is put behind a text that has been read stays behind it. -/
def Undisturbed {α : Type} (reader : Reader α) : Prop :=
  ∀ {text left rest : Text} {x : α}, Ends rest → reader text = .ok (x, left) →
    reader (text ++ rest) = .ok (x, left ++ rest)

variable {text left rest : Text} {negative : Bool} {significand extra : Nat} {exponent : Int}
  {x : Number}

theorem ends_cons {s : Symbol} (h : s ∈ enders) : Ends (s :: rest) :=
  fun _ ht ↦ Option.some.inj ht ▸ h

/-- What holds of nothing that ends a number does not hold of what stands behind. -/
theorem Ends.not {P : Symbol → Prop} (hrest : Ends rest) (h : ∀ s ∈ enders, ¬P s) :
    ∀ s ∈ rest.head?, ¬P s :=
  fun s hs ↦ h s (hrest s hs)

theorem head?_cases (P : Symbol → Prop) (text : Text) :
    (∀ s ∈ text.head?, ¬P s) ∨ ∃ s tail, text = s :: tail ∧ P s := by
  rcases text with - | ⟨s, tail⟩
  · exact Or.inl nofun
  · by_cases h : P s
    · exact Or.inr ⟨s, tail, rfl, h⟩
    · exact Or.inl fun t ht ↦ Option.some.inj ht ▸ h

theorem forall_head?_append {P : Symbol → Prop} (htext : ∀ s ∈ text.head?, P s)
    (hrest : ∀ s ∈ rest.head?, P s) : ∀ s ∈ (text ++ rest).head?, P s := by
  rcases text with - | ⟨s, tail⟩
  · exact hrest
  · exact htext

/-! ### Digits -/

theorem takeDigits_append (hrest : Ends rest) (text : Text) :
    takeDigits (text ++ rest) = ((takeDigits text).1, (takeDigits text).2 ++ rest) := by
  induction text with
  | nil =>
    rcases rest with - | ⟨s, rest⟩
    · rfl
    · have hdigit : ∀ s ∈ enders, Symbol.digit? s = none := by decide
      have hs := hdigit s (hrest s rfl)
      simp only [List.nil_append, takeDigits, hs]
  | cons s tail ih =>
    rw [List.cons_append, takeDigits, takeDigits, ih]
    cases Symbol.digit? s <;> rfl

/-- At least one digit, and what comes behind the digits. -/
def readDigits (behind : List Nat → Reader Number) : Reader Number := fun text ↦
  match takeDigits text with
  | ([], []) => .error (.here .endInValue [])
  | ([], _ :: rest) => .error (.here .malformedNumber rest)
  | (digits, rest) => behind digits rest

theorem readDigits_undisturbed {behind : List Nat → Reader Number}
    (h : ∀ digits, Undisturbed (behind digits)) : Undisturbed (readDigits behind) := by
  intro text left rest x hrest hread
  rw [readDigits] at hread ⊢
  rw [takeDigits_append hrest]
  rcases htake : takeDigits text with ⟨_ | ⟨d, ds⟩, after⟩ <;> rw [htake] at hread
  · cases after <;> exact absurd hread nofun
  · exact h (d :: ds) hrest hread

/-! ### The value of a decimal -/

theorem readDecimal_eq_ok_iff :
    readDecimal negative significand exponent text = .ok (x, left) ↔
      ∃ y, Binary64.ofDecimal? negative significand exponent = some y ∧
        x = .double y ∧ left = text := by
  -- opened as a function of its arguments: with them in place the arithmetic would be unfolded
  generalize hread : readDecimal = read
  delta readDecimal at hread
  subst hread
  dsimp only
  generalize Binary64.ofDecimal? negative significand exponent = y
  rcases y with - | y
  · exact iff_of_false nofun nofun
  · refine ⟨fun h ↦ ?_, ?_⟩
    · obtain ⟨rfl, rfl⟩ := Prod.mk.inj (Except.ok.inj h)
      exact ⟨y, rfl, rfl, rfl⟩
    · rintro ⟨z, hz, rfl, rfl⟩
      rw [Option.some.inj hz]

theorem readDecimal_undisturbed : Undisturbed (readDecimal negative significand exponent) := by
  intro text left rest x _ h
  obtain ⟨y, hy, rfl, rfl⟩ := readDecimal_eq_ok_iff.1 h
  exact readDecimal_eq_ok_iff.2 ⟨y, hy, rfl, rfl⟩

/-! ### Exponents -/

/-- The sign of an exponent, and the text behind it. -/
def takeSign : Text → Bool × Text
  | .char '+' :: rest => (false, rest)
  | .char '-' :: rest => (true, rest)
  | text => (false, text)

/-- The value of an exponent. -/
def readPower (negative : Bool) (significand : Nat) (exponent : Int) (down : Bool)
    (digits : List Nat) : Reader Number := fun rest ↦
  match absorb maxExponent 0 digits with
  | (e, []) => readDecimal negative significand (if down then exponent - e else exponent + e) rest
  | (_, _ :: _) =>
    if significand ≠ 0 ∧ ¬down then .error (.here .numberOutOfRange rest)
    else .ok (.double (.zero negative), rest)

theorem readExponent_eq (text : Text) : readExponent negative significand exponent text =
    readDigits (readPower negative significand exponent (takeSign text).1) (takeSign text).2 := by
  unfold takeSign
  split
  · rw [readExponent]
    rfl
  · rw [readExponent]
    rfl
  · rename_i hplus hminus
    rw [readExponent]
    · rfl
    · exact hplus
    · exact hminus

theorem takeSign_of_ne {s : Symbol} (hplus : s ≠ .char '+') (hminus : s ≠ .char '-')
    (tail : Text) : takeSign (s :: tail) = (false, s :: tail) := by
  unfold takeSign
  split
  · simp_all
  · simp_all
  · rfl

theorem takeSign_append (hrest : Ends rest) (text : Text) :
    takeSign (text ++ rest) = ((takeSign text).1, (takeSign text).2 ++ rest) := by
  rcases text with - | ⟨s, tail⟩
  · rcases rest with - | ⟨s, rest⟩
    · rfl
    · have hsign : ∀ s ∈ enders, s ≠ .char '+' ∧ s ≠ .char '-' := by decide
      obtain ⟨hplus, hminus⟩ := hsign s (hrest s rfl)
      rw [List.nil_append, takeSign_of_ne hplus hminus]
      rfl
  · by_cases hplus : s = .char '+'
    · subst hplus
      rfl
    · by_cases hminus : s = .char '-'
      · subst hminus
        rfl
      · rw [List.cons_append, takeSign_of_ne hplus hminus, takeSign_of_ne hplus hminus]
        rfl

theorem readPower_undisturbed {down : Bool} (digits : List Nat) :
    Undisturbed (readPower negative significand exponent down digits) := by
  intro text left rest x hrest h
  unfold readPower at h ⊢
  rcases habsorb : absorb maxExponent 0 digits with ⟨e, _ | ⟨d, ds⟩⟩ <;> rw [habsorb] at h
  · exact readDecimal_undisturbed hrest h
  · dsimp only at h ⊢
    split at h
    · exact absurd h nofun
    · rename_i hzero
      obtain ⟨rfl, rfl⟩ := Prod.mk.inj (Except.ok.inj h)
      exact if_neg hzero

theorem readExponent_undisturbed : Undisturbed (readExponent negative significand exponent) := by
  intro text left rest x hrest h
  rw [readExponent_eq] at h ⊢
  rw [takeSign_append hrest]
  exact readDigits_undisturbed readPower_undisturbed hrest h

/-- The letter of an exponent. -/
def IsScaleMark (s : Symbol) : Prop :=
  s = .char 'e' ∨ s = .char 'E'

instance : DecidablePred IsScaleMark :=
  fun _ ↦ inferInstanceAs (Decidable (_ ∨ _))

theorem readScale_of_not_mark (hnot : ∀ s ∈ text.head?, ¬IsScaleMark s) :
    readScale negative significand exponent text =
      readDecimal negative significand exponent text := by
  delta readScale
  generalize readDecimal = decimal
  split
  · exact absurd (Or.inl rfl) (hnot _ rfl)
  · exact absurd (Or.inr rfl) (hnot _ rfl)
  · rfl

theorem readScale_of_mark {s : Symbol} (h : IsScaleMark s) :
    readScale negative significand exponent (s :: text) =
      readExponent negative significand exponent text := by
  delta readScale
  generalize readDecimal = decimal
  rcases h with rfl | rfl <;> rfl

theorem readScale_undisturbed : Undisturbed (readScale negative significand exponent) := by
  intro text left rest x hrest h
  rcases head?_cases IsScaleMark text with hnot | ⟨s, tail, rfl, hs⟩
  · rw [readScale_of_not_mark hnot] at h
    rw [readScale_of_not_mark (forall_head?_append hnot (hrest.not (by decide)))]
    exact readDecimal_undisturbed hrest h
  · rw [readScale_of_mark hs] at h
    rw [List.cons_append, readScale_of_mark hs]
    exact readExponent_undisturbed hrest h

/-! ### Behind the integer part -/

theorem readFraction_eq (text : Text) : readFraction negative significand exponent text =
    readDigits (fun digits ↦
      let (significand, dropped) := absorb maxSignificand significand digits
      readScale negative significand (exponent - (digits.length - dropped.length))) text := by
  rfl

theorem readFraction_undisturbed : Undisturbed (readFraction negative significand exponent) := by
  intro text left rest x hrest h
  rw [readFraction_eq] at h ⊢
  exact readDigits_undisturbed (fun _ ↦ readScale_undisturbed) hrest h

theorem readAfterInteger_of_mark {s : Symbol} (h : IsScaleMark s) :
    readAfterInteger negative significand extra (s :: text) =
      readExponent negative significand extra text := by
  delta readAfterInteger
  generalize readDecimal = decimal
  rcases h with rfl | rfl <;> rfl

theorem readAfterInteger_eq_ok_iff (hpoint : ∀ s ∈ text.head?, ¬s = .char '.')
    (hmark : ∀ s ∈ text.head?, ¬IsScaleMark s) :
    readAfterInteger negative significand extra text = .ok (x, left) ↔
      if extra = 0 then integerOf negative significand = some x ∧ left = text
      else readDecimal negative significand extra text = .ok (x, left) := by
  delta readAfterInteger
  generalize readDecimal = decimal
  split
  · exact absurd rfl (hpoint _ rfl)
  · exact absurd (Or.inl rfl) (hmark _ rfl)
  · exact absurd (Or.inr rfl) (hmark _ rfl)
  · by_cases hextra : extra = 0
    · rw [if_pos hextra, if_pos hextra]
      generalize integerOf negative significand = n
      rcases n with - | n
      · exact iff_of_false nofun nofun
      · refine ⟨fun h ↦ ?_, ?_⟩
        · obtain ⟨rfl, rfl⟩ := Prod.mk.inj (Except.ok.inj h)
          exact ⟨rfl, rfl⟩
        · rintro ⟨hn, rfl⟩
          rw [Option.some.inj hn]
    · rw [if_neg hextra, if_neg hextra]

theorem readAfterInteger_undisturbed :
    Undisturbed (readAfterInteger negative significand extra) := by
  intro text left rest x hrest h
  rcases head?_cases (· = .char '.') text with hpoint | ⟨s, tail, rfl, rfl⟩
  · rcases head?_cases IsScaleMark text with hmark | ⟨s, tail, rfl, hs⟩
    · rw [readAfterInteger_eq_ok_iff hpoint hmark] at h
      rw [readAfterInteger_eq_ok_iff (forall_head?_append hpoint (hrest.not (by decide)))
        (forall_head?_append hmark (hrest.not (by decide)))]
      split
      · rw [if_pos ‹_›] at h
        exact ⟨h.1, congrArg (· ++ rest) h.2⟩
      · rw [if_neg ‹_›] at h
        exact readDecimal_undisturbed hrest h
    · rw [readAfterInteger_of_mark hs] at h
      rw [List.cons_append, readAfterInteger_of_mark hs]
      exact readExponent_undisturbed hrest h
  · exact readFraction_undisturbed hrest h

/-! ### Numbers -/

theorem readUnsigned_eq (text : Text) : readUnsigned negative text =
    readDigits (fun digits rest ↦ match digits with
      | 0 :: _ :: _ => .error (.here .malformedNumber rest)
      | digits =>
        let (significand, extra) := absorb maxSignificand 0 digits
        readAfterInteger negative significand extra.length rest) text := by
  rw [readUnsigned, readDigits]
  rcases takeDigits text with ⟨_ | ⟨d, ds⟩, after⟩
  · cases after <;> rfl
  · rcases d with - | d
    · rcases ds <;> rfl
    · rfl

theorem readUnsigned_undisturbed : Undisturbed (readUnsigned negative) := by
  intro text left rest x hrest h
  rw [readUnsigned_eq] at h ⊢
  refine readDigits_undisturbed (fun digits text left rest x hrest h ↦ ?_) hrest h
  dsimp only at h ⊢
  split at h
  · exact absurd h nofun
  · exact readAfterInteger_undisturbed hrest h

theorem readNumber_of_not_minus (h : ∀ s ∈ text.head?, ¬s = .char '-') :
    readNumber text = readUnsigned false text := by
  unfold readNumber
  split
  · exact absurd rfl (h _ rfl)
  · rfl

/-- **Reading a number is not disturbed** by what may stand behind it. -/
theorem readNumber_undisturbed : Undisturbed readNumber := by
  intro text left rest x hrest h
  rcases head?_cases (· = .char '-') text with hminus | ⟨s, tail, rfl, rfl⟩
  · rw [readNumber_of_not_minus hminus] at h
    rw [readNumber_of_not_minus (forall_head?_append hminus (hrest.not (by decide)))]
    exact readUnsigned_undisturbed hrest h
  · exact readUnsigned_undisturbed hrest h

/-- A number begins with its sign or with a digit. -/
theorem exists_of_readNumber_eq_ok (h : readNumber text = .ok (x, left)) :
    ∃ c tail, text = .char c :: tail ∧ (c = '-' ∨ ('0' ≤ c ∧ c ≤ '9')) := by
  rcases head?_cases (· = .char '-') text with hminus | ⟨s, tail, rfl, rfl⟩
  · rw [readNumber_of_not_minus hminus, readUnsigned_eq, readDigits] at h
    rcases text with - | ⟨s, tail⟩
    · exact absurd h nofun
    · rcases s with c | -
      · refine ⟨c, tail, rfl, Or.inr ?_⟩
        by_cases hc : '0' ≤ c ∧ c ≤ '9'
        · exact hc
        · rw [takeDigits, Symbol.digit?, if_neg hc] at h
          exact absurd h nofun
      · exact absurd h nofun
  · exact ⟨'-', tail, rfl, Or.inl rfl⟩

/-! ### Integers -/

/-- The values of the digits of a natural number. -/
def digitValues (n : Nat) : List Nat :=
  (decimalDigits n).map fun c ↦ c.toNat - '0'.toNat

theorem takeDigits_map_char {cs : List Char} (h : ∀ c ∈ cs, c.isDigit = true) :
    takeDigits (cs.map .char) = (cs.map fun c ↦ c.toNat - '0'.toNat, []) := by
  induction cs with
  | nil => rfl
  | cons c rest ih =>
    obtain ⟨hc, hrest⟩ := List.forall_mem_cons.1 h
    have hdigit : Symbol.digit? (.char c) = some (c.toNat - '0'.toNat) :=
      if_pos (by simpa [Char.isDigit, Char.le_def] using hc)
    rw [List.map_cons, takeDigits, hdigit, ih hrest]
    rfl

theorem takeDigits_decimalDigits (n : Nat) :
    takeDigits ((decimalDigits n).map .char) = (digitValues n, []) :=
  takeDigits_map_char fun _ hc ↦ Nat.isDigit_of_mem_toDigits (by decide) (by decide) hc

theorem digitValues_of_lt {n : Nat} (h : n < 10) : digitValues n = [n] := by
  have hvalue : ∀ d < 10, (Nat.digitChar d).toNat - '0'.toNat = d := by decide
  rw [digitValues, decimalDigits, Nat.toDigits_eq_if (by decide), if_pos h]
  exact congrArg (fun d ↦ [d]) (hvalue n h)

theorem digitValues_of_le {n : Nat} (h : 10 ≤ n) :
    digitValues n = digitValues (n / 10) ++ [n % 10] := by
  have hvalue : ∀ d < 10, (Nat.digitChar d).toNat - '0'.toNat = d := by decide
  rw [digitValues, decimalDigits, Nat.toDigits_eq_if (by decide), if_neg (Nat.not_lt.2 h),
    List.map_append]
  exact congrArg (fun d ↦ digitValues (n / 10) ++ [d]) (hvalue _ (Nat.mod_lt n (by decide)))

theorem digitValues_ne_nil (n : Nat) : digitValues n ≠ [] := by
  rcases Nat.lt_or_ge n 10 with h | h
  · rw [digitValues_of_lt h]
    exact List.cons_ne_nil _ _
  · rw [digitValues_of_le h]
    exact List.append_ne_nil_of_right_ne_nil _ (List.cons_ne_nil _ _)

/-- Only zero begins with the digit zero. -/
theorem head?_digitValues_ne_zero {n : Nat} (h : 0 < n) : (digitValues n).head? ≠ some 0 := by
  induction n using Nat.strongRecOn with
  | ind n ih =>
    rcases Nat.lt_or_ge n 10 with hlt | hge
    · rw [digitValues_of_lt hlt]
      exact fun h0 ↦ absurd (Option.some.inj h0) (by omega)
    · have hfront := ih (n / 10) (by omega) (by omega)
      obtain ⟨d, ds, hds⟩ := List.exists_cons_of_ne_nil (digitValues_ne_nil (n / 10))
      rw [digitValues_of_le hge, hds]
      rwa [hds] at hfront

/-- Digits that are all taken up leave the number that the further ones are added to. -/
theorem absorb_append {limit m k : Nat} {ds : List Nat} (es : List Nat)
    (h : absorb limit m ds = (k, [])) : absorb limit m (ds ++ es) = absorb limit k es := by
  induction ds generalizing m with
  | nil =>
    obtain ⟨rfl, -⟩ := Prod.mk.inj h
    rfl
  | cons d ds ih =>
    rw [absorb] at h
    split at h
    · rename_i hle
      rw [List.cons_append, absorb, if_pos hle]
      exact ih h
    · exact absurd h (by simp)

/-- The digits of a number within the limit are all taken up. -/
theorem absorb_digitValues {limit n : Nat} (h : n ≤ limit) :
    absorb limit 0 (digitValues n) = (n, []) := by
  induction n using Nat.strongRecOn with
  | ind n ih =>
    rcases Nat.lt_or_ge n 10 with hlt | hge
    · rw [digitValues_of_lt hlt, absorb, if_pos (by omega)]
      simp [absorb]
    · have hfront := ih (n / 10) (by omega) (by omega)
      rw [digitValues_of_le hge, absorb_append _ hfront, absorb, if_pos (by omega), absorb]
      exact congrArg (·, []) (by omega)

/-- No number is written with a zero in front of another digit. -/
theorem digitValues_ne_zero_cons {n d : Nat} {ds : List Nat} : digitValues n ≠ 0 :: d :: ds := by
  intro h
  rcases Nat.eq_zero_or_pos n with rfl | hpos
  · exact absurd ((digitValues_of_lt (by decide)).symm.trans h) (by simp)
  · exact head?_digitValues_ne_zero hpos (h ▸ rfl)

theorem readUnsigned_decimalDigits {n : Nat} (h : n < 2 ^ (64 : Nat)) :
    readUnsigned negative ((decimalDigits n).map .char) = readAfterInteger negative n 0 [] := by
  have habsorb : absorb maxSignificand 0 (digitValues n) = (n, []) :=
    absorb_digitValues (Nat.le_sub_one_of_lt h)
  rw [readUnsigned_eq, readDigits, takeDigits_decimalDigits]
  rcases hdigits : digitValues n with - | ⟨d, ds⟩
  · exact absurd hdigits (digitValues_ne_nil n)
  · rw [hdigits] at habsorb
    dsimp only
    split
    · rename_i hzero
      exact absurd (hdigits.trans hzero) digitValues_ne_zero_cons
    · rw [habsorb]
      rfl

/-- The number is read off its text. -/
def Number.ReadsBack (n : Number) : Prop :=
  readNumber (n.text.map .char) = .ok (n, [])

instance (n : Number) : Decidable n.ReadsBack :=
  decidable_of_iff ((readNumber (n.text.map .char)).toOption = some (n, [])) <| by
    rw [Number.ReadsBack]
    cases readNumber (n.text.map .char) <;> simp [Except.toOption]

/-- **Every integer reads back.** -/
theorem readsBack_integer (n : Int) (fits : -2 ^ (63 : Nat) ≤ n ∧ n < 2 ^ (64 : Nat)) :
    (Number.integer n fits).ReadsBack := by
  have hread : ∀ {negative m}, integerOf negative m = some (.integer n fits) →
      readAfterInteger negative m 0 [] = .ok (.integer n fits, []) := fun h ↦
    (readAfterInteger_eq_ok_iff (by simp) (by simp)).2 (by simp [h])
  rw [Number.ReadsBack, Number.text]
  rcases n with m | m
  · have hlt : m < 2 ^ (64 : Nat) := Int.ofNat_lt.1 fits.2
    have hminus : ∀ s ∈ ((decimalDigits m).map Symbol.char).head?, ¬s = .char '-' := by
      rintro s hs rfl
      obtain ⟨c, hc, heq⟩ := List.mem_map.1 (List.mem_of_mem_head? hs)
      have hdigit : c.isDigit = true := Nat.isDigit_of_mem_toDigits (by decide) (by decide) hc
      rw [Symbol.char.inj heq] at hdigit
      exact absurd hdigit (by decide)
    rw [decimalText.eq_def]
    dsimp only
    rw [readNumber_of_not_minus hminus, readUnsigned_decimalDigits hlt]
    apply hread
    rw [integerOf, dif_pos ⟨rfl, hlt⟩]
    rfl
  · change readUnsigned true ((decimalDigits (m + 1)).map .char) = _
    rw [readUnsigned_decimalDigits (by omega)]
    apply hread
    rw [integerOf, dif_neg (by simp), dif_pos ⟨rfl, by omega, by omega⟩]
    rfl

end HighlightBundle.Json
