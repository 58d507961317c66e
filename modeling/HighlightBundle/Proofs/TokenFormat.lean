import HighlightBundle.Proofs.DefinitionFormat
import HighlightBundle.Proofs.OpenObjects
import HighlightBundle.Proofs.WrittenSpellings
import HighlightBundle.Token

/-!
# The format of tokens

A token is read from an object or from a list. Of an object only five members matter, each of them
once at most, and in no particular order (`Token.Described`); what else stands there is passed over,
and may be anything that is well-formed. Of a list the five values have to be there, in order.

A token is a record of five fields without a body (`Token.layout`), none of which opens a bracket,
so an object is read as what describes it by its fields. The list is read field by field
(`Listed.exists_readField_zero`, `Listed.exists_readField_succ`).
-/

namespace HighlightBundle

-- powers of numbers are those of the core library, whatever else is in scope
attribute [local instance (2000)] instPowNat

open Json

namespace Json

variable {α : Type} {cs gap : List Char} {text rest : Text} {depth : Nat} {t : Tree}

/-! ### Natural numbers -/

namespace Tree

variable {values : List Tree} {key : String} {members : List (String × Tree)} {n largest : Nat}

/-- The values of a member that is a natural number. -/
def NaturalIs (values : List Tree) (n : Nat) : Prop :=
  ∃ fits, values = [number (.integer n fits)]

/-- The natural number up to a largest one that the tree is. -/
def natural? (largest : Nat) : Tree → Option Nat
  | number (.integer n _) => if 0 ≤ n ∧ n ≤ largest then some n.toNat else none
  | _ => none

theorem natural?_eq_some_iff : t.natural? largest = some n ↔
    n ≤ largest ∧ ∃ fits, t = number (.integer n fits) := by
  constructor
  · intro h
    unfold natural? at h
    split at h
    · rename_i i fits
      split at h
      · rename_i hrange
        obtain rfl := Option.some.inj h
        obtain ⟨m, rfl⟩ := Int.eq_ofNat_of_zero_le hrange.1
        exact ⟨Int.ofNat_le.1 hrange.2, fits, rfl⟩
      · cases h
    · cases h
  · rintro ⟨hle, fits, rfl⟩
    exact if_pos ⟨Int.natCast_nonneg n, Int.ofNat_le.2 hle⟩

/-- A required natural number. -/
theorem fieldIs_natural_iff : FieldIs (natural? largest) key members (some n) ↔
    n ≤ largest ∧ NaturalIs (valuesAt key members) n := by
  simp only [FieldIs, NaturalIs, natural?_eq_some_iff]
  constructor
  · rintro ⟨t, hvalues, hle, fits, rfl⟩
    exact ⟨hle, fits, hvalues⟩
  · rintro ⟨hle, fits, hvalues⟩
    exact ⟨_, hvalues, hle, fits, rfl⟩

theorem naturalIs_ofNat (h : n < 2 ^ (64 : Nat)) : NaturalIs [number (.ofNat n)] n := by
  have hmin : min n Number.maxInteger = n := Nat.min_eq_left (Nat.le_sub_one_of_lt h)
  refine ⟨⟨by omega, by omega⟩, ?_⟩
  simp only [Number.ofNat, hmin]

end Tree

theorem sees_readNatural {expected : Expected} {largest : Nat} :
    Sees depth (readNatural expected largest) (Tree.natural? largest) := by
  intro text rest t h
  have hfront := front_of_readTree h
  rw [readNatural]
  generalize skipSpaces text = front at hfront
  cases hfront with
  | number hc hread =>
    dsimp only
    rw [if_pos hc, hread]
    rename_i n
    rcases n with ⟨n, fits⟩ | x
    · show Gives (if 0 ≤ n ∧ n ≤ (largest : Int) then some n.toNat else none) _ _
      split <;> rename_i hrange
      · exact if_pos hrange
      · exact ⟨_, if_neg hrange⟩
    · exact gives_error
  | boolean hc =>
    have hnot : ∀ c : Char, c = 't' ∨ c = 'f' → ¬(c = '-' ∨ ('0' ≤ c ∧ c ≤ '9')) := by
      rintro c (rfl | rfl) <;> decide
    dsimp only
    rw [if_neg (hnot _ hc)]
    exact gives_error
  | _ => exact gives_error

/-! ### Lists of fields -/

theorem item_of_items_singleton (h : Spells (.items [t]) cs) : Spells (.item t) cs := by
  cases h with
  | lastItem h => exact h
  | moreItems _ hmore => cases hmore

theorem exists_of_items_cons {s : Tree} {ts : List Tree} (h : Spells (.items (t :: s :: ts)) cs) :
    ∃ first more, Spells (.item t) first ∧ Spells (.items (s :: ts)) more ∧
      cs = first ++ ',' :: more := by
  cases h with
  | moreItems h hmore => exact ⟨_, _, h, hmore, rfl⟩

namespace Listed

variable {record : Listed} {value : Reader α} {view : Tree → Option α} {x : α} {index : Nat}

/-- An item is seen from its first symbol on, and leaves the spaces behind it. -/
theorem exists_value_of_item (hvalue : ∀ {depth}, Sees depth value view) (h : Spells (.item t) cs)
    (hx : view t = some x) : ∃ gap, IsBlank gap ∧ ∀ rest, Ends rest → ∃ s tail,
      skipSpaces (cs.map .char ++ rest) = s :: tail ∧ s ≠ .char ']' ∧
        value (s :: tail) = .ok (x, gap.map .char ++ rest) := by
  cases h with
  | @item before cs after _ hbefore h hafter =>
    refine ⟨after, hafter, fun rest hrest ↦ ?_⟩
    have hread := isRead_of_spells h Nat.le.refl _ (ends_blank hafter hrest)
    have hskip : skipSpaces ((before ++ (cs ++ after)).map .char ++ rest) =
        cs.map .char ++ (after.map .char ++ rest) := by
      rw [List.map_append, List.append_assoc, skipSpaces_blank hbefore, List.map_append,
        List.append_assoc]
      exact (startsItem_of_value h _).skipSpaces_eq
    obtain ⟨s, tail, htext, -, hclose⟩ := startsItem_of_value h (after.map .char ++ rest)
    rw [htext] at hread hskip
    have hgives := hvalue hread
    rw [hx] at hgives
    exact ⟨s, tail, hskip, hclose, hgives⟩

/-- The first field of a list. -/
theorem exists_readField_zero (hvalue : ∀ {depth}, Sees depth value view)
    (h : Spells (.item t) cs) (hx : view t = some x) :
    ∃ gap, IsBlank gap ∧ ∀ rest, Ends rest →
      record.readField 0 value (cs.map .char ++ rest) = .ok (x, gap.map .char ++ rest) := by
  obtain ⟨gap, hgap, hread⟩ := exists_value_of_item hvalue h hx
  refine ⟨gap, hgap, fun rest hrest ↦ ?_⟩
  obtain ⟨s, tail, htext, hclose, hread⟩ := hread rest hrest
  rw [readField, htext]
  dsimp only
  rw [if_neg hclose, if_pos rfl]
  exact hread

/-- Any other field, with the comma in front of it. -/
theorem exists_readField_succ (hvalue : ∀ {depth}, Sees depth value view)
    (h : Spells (.item t) cs) (hx : view t = some x) (index : Nat) :
    ∃ gap, IsBlank gap ∧ ∀ before rest, IsBlank before → Ends rest →
      record.readField (index + 1) value
        (before.map .char ++ .char ',' :: (cs.map .char ++ rest)) =
          .ok (x, gap.map .char ++ rest) := by
  obtain ⟨gap, hgap, hread⟩ := exists_value_of_item hvalue h hx
  refine ⟨gap, hgap, fun before rest hbefore hrest ↦ ?_⟩
  obtain ⟨s, tail, htext, hclose, hread⟩ := hread rest hrest
  rw [readField, skipSpaces_blank hbefore, skipSpaces_cons rfl]
  dsimp only
  rw [if_neg (by decide), if_neg (Nat.succ_ne_zero index), if_pos rfl, htext]
  dsimp only
  rw [if_neg hclose]
  exact hread

theorem readClosing_blank (hgap : IsBlank gap) (rest : Text) :
    readClosing (gap.map .char ++ .char ']' :: rest) = .ok rest := by
  rw [readClosing, skipSpaces_blank hgap, skipSpaces_cons rfl]
  rfl

end Listed

end Json

open Tree

namespace Token

variable {members : List (String × Tree)} {token : Token} {cs : List Char} {text rest : Text}

/-- The keys with a meaning. -/
def fieldKeys : List String := ["content", "offset", "color", "bg_color", "font_style"]

/-- **The format of a token as an object**, as a matter of its members in any order. -/
@[mk_iff]
structure Described (members : List (String × Tree)) (token : Token) : Prop where
  content : valuesAt "content" members = [.string token.content]
  offset : NaturalIs (valuesAt "offset" members) token.offset
  color : OptionalStringIs (valuesAt "color" members) token.color
  background : OptionalStringIs (valuesAt "bg_color" members) token.background
  style : NaturalIs (valuesAt "font_style" members) token.style.bits.toNat

/-- The members that a colour may be: null, or none at all, where there is no colour. -/
inductive ColorForm (key : String) : Option String → List (String × Tree) → Prop
  | color (s : String) : ColorForm key (some s) [(key, .string s)]
  | null : ColorForm key none [(key, .null)]
  | leftOut : ColorForm key none []

/-- **The members that a token may be written as**, in any order. -/
inductive Form (token : Token) (members : List (String × Tree)) : Prop
  | mk {color background : List (String × Tree)} (hcolor : ColorForm "color" token.color color)
      (hbackground : ColorForm "bg_color" token.background background)
      (horder : members.Perm ([("content", .string token.content),
        ("offset", .number (.ofNat token.offset))] ++ (color ++ (background ++
          [("font_style", token.style.tree)]))))

/-- The values of a token as a list, in order. -/
def values (token : Token) : List Tree :=
  [.string token.content, .number (.ofNat token.offset), .ofOption token.color,
    .ofOption token.background, token.style.tree]

/-- The keys that a token needs occur once, and those it may do without at most once. -/
def Complete (keys : List String) : Prop :=
  (∀ key ∈ ["content", "offset", "font_style"], keys.count key = 1) ∧
    ∀ key ∈ ["color", "bg_color"], keys.count key ≤ 1

/-! ### Single values -/

/-- The style that a tree is. -/
def style? (t : Tree) : Option FontStyle :=
  (t.natural? 255).map fun bits ↦ ⟨UInt8.ofNat bits⟩

theorem sees_readStyle {depth : Nat} : Sees depth readStyle style? :=
  fun h ↦ (sees_readNatural h).map fun bits ↦ (⟨UInt8.ofNat bits⟩ : FontStyle)

theorem skips_readStyle : Skips readStyle := by
  intro text rest style h
  obtain ⟨⟨bits, left⟩, hread, h⟩ := bind_eq_ok_iff.1 h
  obtain ⟨-, rfl⟩ := Prod.mk.inj (Except.ok.inj h)
  exact skips_readNatural _ _ hread

theorem style?_eq_some_iff {t : Tree} {style : FontStyle} :
    style? t = some style ↔ t.natural? 255 = some style.bits.toNat := by
  rw [style?, Option.map_eq_some_iff]
  constructor
  · rintro ⟨bits, hbits, rfl⟩
    have hlt : bits < 256 := Nat.lt_succ_of_le (natural?_eq_some_iff.1 hbits).1
    have hback : (UInt8.ofNat bits).toNat = bits := UInt8.toNat_ofNat_of_lt' hlt
    rw [hbits, hback]
  · intro h
    exact ⟨_, h, by rw [UInt8.ofNat_toNat]⟩

theorem fieldIs_style_iff {key : String} {style : FontStyle} :
    FieldIs style? key members (some style) ↔ NaturalIs (valuesAt key members) style.bits.toNat := by
  have hnatural : FieldIs style? key members (some style) ↔
      FieldIs (natural? 255) key members (some style.bits.toNat) := by
    simp only [FieldIs, style?_eq_some_iff]
  have hle : style.bits.toNat ≤ 255 := Nat.le_of_lt_succ style.bits.toNat_lt
  rw [hnatural, fieldIs_natural_iff, and_iff_right hle]

theorem fieldIs_offset_iff {key : String} {offset : Nat} :
    FieldIs (natural? (2 ^ (64 : Nat) - 1)) key members (some offset) ↔
      NaturalIs (valuesAt key members) offset := by
  rw [fieldIs_natural_iff, and_iff_right_iff_imp]
  rintro ⟨fits, -⟩
  omega

/-! ### Objects -/

theorem Draft.finish_eq_ok_iff {draft : Draft} : draft.finish = .ok token ↔
    draft.content = some token.content ∧ draft.offset = some token.offset ∧
      token.color = draft.color.getD none ∧ token.background = draft.background.getD none ∧
      draft.style = some token.style := by
  obtain ⟨content, offset, color, background, style⟩ := draft
  obtain ⟨content', offset', color', background', style'⟩ := token
  rcases content with - | content
  · exact iff_of_false nofun nofun
  rcases offset with - | offset
  · exact iff_of_false nofun nofun
  rcases style with - | style
  · exact iff_of_false nofun nofun
  · show Except.ok _ = Except.ok _ ↔ _
    rw [Except.ok.injEq, Token.mk.injEq]
    grind

/-- The fields of a token. -/
def layout : Layout Draft Token where
  fields := [
    .required "content" .string Draft.content Token.content
      (fun draft x ↦ { draft with content := some x }) fun _ _ ↦ rfl,
    .required "offset" ⟨fun _ ↦ readOffset, natural? (2 ^ (64 : Nat) - 1), sees_readNatural⟩
      Draft.offset Token.offset (fun draft x ↦ { draft with offset := some x }) fun _ _ ↦ rfl,
    .optional "color" .optionalString none Draft.color Token.color
      (fun draft x ↦ { draft with color := some x }) fun _ _ ↦ rfl,
    .optional "bg_color" .optionalString none Draft.background Token.background
      (fun draft x ↦ { draft with background := some x }) fun _ _ ↦ rfl,
    .required "font_style" ⟨fun _ ↦ readStyle, style?, sees_readStyle⟩
      Draft.style Token.style (fun draft x ↦ { draft with style := some x }) fun _ _ ↦ rfl]
  body := none
  start := Draft.empty
  finish := Draft.finish
  apart := by simp [Field.apart_iff, Field.required, Field.optional]
  get_start := by simp [Field.required, Field.optional, Draft.empty]
  body_start := by simp
  get_body := by simp
  body_put := by simp
  finish_iff := by simp [Field.required, Field.optional, Draft.finish_eq_ok_iff]

theorem flat_layout : layout.Flat where
  body := rfl
  read := by simp [layout, Field.required, Field.optional, Typed.string, Typed.optionalString]
  skips := by
    simp only [layout, Field.required, Field.optional, List.forall_mem_cons]
    exact ⟨fun _ ↦ skips_readString, fun _ ↦ skips_readNatural _ _,
      fun _ ↦ skips_readOptionalString, fun _ ↦ skips_readOptionalString,
      fun _ ↦ skips_readStyle, List.forall_mem_nil _⟩

/-- The format is what the fields of a token are described by. -/
theorem describes_iff_described : layout.Describes members token ↔ Described members token := by
  rw [Layout.describes_iff, described_iff, optionalStringIs_iff, optionalStringIs_iff,
    ← fieldIs_offset_iff, ← fieldIs_style_iff]
  simp [layout, Field.required, Field.optional, Typed.string, Typed.optionalString,
    fieldIs_string_iff]

/-- A text that begins an object is read by the fields. -/
theorem read_of_brace {depth : Nat} {tail : Text} (h : skipSpaces text = .char '\x7b' :: tail) :
    read depth text =
      readObject (.record record.name) layout.start layout.member layout.finish depth text := by
  rw [read, readRecord, h]
  show readObject _ _ _ _ _ (Symbol.char '\x7b' :: tail) = _
  rw [readObject, readObject, h, skipSpaces_cons rfl]
  rfl

/-- **An object is read as the token that its members describe**, and not read if they describe
none. -/
theorem ofText_openObject_iff (h : OpenObject fieldKeys members cs) :
    ofText (cs.map .char) = .ok token ↔ Described members token := by
  obtain ⟨tail, htext⟩ := exists_skipSpaces_of_openObject h
  rw [ofText, readWhole, read_of_brace htext, ← readWhole]
  exact (flat_layout.readWhole_openObject_iff h).trans describes_iff_described

/-! ### Forms -/

/-- Only of a key that occurs more than once does the order matter. -/
theorem eq_of_perm_valuesAt {key : String} {more : List (String × Tree)} {values : List Tree}
    (h : members.Perm more) (hvalues : valuesAt key more = values) (hone : values.length ≤ 1) :
    valuesAt key members = values := by
  have hperm : (valuesAt key members).Perm values := hvalues ▸ (h.filter _).map _
  rcases values with - | ⟨t, _ | ⟨t', values⟩⟩
  · exact hperm.eq_nil
  · exact List.perm_singleton.1 hperm
  · exact absurd hone (by simp)

section ColorForm

variable {key : String} {color : Option String}

theorem ColorForm.valuesAt (h : ColorForm key color members) (k : String) :
    Tree.valuesAt k members = if k = key then members.map Prod.snd else [] := by
  by_cases hk : key = k
  · subst hk
    cases h <;> simp [Tree.valuesAt]
  · cases h <;> simp [Tree.valuesAt, hk, Ne.symm hk]

theorem ColorForm.length_le_one (h : ColorForm key color members) :
    (members.map Prod.snd).length ≤ 1 := by
  cases h <;> simp

theorem ColorForm.optionalStringIs (h : ColorForm key color members) :
    OptionalStringIs (members.map Prod.snd) color := by
  cases h with
  | color s => rfl
  | null => exact Or.inr rfl
  | leftOut => exact Or.inl rfl

end ColorForm

/-- **The members of a token describe it**, in any order. -/
theorem described_of_form (hoffset : token.offset < 2 ^ (64 : Nat)) (h : Form token members) :
    Described members token := by
  obtain @⟨color, background, hcolor, hbackground, horder⟩ := h
  have hvalues : ∀ key values, Tree.valuesAt key [("content", .string token.content),
        ("offset", .number (.ofNat token.offset))] ++ ((if key = "color" then color.map Prod.snd
          else []) ++ ((if key = "bg_color" then background.map Prod.snd else []) ++
            Tree.valuesAt key [("font_style", token.style.tree)])) = values →
      values.length ≤ 1 → Tree.valuesAt key members = values := by
    intro key values hall
    rw [← hcolor.valuesAt, ← hbackground.valuesAt, ← valuesAt_append, ← valuesAt_append,
      ← valuesAt_append] at hall
    exact eq_of_perm_valuesAt horder hall
  have hstyle := naturalIs_ofNat (n := token.style.bits.toNat)
    (Nat.lt_trans token.style.bits.toNat_lt (by decide))
  exact {
    content := hvalues _ _ (by simp [Tree.valuesAt]) (Nat.le_refl 1)
    offset := by
      rw [hvalues _ [.number (.ofNat token.offset)] (by simp [Tree.valuesAt]) (Nat.le_refl 1)]
      exact naturalIs_ofNat hoffset
    color := by
      rw [hvalues _ (color.map Prod.snd) (by simp [Tree.valuesAt]) hcolor.length_le_one]
      exact hcolor.optionalStringIs
    background := by
      rw [hvalues _ (background.map Prod.snd) (by simp [Tree.valuesAt]) hbackground.length_le_one]
      exact hbackground.optionalStringIs
    style := by
      rw [hvalues _ [token.style.tree] (by simp [Tree.valuesAt]) (Nat.le_refl 1)]
      exact hstyle }

/-- **A token that is written** is one of its forms. -/
theorem ofText_write (hoffset : token.offset < 2 ^ (64 : Nat)) :
    ofText (token.tree.write.map .char) = .ok token := by
  have hcolor : ∀ key color, ColorForm key color [(key, Tree.ofOption color)] := by
    rintro key (- | s)
    · exact .null
    · exact .color s
  have hform : Form token [("content", .string token.content),
      ("offset", .number (.ofNat token.offset)), ("color", .ofOption token.color),
      ("bg_color", .ofOption token.background), ("font_style", token.style.tree)] :=
    .mk (hcolor _ _) (hcolor _ _) (List.Perm.refl _)
  have hdoubles : token.tree.doubles = [] := by
    obtain ⟨content, offset, - | color, - | background, style⟩ := token <;> rfl
  have hobject : OpenObject fieldKeys _ token.tree.write :=
    openObject_of_spells (spells_item (spells_write _ hdoubles))
  exact (ofText_openObject_iff hobject).2 (described_of_form hoffset hform)

/-! ### Lists -/

theorem natural?_offset (h : token.offset < 2 ^ (64 : Nat)) :
    natural? (2 ^ (64 : Nat) - 1) (.number (.ofNat token.offset)) = some token.offset := by
  obtain ⟨fits, hnumber⟩ := naturalIs_ofNat h
  exact natural?_eq_some_iff.2 ⟨Nat.le_sub_one_of_lt h, fits, List.singleton_inj.1 hnumber⟩

theorem style?_tree (style : FontStyle) : style? style.tree = some style := by
  have hlt := style.bits.toNat_lt
  obtain ⟨fits, hnumber⟩ := naturalIs_ofNat (n := style.bits.toNat) (by omega)
  exact style?_eq_some_iff.2 (natural?_eq_some_iff.2
    ⟨Nat.le_of_lt_succ hlt, fits, List.singleton_inj.1 hnumber⟩)

theorem stringOrNull?_ofOption (o : Option String) : (Tree.ofOption o).stringOrNull? = some o := by
  cases o <;> rfl

/-- The five values are read one by one, up to the closing bracket. -/
theorem exists_readValues (hoffset : token.offset < 2 ^ (64 : Nat))
    (h : Spells (.items token.values) cs) (depth : Nat) (rest : Text) :
    ∃ gap, IsBlank gap ∧ readValues depth (cs.map .char ++ .char ']' :: rest) =
      .ok (token, gap.map .char ++ .char ']' :: rest) := by
  obtain ⟨content, cs₁, hcontent, h₁, rfl⟩ := exists_of_items_cons h
  obtain ⟨offset, cs₂, hoffset', h₂, rfl⟩ := exists_of_items_cons h₁
  obtain ⟨color, cs₃, hcolor, h₃, rfl⟩ := exists_of_items_cons h₂
  obtain ⟨background, style, hbackground, h₄, rfl⟩ := exists_of_items_cons h₃
  have hstyle := item_of_items_singleton h₄
  have hcomma : ∀ text, Ends (.char ',' :: text) := fun text ↦ ends_cons (by decide)
  have hclose : Ends (.char ']' :: rest) := ends_cons (by decide)
  obtain ⟨gap₀, hgap₀, hread₀⟩ := record.exists_readField_zero sees_readString hcontent rfl
  obtain ⟨gap₁, hgap₁, hread₁⟩ := record.exists_readField_succ sees_readNatural hoffset'
    (natural?_offset hoffset) 0
  obtain ⟨gap₂, hgap₂, hread₂⟩ := record.exists_readField_succ sees_readOptionalString hcolor
    (stringOrNull?_ofOption token.color) 1
  obtain ⟨gap₃, hgap₃, hread₃⟩ := record.exists_readField_succ sees_readOptionalString hbackground
    (stringOrNull?_ofOption token.background) 2
  obtain ⟨gap₄, hgap₄, hread₄⟩ := record.exists_readField_succ sees_readStyle hstyle
    (style?_tree token.style) 3
  refine ⟨gap₄, hgap₄, ?_⟩
  simp only [List.map_append, List.map_cons, List.append_assoc, List.cons_append]
  exact bind_eq_ok_iff.2 ⟨_, hread₀ _ (hcomma _),
    bind_eq_ok_iff.2 ⟨_, hread₁ _ _ hgap₀ (hcomma _),
    bind_eq_ok_iff.2 ⟨_, hread₂ _ _ hgap₁ (hcomma _),
    bind_eq_ok_iff.2 ⟨_, hread₃ _ _ hgap₂ (hcomma _),
    bind_eq_ok_iff.2 ⟨_, hread₄ _ _ hgap₃ hclose, rfl⟩⟩⟩⟩⟩

/-- **The list of the values of a token** is read as the token. -/
theorem ofText_list (hoffset : token.offset < 2 ^ (64 : Nat))
    (h : Spells (.item (.array token.values)) cs) : ofText (cs.map .char) = .ok token := by
  cases h with
  | @item before _ after _ hbefore h hafter =>
    cases h with
    | @array cs _ h =>
      obtain ⟨gap, hgap, hread⟩ := exists_readValues hoffset h 126 (after.map .char)
      have htext : skipSpaces ((before ++ ('[' :: (cs ++ [']']) ++ after)).map .char) =
          .char '[' :: (cs.map .char ++ .char ']' :: after.map .char) := by
        rw [List.map_append, skipSpaces_blank hbefore, List.cons_append, List.map_cons,
          skipSpaces_cons rfl]
        simp
      refine readWhole_eq_ok_iff_exists.2 ⟨after.map .char, ?_, skipSpaces_of_isBlank hafter⟩
      rw [read, readRecord, htext]
      refine bind_eq_ok_iff.2 ⟨_, hread, bind_eq_ok_iff.2 ⟨_, ?_, rfl⟩⟩
      exact Listed.readClosing_blank hgap _

/-! ### Keys -/

/-- **A text of an object that is read as a token** has the keys that a token needs. -/
theorem exists_complete_of_ofText {tail : Text} (htext : skipSpaces text = .char '\x7b' :: tail)
    (h : ofText text = .ok token) : ∃ keys, memberKeys text = .ok keys ∧ Complete keys := by
  have hread : readWhole (readObject (.record record.name) layout.start layout.member layout.finish
      depthLimit) text = .ok token := by
    rwa [ofText, readWhole, read_of_brace htext, ← readWhole] at h
  obtain ⟨keys, hkeys, hfields⟩ := flat_layout.exists_memberKeys hread
  simp only [layout, Field.required, Field.optional, List.forall_mem_cons] at hfields
  obtain ⟨hcontent, hoffset, ⟨color, hcolor, -⟩, ⟨background, hbackground, -⟩, hstyle, -⟩ := hfields
  have hone : ∀ {α : Type} {x : α} {n : Nat}, (∃ o, n = o.toList.length ∧ o = some x) → n = 1 := by
    rintro α x n ⟨o, hn, rfl⟩
    exact hn
  have hle : ∀ {α : Type} (o : Option α), o.toList.length ≤ 1 := fun o ↦ by cases o <;> simp
  refine ⟨keys, hkeys, ?_, ?_⟩
  · simp only [List.forall_mem_cons]
    exact ⟨hone hcontent, hone hoffset, hone hstyle, List.forall_mem_nil _⟩
  · simp only [List.forall_mem_cons]
    exact ⟨hcolor ▸ hle color, hbackground ▸ hle background, List.forall_mem_nil _⟩

/-- **Every form of a token is read as this token.** An object is read as the token that its members
describe, whatever members of other keys stand between them; so the members of a token are read as
it in any order, with colours that are null or left out where there is none. So is the list of its
values, and so is what is written of it. And an object that is read as a token has every key that a
token needs once, and no key of a colour twice. -/
theorem every_form_is_read :
    (∀ (token : Token) (members : List (String × Tree)) (cs : List Char),
      OpenObject fieldKeys members cs →
        (ofText (cs.map .char) = .ok token ↔ Described members token)) ∧
    (∀ token : Token, token.offset < 2 ^ (64 : Nat) →
      (∀ (members : List (String × Tree)) (cs : List Char), Form token members →
        OpenObject fieldKeys members cs → ofText (cs.map .char) = .ok token) ∧
      (∀ cs : List Char, Spells (.item (.array token.values)) cs →
        ofText (cs.map .char) = .ok token) ∧
      ofText (token.tree.write.map .char) = .ok token) ∧
    ∀ (token : Token) (text tail : Text), skipSpaces text = .char '\x7b' :: tail →
      ofText text = .ok token → ∃ keys, memberKeys text = .ok keys ∧ Complete keys := by
  refine ⟨fun token members cs h ↦ ofText_openObject_iff h, fun token hoffset ↦ ⟨?_, ?_, ?_⟩,
    fun token text tail htext h ↦ exists_complete_of_ofText htext h⟩
  · intro members cs hform h
    exact (ofText_openObject_iff h).2 (described_of_form hoffset hform)
  · exact fun cs h ↦ ofText_list hoffset h
  · exact ofText_write hoffset

/-- A token without a colour. -/
def plainToken : Token := ⟨"x", 3, none, some "#fff", ⟨5⟩⟩

/-- Its members, the last one first. -/
def plainMembers : List (String × Tree) :=
  [("font_style", .number (.ofNat 5)), ("bg_color", .string "#fff"), ("offset", .number (.ofNat 3)),
    ("content", .string "x")]

/-- A text with these members and one more, which has a number out of range and half of a pair. -/
def plainText : List Char :=
  ("\x7b\"font_style\":5,\"bg_color\":\"#fff\",\"z\":[[1e999],\"\\ud800\"],\"offset\":3," ++
    "\"content\":\"x\"\x7d").toList

theorem openObject_plainText : OpenObject fieldKeys plainMembers plainText := by
  have hstyle := spells_member "font_style" (by decide) (spells_integer 5 (by decide))
  have hbackground := spells_member "bg_color" (by decide) (spells_writeString "#fff")
  have hoffset := spells_member "offset" (by decide) (spells_integer 3 (by decide))
  have hcontent := spells_member "content" (by decide) (spells_writeString "x")
  have hnumeral : IsNumeral "1e999".toList :=
    @IsNumeral.mk [] ['1'] [] ['e', '9', '9', '9'] (.inl rfl) ⟨nofun, by simp⟩ nofun (.inl rfl)
      (.inr ⟨'e', [], ['9', '9', '9'], rfl, .inl rfl, .inl rfl, nofun, by simp⟩)
  have hunit : IsUnit "d800".toList 0xD800 :=
    @IsUnit.mk 'd' '8' '0' '0' 13 8 0 0 ⟨by decide, .inl rfl⟩ ⟨by decide, .inl rfl⟩
      ⟨by decide, .inl rfl⟩ ⟨by decide, .inl rfl⟩
  have hhalf : QuotedChars "\\ud800".toList := .unit hunit .nil
  have hinner := WellFormed.array (.lastItem (wellFormed_item (.number hnumeral)))
  have houter := WellFormed.array (.moreItems (wellFormed_item hinner)
    (.lastItem (wellFormed_item (.string hhalf))))
  have hother : OpenMember fieldKeys [] _ := @OpenMember.other _ [] _ [] _ "z" (by decide) nofun
    (spellsChars_self (by decide)) nofun (wellFormed_item houter)
  have hobject : OpenObject fieldKeys plainMembers _ := @OpenObject.mk _ [] _ [] _ nofun
    (.inr (.more (.field (by decide) hstyle) (.more (.field (by decide) hbackground) (.more hother
      (.more (.field (by decide) hoffset) (.last (.field (by decide) hcontent))))))) nofun
  exact (congrArg (OpenObject fieldKeys plainMembers) (by decide +kernel)).mp hobject

/-- The members in another order with one more between them are read as the token, the list of its
values is, and what is written of it. -/
theorem every_form_is_read_of_plainToken :
    plainToken.offset < 2 ^ (64 : Nat) ∧ Form plainToken plainMembers ∧
      OpenObject fieldKeys plainMembers plainText ∧ Described plainMembers plainToken ∧
      ofText (plainText.map .char) = .ok plainToken ∧
      (∃ tail, skipSpaces (plainText.map .char) = .char '\x7b' :: tail) ∧
      (∃ keys, memberKeys (plainText.map .char) = .ok keys ∧ Complete keys) ∧
      Spells (.item (.array plainToken.values)) (Tree.array plainToken.values).write ∧
      ofText ((Tree.array plainToken.values).write.map .char) = .ok plainToken := by
  have hoffset : plainToken.offset < 2 ^ (64 : Nat) := by decide
  have hform : Form plainToken plainMembers :=
    .mk .leftOut (.color "#fff") (List.reverse_perm plainMembers).symm
  have hvalues : Spells (.item (.array plainToken.values)) (Tree.array plainToken.values).write :=
    spells_item (spells_write _ rfl)
  obtain ⟨hobject, htoken, hkeys⟩ := every_form_is_read
  obtain ⟨hforms, hlist, -⟩ := htoken plainToken hoffset
  have hread := hforms _ _ hform openObject_plainText
  obtain ⟨tail, htext⟩ := exists_skipSpaces_of_openObject openObject_plainText
  exact ⟨hoffset, hform, openObject_plainText, (hobject _ _ _ openObject_plainText).1 hread, hread,
    ⟨tail, htext⟩, hkeys _ _ _ htext hread, hvalues, hlist _ hvalues⟩

end Token

end HighlightBundle
