import HighlightBundle.Proofs.CanonicalTrees
import HighlightBundle.Proofs.DefinitionFormat
import HighlightBundle.Proofs.NumeralValues

/-!
# Which texts are definitions

The grammar says which texts are objects with which members, the format says which members define
what. Together they say, without a reader, which texts are definitions and what these define:
`definitions_of_spells`, for languages and for themes.

The body keeps values as what they mean, and that nothing is lost there is said place by place: a
path leads into a tree by keys, the last member with a key counting, and by positions in lists, and
wherever it leads, the value has what the tree has (`Value.at?_ofTree`).
-/

namespace HighlightBundle

open Json

namespace Json.Tree

/-! ### Places in trees -/

/-- A step from a tree to what is in it. -/
inductive Step where
  /-- To the value of a key. -/
  | member (key : String)
  /-- To an item of a list. -/
  | item (index : Nat)

/-- Where a step leads. Of several members with one key it is the last. -/
def child? : Step → Tree → Option Tree
  | .member key, t => t.member? key
  | .item index, array items => items[index]?
  | .item _, _ => none

/-- Where a path leads. -/
def at? : List Step → Tree → Option Tree
  | [], t => some t
  | step :: path, t => (t.child? step).bind (at? path)

/-- A tree without what is in it: of a list its length is left. -/
def outline : Tree → Tree
  | array items => array (items.map fun _ ↦ null)
  | object _ => object []
  | t => t

variable {t : Tree} {members done : List (String × Tree)} {key : String}

theorem lookup_canonicalMembers : (canonicalMembers done members).lookup key =
    ((members.reverse.lookup key).map canonical).or (done.lookup key) := by
  induction members generalizing done with
  | nil => rfl
  | cons m members ih =>
    obtain ⟨k, t⟩ := m
    rw [canonicalMembers, ih, Table.lookup_insertEntry, List.reverse_cons, List.lookup_append,
      Table.lookup_cons_eq_ite]
    rcases members.reverse.lookup key with - | t' <;> by_cases hk : key = k <;> simp [hk]

theorem canonicalItems_eq_map (items : List Tree) : canonicalItems items = items.map canonical := by
  induction items with
  | nil => rfl
  | cons t items ih => rw [canonicalItems, ih, List.map_cons]

/-- **One step** leads to the same in the tree that is meant. -/
theorem child?_canonical (step : Step) (t : Tree) :
    t.canonical.child? step = (t.child? step).map canonical := by
  cases step with
  | member key =>
    cases t with
    | object members =>
      have hascending : Ascending (canonicalMembers [] members) :=
        (canonical_canonicalMembers [] members List.Pairwise.nil trivial).1
      rw [canonical]
      show (canonicalMembers [] members).reverse.lookup key = _
      have hlast := Table.lookup_reverse ⟨canonicalMembers [] members, hascending⟩
      exact (hlast key).trans (lookup_canonicalMembers.trans (Option.or_none))
    | _ => rfl
  | item index =>
    cases t with
    | array items =>
      rw [canonical, canonicalItems_eq_map]
      exact List.getElem?_map
    | _ => rfl

theorem at?_canonical (path : List Step) (t : Tree) :
    t.canonical.at? path = (t.at? path).map canonical := by
  induction path generalizing t with
  | nil => rfl
  | cons step path ih =>
    rw [at?, at?, child?_canonical]
    rcases t.child? step with - | t'
    · rfl
    · exact ih t'

theorem outline_canonical (t : Tree) : t.canonical.outline = t.outline := by
  cases t with
  | array items => rw [canonical, canonicalItems_eq_map, outline, outline, List.map_map]; rfl
  | _ => rfl

end Json.Tree

/-- **Nothing is lost in a value**: wherever a path leads, it has what the tree has. -/
theorem Json.Value.at?_ofTree (path : List Tree.Step) (t : Tree) :
    ((Value.ofTree t).tree.at? path).map Tree.outline = (t.at? path).map Tree.outline := by
  have hat : (Value.ofTree t).tree.at? path = (t.at? path).map Tree.canonical :=
    Tree.at?_canonical path t
  rw [hat, Option.map_map]
  exact congrArg (Option.map · _) (funext Tree.outline_canonical)

open Tree

/-! ### What definitions need -/

/-- The members have what a language definition needs. -/
structure Language.Fits (members : List (String × Tree)) : Prop where
  name : ∃ s, valuesAt "name" members = [.string s]
  scopeName : ∃ s, valuesAt "scopeName" members = [.string s]
  displayName : ∃ o, OptionalStringIs (valuesAt "displayName" members) o
  aliases : ∃ ss, StringsAre (valuesAt "aliases" members) ss
  embedded : ∃ ss, StringsAre (valuesAt "embeddedLangs" members) ss

/-- The members have what a theme definition needs. -/
structure Theme.Fits (members : List (String × Tree)) : Prop where
  name : ∃ s, valuesAt "name" members = [.string s]
  displayName : ∃ o, OptionalStringIs (valuesAt "displayName" members) o
  kind : ∃ kind, KindIs (valuesAt "type" members) kind

variable {members : List (String × Tree)}

theorem Language.fits_iff : Fits members ↔ ∃ language, Described members language := by
  constructor
  · rintro ⟨⟨name, hname⟩, ⟨scopeName, hscope⟩, ⟨displayName, hdisplay⟩, ⟨aliases, haliases⟩,
      ⟨embedded, hembedded⟩⟩
    exact ⟨{
      name, scopeName, displayName, aliases, embedded,
      body := Value.tableOf (membersWithout fieldKeys members) },
      hname, hscope, hdisplay, haliases, hembedded, bodyIs_iff.2 rfl⟩
  · rintro ⟨language, h⟩
    exact ⟨⟨_, h.name⟩, ⟨_, h.scopeName⟩, ⟨_, h.displayName⟩, ⟨_, h.aliases⟩, ⟨_, h.embedded⟩⟩

theorem Theme.fits_iff : Fits members ↔ ∃ theme, Described members theme := by
  constructor
  · rintro ⟨⟨name, hname⟩, ⟨displayName, hdisplay⟩, ⟨kind, hkind⟩⟩
    exact ⟨{ name, displayName, kind, body := Value.tableOf (membersWithout fieldKeys members) },
      hname, hdisplay, hkind, bodyIs_iff.2 rfl⟩
  · rintro ⟨theme, h⟩
    exact ⟨⟨_, h.name⟩, ⟨_, h.displayName⟩, ⟨_, h.kind⟩⟩

/-! ### Whole texts -/

/-- **The texts that are definitions.** A text that spells an object, with no more brackets open at
once than allowed, is read as a language or as a theme if and only if the members have what it
needs, and then as the one that they describe, in whatever order they come. The values in its body
have at every place what the text has there. -/
theorem definitions_of_spells {cs : List Char} (h : Spells (.item (.object members)) cs)
    (hdepth : (Tree.object members).nesting ≤ 127) :
    (((∃ language, Language.ofText (cs.map .char) = .ok language) ↔ Language.Fits members) ∧
      ∀ language, Language.ofText (cs.map .char) = .ok language ↔
        Language.Described members language) ∧
    (((∃ theme, Theme.ofText (cs.map .char) = .ok theme) ↔ Theme.Fits members) ∧
      ∀ theme, Theme.ofText (cs.map .char) = .ok theme ↔ Theme.Described members theme) ∧
    ∀ (path : List Tree.Step) (t : Tree),
      ((Value.ofTree t).tree.at? path).map Tree.outline = (t.at? path).map Tree.outline := by
  have hread : readDocument (cs.map .char) = .ok (.object members) :=
    readDocument_of_spells h hdepth
  have hlanguage : ∀ language, Language.ofText (cs.map .char) = .ok language ↔
      Language.Described members language := fun _ ↦ Language.ofText_eq_ok_iff hread
  have htheme : ∀ theme, Theme.ofText (cs.map .char) = .ok theme ↔
      Theme.Described members theme := fun _ ↦ Theme.ofText_eq_ok_iff hread
  refine ⟨⟨?_, hlanguage⟩, ⟨?_, htheme⟩, Value.at?_ofTree⟩
  · rw [Language.fits_iff]
    exact exists_congr hlanguage
  · rw [Theme.fits_iff]
    exact exists_congr htheme

/-- Members of which one comes twice, and the later of the two with a key twice. -/
def repeatedMembers : List (String × Tree) :=
  [("x", .array []), ("name", .string "a"), ("scopeName", .string "source.a"),
    ("displayName", .null), ("type", .object [("light", .null)]),
    ("x", .object [("k", .boolean true), ("k", .number (.integer 12 (by decide)))])]

/-- A text that spells these members. -/
def repeatedText : List Char :=
  ("\x7b\"x\":[],\"name\":\"a\",\"scopeName\":\"source.a\",\"displayName\":null," ++
    "\"type\":\x7b\"light\":null\x7d,\"x\":\x7b\"k\":true,\"k\":12\x7d\x7d").toList

theorem spells_repeatedText : Spells (.item (.object repeatedMembers)) repeatedText := by
  have hfirst := spells_member "x" (by decide) (@Spells.emptyArray [] nofun)
  have hname := spells_member "name" (by decide)
    (@Spells.string _ "a" (spellsChars_self (by decide)))
  have hscope := spells_member "scopeName" (by decide)
    (@Spells.string _ "source.a" (spellsChars_self (by decide)))
  have hdisplay := spells_member "displayName" (by decide) .null
  have hlight := spells_member "light" (by decide) .null
  have hkind := spells_member "type" (by decide) (.object (.lastMember hlight))
  have htrue := spells_member "k" (by decide) .isTrue
  have hdigits : AreDigits ['1', '2'] := ⟨nofun, by simp⟩
  have hnumeral : IsNumeral ['1', '2'] :=
    @IsNumeral.mk [] ['1', '2'] [] [] (.inl rfl) hdigits nofun (.inl rfl) (.inl rfl)
  have hvalue := numeral?_natural hdigits (by decide) (by decide)
  have hnumber := spells_member "k" (by decide) (.number hnumeral hvalue)
  have hlast := spells_member "x" (by decide) (.object (.moreMembers htrue (.lastMember hnumber)))
  exact spells_item (.object (.moreMembers hfirst (.moreMembers hname (.moreMembers hscope
    (.moreMembers hdisplay (.moreMembers hkind (.lastMember hlast)))))))

/-- The text of the repeated members is that of a language and of a theme. -/
theorem definitions_of_spells_of_repeatedText :
    Spells (.item (.object repeatedMembers)) repeatedText ∧
      (Tree.object repeatedMembers).nesting ≤ 127 ∧
    (∃ language, Language.ofText (repeatedText.map .char) = .ok language ∧
      language.name = "a" ∧ language.displayName = none ∧
      language.body.get? "x" = some (Value.ofTree (.object [("k", .number (.ofNat 12))]))) ∧
    ∃ theme, Theme.ofText (repeatedText.map .char) = .ok theme ∧ theme.kind = .light := by
  have hdepth : (Tree.object repeatedMembers).nesting ≤ 127 := by decide
  obtain ⟨⟨-, hlanguage⟩, ⟨-, htheme⟩, -⟩ := definitions_of_spells spells_repeatedText hdepth
  refine ⟨spells_repeatedText, hdepth, ?_, ?_⟩
  · exact ⟨_, (hlanguage _).2 (Language.ofMembers?_eq_some_iff.1 rfl), rfl, rfl, by decide⟩
  · exact ⟨_, (htheme _).2 (Theme.ofMembers?_eq_some_iff.1 rfl), rfl⟩

end HighlightBundle
