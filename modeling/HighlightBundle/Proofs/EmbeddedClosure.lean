import HighlightBundle.Proofs.FirstOfName
import HighlightBundle.Proofs.TableLookup
import Mathlib.Logic.Relation

/-!
# Packs are closures of embedded languages

A pack is put together from packs that exist already, and nothing in it is looked up again. So what
a pack says is a matter of the whole history of the bundle: an `Addition` is one step of it, and
`Bundle.ofAdditions` is where the steps lead from the bundle without anything.

A key that is given away twice lets old packs and new ones disagree. Where every step writes only
keys that were not there (`EachNew`), they cannot, and a pack is exactly what its language needs:
the definitions that embedded names lead to, each once, and each one behind those that it embeds.
An embedded name leads on if it was a key when the language with it was added (`Follows`); one that
became a key later leads nowhere, and so does a language's own name.

`Closed` is the invariant of one pack, and `Consistent` the one of all packs, which every step keeps
(`Consistent.concat`). What carries the second of them is that a name stands for one definition in
all packs together (`Consistent.oneOfName`), so of several packs with shared parts nothing is lost
when the first of each name is kept.
-/

namespace HighlightBundle

/-- A step in the making of a table of languages. -/
inductive Addition where
  | language (added : Language)
  | newAlias (key newKey : String)

namespace Addition

/-- The keys that the step writes. An alias of nothing writes none. -/
def keys (bundle : Bundle) : Addition → List String
  | language added => added.keys
  | newAlias key newKey => if bundle.containsLanguage key then [newKey] else []

/-- The pack that the step writes, if it writes one. -/
def pack? (bundle : Bundle) : Addition → Option LanguagePack
  | language added => some (bundle.packFor added)
  | newAlias key _ => bundle.languages.get? key

/-- The bundle after the step. -/
def apply (bundle : Bundle) : Addition → Bundle
  | language added => bundle.addLanguage added
  | newAlias key newKey => bundle.addAlias key newKey

end Addition

namespace Bundle

/-- The bundle that the steps lead to. -/
def ofAdditions (steps : List Addition) : Bundle :=
  steps.foldl Addition.apply .empty

/-- No step that follows writes a key that is there already. -/
def EachNew (bundle : Bundle) : List Addition → Prop
  | [] => True
  | step :: rest => (∀ key ∈ step.keys bundle, bundle.containsLanguage key = false) ∧
      (step.apply bundle).EachNew rest

instance decidableEachNew (bundle : Bundle) :
    (steps : List Addition) → Decidable (bundle.EachNew steps)
  | [] => .isTrue trivial
  | step :: rest =>
    haveI := decidableEachNew (step.apply bundle) rest
    inferInstanceAs (Decidable (_ ∧ _))

/-- The embedded name leads on: it was a key when the language was added. -/
def Follows (steps : List Addition) (x : Language) (name : String) : Prop :=
  name ∈ x.embedded ∧ ∃ before after, steps = before ++ .language x :: after ∧
    (ofAdditions before).containsLanguage name = true

/-- The second language is the one that an embedded name of the first leads to. -/
def Embeds (steps : List Addition) (x y : Language) : Prop :=
  ∃ name pack, Follows steps x name ∧ (ofAdditions steps).languages.get? name = some pack ∧
    pack.main? = some y

/-- What stands before a language in its pack: the packs that its embedded names have, the first
definition of each name. -/
def front (bundle : Bundle) (language : Language) : List Language :=
  firstOfName [language.name] (language.embedded.flatMap bundle.definitionsAt)

/-- What a pack is when all keys are new. -/
structure Closed (steps : List Addition) (pack : LanguagePack) : Prop where
  /-- There is one definition of each name. -/
  nodup : (pack.languages.map Language.name).Nodup
  /-- Every definition was added. -/
  added : ∀ x ∈ pack.languages, .language x ∈ steps
  /-- Every definition is what its name stands for. -/
  current : ∀ x ∈ pack.languages, ∃ own,
    (ofAdditions steps).languages.get? x.name = some own ∧ own.main? = some x
  /-- Before a definition stands everything that its embedded names stand for. -/
  ordered : ∀ before x after, pack.languages = before ++ x :: after → ∀ name, Follows steps x name →
    ∃ dependency, (ofAdditions steps).languages.get? name = some dependency ∧
      ∀ y ∈ dependency.languages, y ∈ before
  /-- There is no definition but those that the last one leads to. -/
  reached : ∃ main, pack.main? = some main ∧
    ∀ x ∈ pack.languages, Relation.ReflTransGen (Embeds steps) main x

/-- All packs are closed, and what was added or followed is there. -/
structure Consistent (steps : List Addition) : Prop where
  closed : ∀ {key pack}, (ofAdditions steps).languages.get? key = some pack → Closed steps pack
  contains : ∀ {x}, .language x ∈ steps → (ofAdditions steps).containsLanguage x.name = true
  follows : ∀ {x name}, Follows steps x name → (ofAdditions steps).containsLanguage name = true

variable {steps : List Addition} {step : Addition} {bundle : Bundle} {x y language : Language}
  {pack : LanguagePack} {key name newKey : String}

theorem ofAdditions_concat (steps : List Addition) (step : Addition) :
    ofAdditions (steps ++ [step]) = step.apply (ofAdditions steps) :=
  List.foldl_append

theorem containsLanguage_iff :
    bundle.containsLanguage key = true ↔ ∃ pack, bundle.languages.get? key = some pack :=
  Table.contains_iff_exists

/-- The definitions under a key are those of its pack. -/
theorem mem_definitionsAt : x ∈ bundle.definitionsAt key ↔
    ∃ pack, bundle.languages.get? key = some pack ∧ x ∈ pack.languages := by
  rw [definitionsAt]
  cases bundle.languages.get? key <;> simp

/-- **What a step does to the table**: its pack is under its keys, and all else is as it was. -/
theorem get?_apply : (step.apply bundle).languages.get? key =
    if key ∈ step.keys bundle then step.pack? bundle else bundle.languages.get? key := by
  cases step with
  | language added => exact Table.get?_insertAll_map_const added.keys
  | newAlias other newKey =>
    show (bundle.addAlias other newKey).languages.get? key = _
    rw [Addition.keys, Addition.pack?, addAlias, containsLanguage, Table.contains]
    rcases bundle.languages.get? other with - | pack
    · rfl
    · simp [Table.get?_insert]

/-! ### Steps that write new keys -/

/-- What a key stands for stays when all keys that are written are new. -/
theorem get?_apply_of_new
    (hnew : ∀ key ∈ step.keys bundle, bundle.containsLanguage key = false)
    (hget : bundle.languages.get? key = some pack) :
    (step.apply bundle).languages.get? key = some pack := by
  have hkey : key ∉ step.keys bundle := fun hmem ↦ by
    have hcontains := containsLanguage_iff.2 ⟨pack, hget⟩
    rw [hnew key hmem] at hcontains
    exact absurd hcontains nofun
  rw [get?_apply, if_neg hkey, hget]

theorem containsLanguage_apply_of_new
    (hnew : ∀ key ∈ step.keys bundle, bundle.containsLanguage key = false)
    (hcontains : bundle.containsLanguage key = true) :
    (step.apply bundle).containsLanguage key = true := by
  obtain ⟨pack, hget⟩ := containsLanguage_iff.1 hcontains
  exact containsLanguage_iff.2 ⟨pack, get?_apply_of_new hnew hget⟩

/-- A later step does not change what was a key when a language was added. -/
theorem Follows.concat (h : Follows steps x name) (step : Addition) :
    Follows (steps ++ [step]) x name := by
  obtain ⟨hname, before, after, rfl, hcontains⟩ := h
  exact ⟨hname, before, after ++ [step], List.append_assoc .., hcontains⟩

/-- A name is followed from the last step or from one before. -/
theorem follows_concat (h : Follows (steps ++ [step]) x name) : Follows steps x name ∨
    step = .language x ∧ name ∈ x.embedded ∧ (ofAdditions steps).containsLanguage name = true := by
  obtain ⟨hname, before, after, hsplit, hcontains⟩ := h
  rcases List.eq_nil_or_concat after with rfl | ⟨front, last, rfl⟩
  · obtain ⟨rfl, hlast⟩ := List.append_inj' hsplit rfl
    exact Or.inr ⟨(List.cons.inj hlast).1, hname, hcontains⟩
  · rw [List.concat_eq_append, ← List.cons_append, ← List.append_assoc] at hsplit
    obtain ⟨rfl, -⟩ := List.append_inj' hsplit rfl
    exact Or.inl ⟨hname, before, front, rfl, hcontains⟩

/-- Where a name led to, it still leads. -/
theorem Embeds.concat
    (hnew : ∀ key ∈ step.keys (ofAdditions steps), (ofAdditions steps).containsLanguage key = false)
    (h : Embeds steps x y) : Embeds (steps ++ [step]) x y := by
  obtain ⟨name, pack, hfollows, hget, hmain⟩ := h
  refine ⟨name, pack, hfollows.concat step, ?_, hmain⟩
  rw [ofAdditions_concat]
  exact get?_apply_of_new hnew hget

/-- A pack stays closed, unless one of its definitions is added anew. -/
theorem Closed.concat (h : Closed steps pack)
    (hnew : ∀ key ∈ step.keys (ofAdditions steps), (ofAdditions steps).containsLanguage key = false)
    (hother : ∀ x ∈ pack.languages, step ≠ .language x) : Closed (steps ++ [step]) pack where
  nodup := h.nodup
  added x hx := List.mem_append_left _ (h.added x hx)
  current x hx := by
    obtain ⟨own, hget, hmain⟩ := h.current x hx
    rw [ofAdditions_concat]
    exact ⟨own, get?_apply_of_new hnew hget, hmain⟩
  ordered before x after hsplit name hfollows := by
    have hx : x ∈ pack.languages := hsplit ▸ List.mem_append_right _ List.mem_cons_self
    rcases follows_concat hfollows with hold | ⟨hstep, -⟩
    · obtain ⟨dependency, hget, hbefore⟩ := h.ordered before x after hsplit name hold
      rw [ofAdditions_concat]
      exact ⟨dependency, get?_apply_of_new hnew hget, hbefore⟩
    · exact absurd hstep (hother x hx)
  reached := by
    obtain ⟨main, hmain, hall⟩ := h.reached
    exact ⟨main, hmain, fun x hx ↦
      Relation.ReflTransGen.mono (fun _ _ hembeds ↦ hembeds.concat hnew) _ _ (hall x hx)⟩

/-! ### What consistency gives -/

namespace Consistent

/-- The definitions of a pack are under their names. -/
theorem contains_name (h : Consistent steps)
    (hget : (ofAdditions steps).languages.get? key = some pack) (hx : x ∈ pack.languages) :
    (ofAdditions steps).containsLanguage x.name = true := by
  obtain ⟨own, hown, -⟩ := (h.closed hget).current x hx
  exact containsLanguage_iff.2 ⟨own, hown⟩

/-- **A name stands for one definition** in all packs together. -/
theorem oneOfName (h : Consistent steps) (names : List String) :
    OneOfName (names.flatMap (ofAdditions steps).definitionsAt) := by
  intro x hx y hy hname
  obtain ⟨key, -, hx⟩ := List.mem_flatMap.1 hx
  obtain ⟨key', -, hy⟩ := List.mem_flatMap.1 hy
  obtain ⟨pack, hget, hx⟩ := mem_definitionsAt.1 hx
  obtain ⟨pack', hget', hy⟩ := mem_definitionsAt.1 hy
  obtain ⟨own, hown, hmain⟩ := (h.closed hget).current x hx
  obtain ⟨own', hown', hmain'⟩ := (h.closed hget').current y hy
  rw [hname, hown'] at hown
  obtain rfl := Option.some.inj hown
  exact Option.some.inj (hmain.symm.trans hmain')

end Consistent

/-- What stands before a definition in the packs of several keys holds what stands before it in one
of these packs. -/
theorem exists_split_definitionsAt {names : List String} {front back : List Language}
    (h : names.flatMap bundle.definitionsAt = front ++ x :: back) :
    ∃ name ∈ names, ∃ pack before after, bundle.languages.get? name = some pack ∧
      pack.languages = before ++ x :: after ∧ ∀ y ∈ before, y ∈ front := by
  induction names generalizing front with
  | nil => exact absurd h.symm (List.append_ne_nil_of_right_ne_nil front (List.cons_ne_nil x back))
  | cons name rest ih =>
    rw [List.flatMap_cons] at h
    rcases List.append_eq_append_iff.1 h with ⟨more, hfront, hrest⟩ | ⟨more, hname, hrest⟩
    · obtain ⟨name', hname', pack, before, after, hget, hsplit, hbefore⟩ := ih hrest
      refine ⟨name', List.mem_cons_of_mem name hname', pack, before, after, hget, hsplit, ?_⟩
      exact fun y hy ↦ hfront ▸ List.mem_append_right _ (hbefore y hy)
    · rcases more with - | ⟨z, more⟩
      · have hnothing : rest.flatMap bundle.definitionsAt = [] ++ x :: back := hrest.symm
        obtain ⟨name', hname', pack, before, after, hget, hsplit, hbefore⟩ := ih hnothing
        refine ⟨name', List.mem_cons_of_mem name hname', pack, before, after, hget, hsplit, ?_⟩
        exact fun y hy ↦ absurd (hbefore y hy) List.not_mem_nil
      · obtain ⟨rfl, -⟩ := List.cons.inj hrest
        have hx : x ∈ bundle.definitionsAt name :=
          hname ▸ List.mem_append_right _ List.mem_cons_self
        obtain ⟨pack, hget, -⟩ := mem_definitionsAt.1 hx
        rw [definitionsAt, hget] at hname
        exact ⟨name, List.mem_cons_self, pack, front, more, hget, hname, fun y hy ↦ hy⟩

/-! ### The pack of a language that is added -/

namespace Consistent

section Pack

variable (h : Consistent steps)
  (hnew : ∀ key ∈ language.keys, (ofAdditions steps).containsLanguage key = false)
include h hnew

/-- No pack has a definition with the name of the new language. -/
theorem name_ne (hget : (ofAdditions steps).languages.get? key = some pack)
    (hx : x ∈ pack.languages) : x.name ≠ language.name := fun heq ↦ by
  have hcontains := h.contains_name hget hx
  rw [heq, hnew language.name (List.mem_append_right _ List.mem_cons_self)] at hcontains
  exact absurd hcontains nofun

/-- Before the language itself stands all that its embedded names stand for. -/
theorem mem_front_iff : x ∈ (ofAdditions steps).front language ↔
    ∃ name ∈ language.embedded, ∃ pack, (ofAdditions steps).languages.get? name = some pack ∧
      x ∈ pack.languages := by
  rw [front, mem_firstOfName_iff (h.oneOfName language.embedded), List.mem_flatMap]
  constructor
  · rintro ⟨⟨name, hname, hx⟩, -⟩
    exact ⟨name, hname, mem_definitionsAt.1 hx⟩
  · rintro ⟨name, hname, pack, hget, hx⟩
    refine ⟨⟨name, hname, mem_definitionsAt.2 ⟨pack, hget, hx⟩⟩, fun hmem ↦ ?_⟩
    exact h.name_ne hnew hget hx (List.mem_singleton.1 hmem)

/-- And everything there has what it embeds before it, as it has in the pack that it comes from. -/
theorem ordered_front {before after : List Language}
    (hsplit : (ofAdditions steps).front language = before ++ x :: after)
    (hfollows : Follows steps x name) : ∃ dependency,
      (ofAdditions steps).languages.get? name = some dependency ∧
        ∀ y ∈ dependency.languages, y ∈ before := by
  obtain ⟨first, back, hlist, rfl⟩ := exists_split_firstOfName hsplit
  obtain ⟨key, -, pack, before, after, hget, hown, hsubset⟩ := exists_split_definitionsAt hlist
  obtain ⟨dependency, hdependency, hbefore⟩ :=
    (h.closed hget).ordered before x after hown name hfollows
  refine ⟨dependency, hdependency, fun y hy ↦ ?_⟩
  have hone : OneOfName first := fun a ha b hb ↦
    h.oneOfName language.embedded a (hlist ▸ List.mem_append_left _ ha) b
      (hlist ▸ List.mem_append_left _ hb)
  refine (mem_firstOfName_iff hone).2 ⟨hsubset y (hbefore y hy), fun hname ↦ ?_⟩
  exact h.name_ne hnew hdependency hy (List.mem_singleton.1 hname)

/-- **The pack of a language whose keys are new** is closed. -/
theorem closed_packFor :
    Closed (steps ++ [.language language]) ((ofAdditions steps).packFor language) := by
  have hstep : ∀ key ∈ (Addition.language language).keys (ofAdditions steps),
      (ofAdditions steps).containsLanguage key = false := hnew
  have hkept : ∀ {key pack}, (ofAdditions steps).languages.get? key = some pack →
      (ofAdditions (steps ++ [.language language])).languages.get? key = some pack := fun hget ↦ by
    rw [ofAdditions_concat]
    exact get?_apply_of_new hstep hget
  have hself : (ofAdditions (steps ++ [.language language])).languages.get? language.name =
      some ((ofAdditions steps).packFor language) := by
    rw [ofAdditions_concat, get?_apply]
    exact if_pos (List.mem_append_right _ List.mem_cons_self)
  have hmain : ((ofAdditions steps).packFor language).main? = some language :=
    List.getLast?_concat
  -- a definition of the pack comes from a pack that is there, or it is the language itself
  have hcases : ∀ {x}, x ∈ ((ofAdditions steps).packFor language).languages →
      (∃ name ∈ language.embedded, ∃ pack, (ofAdditions steps).languages.get? name = some pack ∧
        x ∈ pack.languages) ∨ x = language := fun hx ↦
    (List.mem_append.1 hx).imp (h.mem_front_iff hnew).1 List.mem_singleton.1
  constructor
  case nodup =>
    show (((ofAdditions steps).front language ++ [language]).map Language.name).Nodup
    rw [List.map_append, List.nodup_append]
    refine ⟨nodup_firstOfName _ _, List.pairwise_singleton _ _, ?_⟩
    rintro name hname other hother rfl
    obtain ⟨x, hx, rfl⟩ := List.mem_map.1 hname
    obtain ⟨key, -, pack, hget, hx⟩ := (h.mem_front_iff hnew).1 hx
    exact h.name_ne hnew hget hx (List.mem_singleton.1 hother)
  case added =>
    intro x hx
    rcases hcases hx with ⟨key, -, pack, hget, hx⟩ | rfl
    · exact List.mem_append_left _ ((h.closed hget).added x hx)
    · exact List.mem_append_right _ List.mem_cons_self
  case current =>
    intro x hx
    rcases hcases hx with ⟨key, -, pack, hget, hx⟩ | rfl
    · obtain ⟨own, hown, hlast⟩ := (h.closed hget).current x hx
      exact ⟨own, hkept hown, hlast⟩
    · exact ⟨_, hself, hmain⟩
  case ordered =>
    intro before x after hsplit name hfollows
    rcases List.eq_nil_or_concat after with rfl | ⟨rest, last, rfl⟩
    · obtain ⟨rfl, hlast⟩ := List.append_inj' hsplit rfl
      obtain rfl := (List.cons.inj hlast).1
      rcases follows_concat hfollows with ⟨-, before, after, rfl, -⟩ | ⟨-, hname, hcontains⟩
      · have hadded := h.contains (List.mem_append_right before List.mem_cons_self)
        rw [hnew _ (List.mem_append_right _ List.mem_cons_self)] at hadded
        exact absurd hadded nofun
      · obtain ⟨pack, hget⟩ := containsLanguage_iff.1 hcontains
        exact ⟨pack, hkept hget, fun y hy ↦ (h.mem_front_iff hnew).2 ⟨name, hname, pack, hget, hy⟩⟩
    · rw [List.concat_eq_append, ← List.cons_append, ← List.append_assoc] at hsplit
      have hfront : (ofAdditions steps).front language = before ++ x :: rest :=
        (List.append_inj' hsplit rfl).1
      rcases follows_concat hfollows with hold | ⟨hstep, -⟩
      · obtain ⟨dependency, hget, hbefore⟩ := h.ordered_front hnew hfront hold
        exact ⟨dependency, hkept hget, hbefore⟩
      · have hx : x ∈ (ofAdditions steps).front language :=
          hfront ▸ List.mem_append_right _ List.mem_cons_self
        obtain ⟨key, -, pack, hget, hx⟩ := (h.mem_front_iff hnew).1 hx
        exact absurd (Addition.language.inj hstep ▸ rfl) (h.name_ne hnew hget hx)
  case reached =>
    refine ⟨language, hmain, fun x hx ↦ ?_⟩
    rcases hcases hx with ⟨name, hname, pack, hget, hx⟩ | rfl
    · obtain ⟨main, hlast, hall⟩ := (h.closed hget).reached
      have hfollows : Follows (steps ++ [.language language]) language name :=
        ⟨hname, steps, [], rfl, containsLanguage_iff.2 ⟨pack, hget⟩⟩
      have hfirst : Embeds (steps ++ [.language language]) language main :=
        ⟨name, pack, hfollows, hkept hget, hlast⟩
      exact .head hfirst (Relation.ReflTransGen.mono
        (fun _ _ hembeds ↦ hembeds.concat hstep) _ _ (hall x hx))
    · exact .refl

end Pack

/-! ### Any number of steps -/

/-- Before anything is added there is nothing to be consistent with. -/
theorem nil : Consistent [] where
  closed hget := absurd hget nofun
  contains hx := absurd hx List.not_mem_nil
  follows := by
    rintro x name ⟨-, before, after, hsplit, -⟩
    exact absurd hsplit.symm (List.append_ne_nil_of_right_ne_nil _ (List.cons_ne_nil _ _))

/-- **A step that writes new keys keeps the packs consistent.** -/
theorem concat (h : Consistent steps)
    (hnew : ∀ key ∈ step.keys (ofAdditions steps),
      (ofAdditions steps).containsLanguage key = false) : Consistent (steps ++ [step]) where
  closed {key pack} hget := by
    have hold : ∀ {key}, (ofAdditions steps).languages.get? key = some pack →
        Closed (steps ++ [step]) pack := fun hold ↦ by
      refine (h.closed hold).concat hnew fun x hx hstep ↦ ?_
      subst hstep
      exact h.name_ne hnew hold hx rfl
    rw [ofAdditions_concat, get?_apply] at hget
    split at hget
    · cases step with
      | newAlias other newKey => exact hold hget
      | language language =>
        obtain rfl := Option.some.inj hget
        exact h.closed_packFor hnew
    · exact hold hget
  contains {x} hx := by
    rw [ofAdditions_concat]
    rcases List.mem_append.1 hx with hx | hx
    · exact containsLanguage_apply_of_new hnew (h.contains hx)
    · obtain rfl := List.mem_singleton.1 hx
      refine containsLanguage_iff.2 ⟨_, get?_apply.trans (if_pos ?_)⟩
      exact List.mem_append_right _ List.mem_cons_self
  follows hfollows := by
    rw [ofAdditions_concat]
    refine containsLanguage_apply_of_new hnew ?_
    exact (follows_concat hfollows).elim h.follows fun hlast ↦ hlast.2.2

/-- **So any number of them does.** -/
theorem append (h : Consistent steps) {more : List Addition}
    (hnew : (ofAdditions steps).EachNew more) : Consistent (steps ++ more) := by
  induction more generalizing steps with
  | nil => rwa [List.append_nil]
  | cons step more ih =>
    have hrest := ih (h.concat hnew.1) (ofAdditions_concat steps step ▸ hnew.2)
    rwa [List.append_assoc] at hrest

end Consistent

/-- **A pack is the closure of its language.** Take any sequence of steps from the bundle without
anything, each of which writes only new keys, and the pack under any key:

* it is `Closed`: one definition of each name, the one that its name stands for, and before it
  everything that its embedded names stand for;
* it holds exactly the definitions that embedded names lead to from its last one. -/
theorem pack_is_closure (hnew : empty.EachNew steps)
    (hget : (ofAdditions steps).languages.get? key = some pack) :
    Closed steps pack ∧ ∃ main, pack.main? = some main ∧
      ∀ x, x ∈ pack.languages ↔ Relation.ReflTransGen (Embeds steps) main x := by
  have hclosed : Closed steps pack := (Consistent.nil.append hnew).closed hget
  obtain ⟨main, hmain, hall⟩ := hclosed.reached
  refine ⟨hclosed, main, hmain, fun x ↦ ⟨hall x, fun hreach ↦ ?_⟩⟩
  induction hreach with
  | refl => exact List.mem_of_getLast? hmain
  | tail _ hembeds ih =>
    obtain ⟨name, dependency, hfollows, hdependency, hlast⟩ := hembeds
    obtain ⟨before, after, hsplit⟩ := List.append_of_mem ih
    obtain ⟨found, hfound, hbefore⟩ := hclosed.ordered before _ after hsplit name hfollows
    obtain rfl := Option.some.inj (hdependency.symm.trans hfound)
    rw [hsplit]
    exact List.mem_append_left _ (hbefore _ (List.mem_of_getLast? hlast))

/-- A diamond: both languages that a page embeds embed the same one, one of them by an alias. The
page also names itself and a language that comes later. -/
theorem pack_is_closure_of_diamond :
    ∃ steps, empty.EachNew steps ∧ ∃ pack, (ofAdditions steps).languages.get? "page" = some pack ∧
      pack.languages.map Language.name = ["color", "css", "svg", "page"] ∧ Closed steps pack := by
  let color : Language := ⟨"color", "source.color", none, ["rgb"], [], .empty⟩
  let css : Language := ⟨"css", "source.css", none, [], ["hue"], .empty⟩
  let svg : Language := ⟨"svg", "text.svg", none, [], ["color"], .empty⟩
  let page : Language := ⟨"page", "text.page", none, [], ["css", "svg", "page", "late"], .empty⟩
  let late : Language := ⟨"late", "source.late", none, [], [], .empty⟩
  let steps : List Addition := [.language color, .newAlias "rgb" "hue", .newAlias "none" "hue",
    .language css, .language svg, .language page, .language late]
  have hnew : empty.EachNew steps := by decide +kernel
  have hget : (ofAdditions steps).languages.get? "page" = some ⟨[color, css, svg, page]⟩ := by
    decide +kernel
  exact ⟨steps, hnew, _, hget, rfl, (pack_is_closure hnew hget).1⟩

end Bundle

end HighlightBundle
