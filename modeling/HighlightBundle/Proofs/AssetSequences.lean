import HighlightBundle.Proofs.MissingReferences

/-!
# The sequence of assets that an engine was given

An engine is given assets when it is created and again with every load, and each time a table is
added to. So what its tables hold should only depend on what was given, one definition after the
other, and not on how it was cut into calls. The reference for this is a search from the end:
`lastWithKey` and `lastNamed` look through all that was given for the last definition with a key
and for the last theme of a name, and `Engine.Holds` says that the tables are what they find.

There are two engines in a scene. One belongs to a highlighter that a factory has made, and is
loaded into by whoever has it; the other is in the slot of the shared highlighter, and both the
calls of the shared highlighter and loads into what it has given out go there. A `Move` is any of
these, on either side, and creations of other highlighters may come in between. What a move gives
to the engine of a side is what its references stand for, if all of them are in the bundle
(`Move.given?`), and this is all that has to be known of it: `engine?_apply` says that a move is a
load of what it gives, whether the move succeeds or not, and nothing for the engine of the other
side.
-/

namespace HighlightBundle

/-! ### The last definition with a key -/

/-- The last definition with this name or this alias. -/
def lastWithKey (key : String) (definitions : List Language) : Option Language :=
  definitions.reverse.find? fun language ↦ decide (key = language.name ∨ key ∈ language.aliases)

/-- The last theme of this name. A theme without a name does not count. -/
def lastNamed (name : String) (themes : List Theme) : Option Theme :=
  themes.reverse.find? fun theme ↦ decide (theme.name = name ∧ theme.name ≠ "")

theorem lastWithKey_append (key : String) (first second : List Language) :
    lastWithKey key (first ++ second) = (lastWithKey key second).or (lastWithKey key first) := by
  rw [lastWithKey, List.reverse_append, List.find?_append]
  rfl

theorem lastNamed_append (name : String) (first second : List Theme) :
    lastNamed name (first ++ second) = (lastNamed name second).or (lastNamed name first) := by
  rw [lastNamed, List.reverse_append, List.find?_append]
  rfl

/-- What is found at the end once is found there again. -/
theorem or_or_self {α : Type} (x y : Option α) : x.or (x.or y) = x.or y := by
  cases x <;> rfl

namespace Assets

/-- All definitions of languages, one pack after the other. -/
def definitions (assets : Assets) : List Language :=
  assets.packs.flatMap LanguagePack.languages

end Assets

namespace Engine

variable {engine other : Engine} {given : List Assets} {assets : Assets}

/-- The tables hold the last definitions and the last themes of all that was given. -/
structure Holds (engine : Engine) (given : List Assets) : Prop where
  languages : ∀ key, engine.languages.get? key = lastWithKey key (given.flatMap Assets.definitions)
  themes : ∀ name, engine.themes.get? name = lastNamed name (given.flatMap Assets.themes)

/-- Everything loaded is the same. -/
structure SameTables (engine other : Engine) : Prop where
  languages : engine.languages = other.languages
  themes : engine.themes = other.themes

/-! ### Registering at the end of the sequence -/

/-- The entries of packs are those of their definitions, in order. -/
theorem languageEntries_eq (packs : List LanguagePack) : languageEntries packs =
    (packs.flatMap LanguagePack.languages).flatMap fun language ↦
      language.keys.map fun key ↦ (key, language) :=
  List.flatMap_assoc.symm

/-- Of the entries of a sequence of definitions the last one with the key is found. -/
theorem get?_insertAll_definitions (table : Table Language) (definitions : List Language)
    (key : String) :
    (table.insertAll (definitions.flatMap fun language ↦
      language.keys.map fun key ↦ (key, language))).get? key =
        (lastWithKey key definitions).or (table.get? key) := by
  induction definitions generalizing table with
  | nil => rfl
  | cons language rest ih =>
    have hone : lastWithKey key [language] =
        if key ∈ language.keys then some language else none := by
      rw [lastWithKey, List.reverse_singleton, List.find?_singleton]
      simp only [decide_eq_true_eq, Language.mem_keys_iff]
    rw [List.flatMap_cons, Table.insertAll_append, ih, Table.get?_insertAll_map_const,
      ← List.singleton_append, lastWithKey_append, Option.or_assoc, hone]
    split <;> rfl

/-- Of the entries of a sequence of themes the last one with the name is found. -/
theorem get?_insertAll_themeEntries (table : Table Theme) (themes : List Theme) (name : String) :
    (table.insertAll (themeEntries themes)).get? name =
      (lastNamed name themes).or (table.get? name) := by
  induction themes generalizing table with
  | nil => rfl
  | cons theme rest ih =>
    have hone : lastNamed name [theme] =
        if theme.name = name ∧ theme.name ≠ "" then some theme else none := by
      rw [lastNamed, List.reverse_singleton, List.find?_singleton]
      simp only [decide_eq_true_eq]
    rw [← List.singleton_append, lastNamed_append, Option.or_assoc, hone]
    by_cases hname : theme.name = ""
    · have hentries : themeEntries ([theme] ++ rest) = themeEntries rest := by
        simp [themeEntries, hname]
      rw [hentries, ih, if_neg fun h ↦ h.2 hname]
      rfl
    · have hentries : themeEntries ([theme] ++ rest) =
          (theme.name, theme) :: themeEntries rest := by
        simp [themeEntries, hname]
      rw [hentries, Table.insertAll_cons, ih, Table.get?_insert]
      by_cases heq : name = theme.name
      · rw [if_pos heq, if_pos ⟨heq.symm, hname⟩]
        rfl
      · rw [if_neg heq, if_neg fun h ↦ heq h.1.symm]
        rfl

/-- A load registers its assets, also when a batch is left out because it is empty. -/
theorem load_languages (engine : Engine) (assets : Assets) : (engine.load assets).2.languages =
    engine.languages.insertAll (languageEntries assets.packs) := by
  obtain ⟨themes, packs⟩ := assets
  cases themes <;> cases packs <;> rfl

theorem load_themes (engine : Engine) (assets : Assets) : (engine.load assets).2.themes =
    engine.themes.insertAll (themeEntries assets.themes) := by
  obtain ⟨themes, packs⟩ := assets
  cases themes <;> cases packs <;> rfl

/-- After a load the last definition with a key counts, and without one what was there. -/
theorem get?_load_languages (engine : Engine) (assets : Assets) (key : String) :
    (engine.load assets).2.languages.get? key =
      (lastWithKey key assets.definitions).or (engine.languages.get? key) := by
  rw [load_languages, languageEntries_eq, get?_insertAll_definitions]
  rfl

theorem get?_load_themes (engine : Engine) (assets : Assets) (name : String) :
    (engine.load assets).2.themes.get? name =
      (lastNamed name assets.themes).or (engine.themes.get? name) := by
  rw [load_themes, get?_insertAll_themeEntries]

/-- A new engine holds what it was created with. -/
theorem stocked_holds (serial : Nat) (className : Option String) (assets : Assets) :
    (stocked serial className assets).Holds [assets] where
  languages key := by
    show (Table.empty.insertAll (languageEntries assets.packs)).get? key = _
    rw [languageEntries_eq, get?_insertAll_definitions, List.flatMap_singleton]
    exact Option.or_none
  themes name := by
    show (Table.empty.insertAll (themeEntries assets.themes)).get? name = _
    rw [get?_insertAll_themeEntries, List.flatMap_singleton]
    exact Option.or_none

/-- **A load adds its assets to the end of the sequence**, whether it succeeds or not. -/
theorem Holds.load (h : engine.Holds given) (assets : Assets) :
    (engine.load assets).2.Holds (given ++ [assets]) where
  languages key := by
    rw [get?_load_languages, h.languages, List.flatMap_append, lastWithKey_append,
      List.flatMap_singleton]
  themes name := by
    rw [get?_load_themes, h.themes, List.flatMap_append, lastNamed_append, List.flatMap_singleton]

/-- Where the same is found from the end, the tables are the same. -/
theorem Holds.sameTables {given' : List Assets} (h : engine.Holds given) (h' : other.Holds given')
    (hlanguages : ∀ key, lastWithKey key (given.flatMap Assets.definitions) =
      lastWithKey key (given'.flatMap Assets.definitions))
    (hthemes : ∀ name, lastNamed name (given.flatMap Assets.themes) =
      lastNamed name (given'.flatMap Assets.themes)) : engine.SameTables other where
  languages := Table.eq_of_get?_eq fun key ↦ by rw [h.languages, h'.languages, hlanguages]
  themes := Table.eq_of_get?_eq fun name ↦ by rw [h.themes, h'.themes, hthemes]

/-- The engine after it has been given assets, or nothing. -/
def fed (engine : Engine) : Option Assets → Engine
  | none => engine
  | some assets => (engine.load assets).2

theorem Holds.fed (h : engine.Holds given) :
    ∀ assets? : Option Assets, (engine.fed assets?).Holds (given ++ assets?.toList)
  | none => by
    rw [Option.toList_none, List.append_nil]
    exact h
  | some assets => h.load assets

end Engine

/-! ### Moves in a scene -/

/-- The two highlighters of a scene: the one that a factory has made, and the shared one. -/
inductive Side where
  | own
  | shared

/-- What can be done in a scene. -/
inductive Move where
  /-- One of the eight operations; loads go into the highlighter that the factory has made. -/
  | operation (operation : Operation)
  /-- A load of themes, languages or both into the highlighter that the shared one gives out. -/
  | loadShared (request : Request)

/-- Both requests in one. -/
def Request.join (first second : Request) : Request :=
  ⟨first.themes ++ second.themes, first.languages ++ second.languages⟩

/-- The references that are looked up for the engine of the side, if the move is about it. -/
def Move.needs? : Side → Move → Option Request
  | .own, operation (.loadLanguages languages) => some (Operation.loadLanguages languages).needs
  | .own, operation (.loadThemes themes) => some (Operation.loadThemes themes).needs
  | .own, operation (.load request) => some (Operation.load request).needs
  | .shared, operation (.call action) => some (Operation.call action).needs
  | .shared, loadShared request => some request.withoutBlank
  | _, _ => none

namespace Scene

/-- The bundle of the highlighter on a side. -/
def bundle (scene : Scene) : Side → Bundle
  | .own => scene.highlighter.bundle
  | .shared => scene.shared.bundle

/-- The engine of the highlighter on a side, if it is there. -/
def engine? (scene : Scene) : Side → Option Engine
  | .own => some scene.highlighter.engine
  | .shared => scene.shared.slot

/-- The scene after a move. Nothing can be loaded into a shared highlighter that is not there. -/
def apply (scene : Scene) : Move → Scene
  | .operation operation => (operation.run scene).2
  | .loadShared request =>
    match scene.shared.slot with
    | none => scene
    | some engine =>
      let highlighter := (Highlighter.load ⟨scene.shared.bundle, engine⟩ request).2
      { scene with shared := scene.shared.put highlighter.engine }

/-- The scene after some moves. -/
def after (scene : Scene) (moves : List Move) : Scene :=
  moves.foldl apply scene

/-- The engine of the side has just been created, and what was needed for it: a factory has made the
highlighter, or a call has found the shared highlighter without an engine and left it with one. -/
inductive Created (scene : Scene) : Side → Request → Prop
  | own {bundle : Bundle} {loader rest : Loader} {request : Request} {className : Option String}
      (h : Highlighter.create bundle loader request className = (.ok scene.highlighter, rest)) :
      Created scene .own request.withoutBlank
  | shared {earlier : Shared} {loader rest : Loader} {action : Action}
      {answer : Except Failure Answer} (hslot : earlier.slot = none)
      (h : earlier.run loader action = (answer, scene.shared, rest))
      (hthere : scene.shared.isInitialized = true) : Created scene .shared action.needs

/-- The requests that concern the engine of a side, the one that it was created for first. -/
def requests (side : Side) (needs : Request) (moves : List Move) : List Request :=
  needs :: moves.filterMap (Move.needs? side)

end Scene

/-- What the requests stand for, those left out that have a reference that is not in the bundle. -/
def Bundle.lookUpAll (bundle : Bundle) (requests : List Request) : List Assets :=
  requests.filterMap fun needs ↦ (bundle.lookUp needs).toOption

/-- The same themes and the same definitions, one after the other, however they were cut. -/
structure SameSequence (given given' : List Assets) : Prop where
  themes : given.flatMap Assets.themes = given'.flatMap Assets.themes
  definitions : given.flatMap Assets.definitions = given'.flatMap Assets.definitions

/-- Two ways to ask for the same: two neighbouring requests, both of which resolve, may be one, and
any request may be made again at once. -/
inductive Bundle.Recut (bundle : Bundle) : List Request → List Request → Prop
  | join {front back : List Request} {first second : Request} (hfirst : bundle.HasAll first)
      (hsecond : bundle.HasAll second) :
      Recut bundle (front ++ first :: second :: back) (front ++ first.join second :: back)
  | again {front back : List Request} {needs : Request} :
      Recut bundle (front ++ needs :: back) (front ++ needs :: needs :: back)

/-- The requests that an engine has served, from its creation to some moment. -/
inductive Engine.Served : Bundle → List Request → Engine → Prop
  | mk {scene : Scene} {side : Side} {needs : Request} {moves : List Move} {engine : Engine}
      (h : scene.Created side needs) (hengine : (scene.after moves).engine? side = some engine) :
      Served (scene.bundle side) (Scene.requests side needs moves) engine

/-! ### A move is a load of what it gives -/

/-- A load gives what its references stand for. -/
theorem Highlighter.load_snd (highlighter : Highlighter) (request : Request) :
    (highlighter.load request).2 = ⟨highlighter.bundle,
      highlighter.engine.fed (highlighter.bundle.lookUp request.withoutBlank).toOption⟩ := by
  have hlookUp : highlighter.bundle.resolve request =
    highlighter.bundle.lookUp request.withoutBlank := rfl
  rw [load, hlookUp]
  rcases highlighter.bundle.lookUp request.withoutBlank with failure | assets <;> rfl

/-- A call that finds an engine gives what its references stand for. -/
theorem Shared.run_snd {shared : Shared} {engine : Engine} (hslot : shared.slot = some engine)
    (loader : Loader) (action : Action) : (shared.run loader action).2.1 =
      shared.put (engine.fed (shared.bundle.lookUp action.needs).toOption) := by
  rcases hlookUp : shared.bundle.lookUp action.needs with failure | assets
  · have hsame : shared.put engine = shared := by rw [put, ← hslot]
    rw [run_of_lookUp_eq_error hlookUp]
    exact hsame.symm
  · rw [← Bundle.prepare_bind_resolve] at hlookUp
    obtain ⟨job, hprepare, hresolve⟩ := bind_eq_ok_iff.1 hlookUp
    rw [run_of_some hprepare hslot hresolve]
    rfl

namespace Scene

variable {scene : Scene} {side : Side} {engine : Engine} {needs : Request}

theorem engine?_afterLoad (scene : Scene) (request : Request) :
    (Operation.afterLoad scene (scene.highlighter.load request)).2.bundle .own =
        scene.bundle .own ∧
      (Operation.afterLoad scene (scene.highlighter.load request)).2.engine? .own =
        some (scene.highlighter.engine.fed
          (scene.highlighter.bundle.lookUp request.withoutBlank).toOption) := by
  rw [Operation.afterLoad, Highlighter.load_snd]
  exact ⟨rfl, rfl⟩

/-- **What a move does to the engine of a side**: it gives the engine what the move needs for it. -/
theorem engine?_apply (h : scene.engine? side = some engine) (move : Move) :
    (scene.apply move).bundle side = scene.bundle side ∧
      (scene.apply move).engine? side = some (engine.fed
        ((move.needs? side).bind fun needs ↦ ((scene.bundle side).lookUp needs).toOption)) := by
  cases side with
  | own =>
    obtain rfl := Option.some.inj h
    cases move with
    | loadShared request =>
      rw [apply]
      split <;> exact ⟨rfl, rfl⟩
    | operation operation =>
      cases operation with
      | create request className | call action => exact ⟨rfl, rfl⟩
      | load request => exact scene.engine?_afterLoad request
      | loadLanguages languages => exact scene.engine?_afterLoad ⟨[], languages⟩
      | loadThemes themes => exact scene.engine?_afterLoad ⟨themes, []⟩
  | shared =>
    have hslot : scene.shared.slot = some engine := h
    cases move with
    | loadShared request =>
      rw [apply]
      simp only [hslot]
      rw [Highlighter.load_snd]
      exact ⟨rfl, rfl⟩
    | operation operation =>
      cases operation with
      | create request className | load request | loadLanguages languages | loadThemes themes =>
        exact ⟨rfl, h⟩
      | call action =>
        have hrun : (scene.apply (.operation (.call action))).shared = _ :=
          Shared.run_snd hslot scene.loader action
        rw [bundle, engine?, hrun]
        exact ⟨rfl, rfl⟩

end Scene

/-! ### A creation is the beginning of the sequence -/

/-- A created highlighter has what its references stand for. -/
theorem Highlighter.create_eq_ok {bundle : Bundle} {loader rest : Loader} {request : Request}
    {className : Option String} {highlighter : Highlighter}
    (h : create bundle loader request className = (.ok highlighter, rest)) :
    ∃ assets serial, bundle.lookUp request.withoutBlank = .ok assets ∧
      highlighter = ⟨bundle, .stocked serial className assets⟩ := by
  rcases hresolve : bundle.resolve request with failure | assets
  · rw [create_of_resolve_eq_error hresolve] at h
    cases congrArg Prod.fst h
  · rcases Nat.eq_zero_or_pos loader.failures with hzero | hpos
    · rw [create_of_resolve_eq_ok hresolve (Shared.create_of_eq_zero hzero)] at h
      rcases hthemes : Engine.registration assets.themes with cause | ⟨⟨⟩⟩
      · rw [hthemes] at h
        cases congrArg Prod.fst h
      · rw [hthemes] at h
        exact ⟨assets, _, hresolve, (Except.ok.inj (congrArg Prod.fst h)).symm⟩
    · rw [create_of_resolve_eq_ok hresolve (Engine.build_of_pos hpos)] at h
      cases congrArg Prod.fst h

/-- A call that leaves an engine where there was none has created it with what its references stand
for. -/
theorem Shared.run_creates {earlier later : Shared} {loader rest : Loader} {action : Action}
    {answer : Except Failure Answer} (hslot : earlier.slot = none)
    (h : earlier.run loader action = (answer, later, rest)) (hthere : later.isInitialized = true) :
    ∃ assets serial, earlier.bundle.lookUp action.needs = .ok assets ∧
      later = earlier.put (.stocked serial earlier.className assets) := by
  -- unless the creation succeeds, the slot stays as it is
  have hchanged : later ≠ earlier := by
    rintro rfl
    rw [isInitialized, hslot] at hthere
    exact Bool.false_ne_true hthere
  have hlater : (earlier.run loader action).2.1 = later := congrArg (fun r ↦ r.2.1) h
  rcases hlookUp : earlier.bundle.lookUp action.needs with failure | assets
  · rw [run_of_lookUp_eq_error hlookUp] at hlater
    exact absurd hlater.symm hchanged
  · refine ⟨assets, loader.creations + 1, rfl, ?_⟩
    rw [← Bundle.prepare_bind_resolve] at hlookUp
    obtain ⟨job, hprepare, hresolve⟩ := bind_eq_ok_iff.1 hlookUp
    rw [run_snd_eq_ensure hprepare] at hlater
    rcases Nat.eq_zero_or_pos loader.failures with hzero | hpos
    · rcases hthemes : Engine.registration assets.themes with cause | ⟨⟨⟩⟩
      · rw [ensure_of_unnamed hslot hresolve hzero hthemes] at hlater
        exact absurd hlater.symm hchanged
      · rw [ensure_of_named hslot hresolve hzero hthemes] at hlater
        exact hlater.symm
    · rw [ensure_of_pos hslot hresolve hpos] at hlater
      exact absurd hlater.symm hchanged

namespace Scene

variable {scene : Scene} {side : Side} {engine : Engine} {needs : Request} {given : List Assets}

/-- **An engine that was just created** holds what it was created for. -/
theorem Created.holds (h : scene.Created side needs) :
    ∃ assets engine, (scene.bundle side).lookUp needs = .ok assets ∧
      scene.engine? side = some engine ∧ engine.Holds [assets] := by
  cases h with
  | own h =>
    obtain ⟨assets, serial, hlookUp, hhighlighter⟩ := Highlighter.create_eq_ok h
    rw [bundle, engine?, hhighlighter]
    exact ⟨assets, _, hlookUp, rfl, Engine.stocked_holds serial _ assets⟩
  | shared hslot h hthere =>
    obtain ⟨assets, serial, hlookUp, hshared⟩ := Shared.run_creates hslot h hthere
    rw [bundle, engine?, hshared]
    exact ⟨assets, _, hlookUp, rfl, Engine.stocked_holds serial _ assets⟩

/-! ### A run is a sequence of loads -/

theorem engine?_after {scene : Scene} {engine : Engine} {given : List Assets}
    (h : scene.engine? side = some engine) (hholds : engine.Holds given) (moves : List Move) :
    ∃ later, (scene.after moves).engine? side = some later ∧ later.Holds (given ++
      (scene.bundle side).lookUpAll (moves.filterMap (Move.needs? side))) := by
  induction moves generalizing scene engine given with
  | nil =>
    refine ⟨engine, h, ?_⟩
    show engine.Holds (given ++ [])
    rw [List.append_nil]
    exact hholds
  | cons move moves ih =>
    obtain ⟨hbundle, hengine⟩ := engine?_apply h move
    obtain ⟨later, hlater, hall⟩ := ih hengine (hholds.fed _)
    refine ⟨later, hlater, ?_⟩
    rw [hbundle, List.append_assoc] at hall
    rw [List.filterMap_cons]
    rcases hneeds : move.needs? side with - | needs
    · rw [hneeds] at hall
      exact hall
    · rw [hneeds] at hall
      show later.Holds (given ++ (scene.bundle side).lookUpAll (needs :: _))
      rw [Bundle.lookUpAll, List.filterMap_cons]
      rcases hlookUp : ((scene.bundle side).lookUp needs).toOption with - | assets
      all_goals
        rw [Option.bind_some, hlookUp] at hall
        exact hall

/-- **At every moment** an engine holds what it was created for and given since. -/
theorem Created.holds_after (h : scene.Created side needs) (moves : List Move) :
    ∃ engine, (scene.after moves).engine? side = some engine ∧
      engine.Holds ((scene.bundle side).lookUpAll (requests side needs moves)) := by
  obtain ⟨assets, engine, hlookUp, hengine, hholds⟩ := h.holds
  have hneeds : ((scene.bundle side).lookUp needs).toOption = some assets := by
    rw [hlookUp]
    rfl
  obtain ⟨later, hlater, hall⟩ := engine?_after hengine hholds moves
  refine ⟨later, hlater, ?_⟩
  rw [requests, Bundle.lookUpAll, List.filterMap_cons, hneeds]
  exact hall

end Scene

/-! ### How the sequence may be cut -/

namespace Bundle

variable {bundle : Bundle} {requests requests' : List Request} {first second : Request}

theorem lookUpAll_append (bundle : Bundle) (front back : List Request) :
    bundle.lookUpAll (front ++ back) = bundle.lookUpAll front ++ bundle.lookUpAll back :=
  List.filterMap_append

theorem lookUpAll_cons_of_eq_ok {assets : Assets} (h : bundle.lookUp first = .ok assets)
    (back : List Request) :
    bundle.lookUpAll (first :: back) = assets :: bundle.lookUpAll back := by
  rw [lookUpAll, List.filterMap_cons, h]
  rfl

/-- Two requests in one stand for what both stand for, one after the other. -/
theorem lookUp_join {assets assets' : Assets} (hfirst : bundle.lookUp first = .ok assets)
    (hsecond : bundle.lookUp second = .ok assets') : bundle.lookUp (first.join second) =
      .ok ⟨assets.themes ++ assets'.themes, assets.packs ++ assets'.packs⟩ := by
  obtain ⟨themes, hthemes, hrest⟩ := bind_eq_ok_iff.1 hfirst
  obtain ⟨packs, hpacks, hassets⟩ := bind_eq_ok_iff.1 hrest
  obtain rfl := Except.ok.inj hassets
  obtain ⟨themes', hthemes', hrest'⟩ := bind_eq_ok_iff.1 hsecond
  obtain ⟨packs', hpacks', hassets'⟩ := bind_eq_ok_iff.1 hrest'
  obtain rfl := Except.ok.inj hassets'
  rw [lookUp, Request.join, List.mapM_append, List.mapM_append, hthemes, hthemes', hpacks, hpacks']
  rfl

/-- Merging two requests leaves the sequence as it is. -/
theorem sameSequence_join (hfirst : bundle.HasAll first) (hsecond : bundle.HasAll second)
    (front back : List Request) : SameSequence
      (bundle.lookUpAll (front ++ first :: second :: back))
      (bundle.lookUpAll (front ++ first.join second :: back)) := by
  obtain ⟨assets, hassets⟩ := hasAll_iff.1 hfirst
  obtain ⟨assets', hassets'⟩ := hasAll_iff.1 hsecond
  have hjoin := lookUp_join hassets hassets'
  rw [lookUpAll_append, lookUpAll_append, lookUpAll_cons_of_eq_ok hassets,
    lookUpAll_cons_of_eq_ok hassets', lookUpAll_cons_of_eq_ok hjoin]
  constructor
  · simp only [List.flatMap_append, List.flatMap_cons, List.append_assoc]
  · simp only [List.flatMap_append, List.flatMap_cons, Assets.definitions, List.append_assoc]

end Bundle

namespace Engine

variable {engine other : Engine} {bundle bundle' : Bundle} {requests requests' : List Request}

theorem Served.holds (h : engine.Served bundle requests) :
    engine.Holds (bundle.lookUpAll requests) := by
  obtain ⟨hcreated, hengine⟩ := h
  obtain ⟨later, hlater, hholds⟩ := hcreated.holds_after _
  obtain rfl := Option.some.inj (hlater.symm.trans hengine)
  exact hholds

theorem SameTables.symm (h : engine.SameTables other) : other.SameTables engine :=
  ⟨h.languages.symm, h.themes.symm⟩

theorem Served.sameTables (h : engine.Served bundle requests) (h' : other.Served bundle' requests')
    (hsame : SameSequence (bundle.lookUpAll requests) (bundle'.lookUpAll requests')) :
    engine.SameTables other :=
  h.holds.sameTables h'.holds (fun key ↦ congrArg (lastWithKey key) hsame.definitions)
    fun name ↦ congrArg (lastNamed name) hsame.themes

/-- **Requests may be recut.** -/
theorem Served.sameTables_of_recut (h : engine.Served bundle requests)
    (h' : other.Served bundle requests') (hrecut : bundle.Recut requests requests') :
    engine.SameTables other := by
  cases hrecut with
  | join hfirst hsecond => exact h.sameTables h' (Bundle.sameSequence_join hfirst hsecond _ _)
  | @again front back needs =>
    have hone : needs :: back = [needs] ++ back := rfl
    have htwo : needs :: needs :: back = [needs] ++ ([needs] ++ back) := rfl
    have hholds := h.holds
    have hholds' := h'.holds
    rw [hone, Bundle.lookUpAll_append, Bundle.lookUpAll_append] at hholds
    rw [htwo, Bundle.lookUpAll_append, Bundle.lookUpAll_append, Bundle.lookUpAll_append] at hholds'
    -- what the request gives the second time is found behind itself
    refine hholds.sameTables hholds' (fun key ↦ ?_) fun name ↦ ?_
    · simp only [List.flatMap_append, lastWithKey_append, Option.or_assoc, or_or_self]
    · simp only [List.flatMap_append, lastNamed_append, Option.or_assoc, or_or_self]

end Engine

namespace Scene

/-- **The tables follow the sequence.** An engine that has been created was created for something
that resolves, and whatever is done then, at every moment

* under each key it has the last definition with this name or alias, and under each name the last
  theme of this name, of all that passed resolution, the assets of its creation first;
* so it has the same tables as any engine, created in whatever way, that was given the same
  definitions and the same themes, one after the other;
* and in particular as one for which requests were joined, split or made again. -/
theorem tables_follow_sequence {scene : Scene} {side : Side} {needs : Request}
    (h : scene.Created side needs) (moves : List Move) :
    (∃ assets, (scene.bundle side).lookUp needs = .ok assets) ∧
    ∃ engine, (scene.after moves).engine? side = some engine ∧
      engine.Holds ((scene.bundle side).lookUpAll (requests side needs moves)) ∧
      (∀ {bundle' requests' other}, other.Served bundle' requests' →
        SameSequence ((scene.bundle side).lookUpAll (requests side needs moves))
          (bundle'.lookUpAll requests') → engine.SameTables other) ∧
      ∀ {requests' other}, other.Served (scene.bundle side) requests' →
        (scene.bundle side).Recut (requests side needs moves) requests' ∨
          (scene.bundle side).Recut requests' (requests side needs moves) →
        engine.SameTables other := by
  obtain ⟨assets, -, hlookUp, -, -⟩ := h.holds
  obtain ⟨engine, hengine, hholds⟩ := h.holds_after moves
  have hserved : engine.Served (scene.bundle side) (requests side needs moves) := .mk h hengine
  refine ⟨⟨assets, hlookUp⟩, engine, hengine, hholds, fun h' hsame ↦ hserved.sameTables h' hsame,
    fun h' hrecut ↦ ?_⟩
  rcases hrecut with hrecut | hrecut
  · exact hserved.sameTables_of_recut h' hrecut
  · exact (h'.sameTables_of_recut hserved hrecut).symm

/-- A language whose name and alias are aliases of another one comes in a load that fails. -/
theorem tables_follow_sequence_of_collision :
    ∃ (scene : Scene) (first second : Request) (engine : Engine),
      (scene.shared.run scene.loader (.get second)).1 = .error (.engine .unnamedTheme) ∧
      (scene.after [.operation (.call (.get second)), .loadShared first,
        .operation (.call (.get second))]).engine? .shared = some engine ∧
      ["javascript", "js", "node", "terse"].map engine.languages.get? =
        [some Sample.javascript, some Sample.terse, some Sample.terse, none] ∧
      ["day", ""].map engine.themes.get? = [some Sample.day, none] := by
  let first : Request := ⟨[], [.inline (.single Sample.javascript)]⟩
  let second : Request :=
    ⟨[.inline Sample.nameless, .inline Sample.day], [.inline (.single Sample.terse)]⟩
  let shared : Shared := ((Shared.ofBundle .empty none).run .fresh (.get first)).2.1
  let scene : Scene := ⟨⟨.empty, .blank 1 none⟩, shared, .fresh⟩
  have hrun : (Shared.ofBundle .empty none).run .fresh (.get first) = (_, scene.shared, _) := rfl
  have hcreated : scene.Created .shared (Action.get first).needs := .shared rfl hrun rfl
  obtain ⟨-, engine, hengine, hholds, -⟩ :=
    tables_follow_sequence hcreated [.operation (.call (.get second)), .loadShared first,
      .operation (.call (.get second))]
  refine ⟨scene, first, second, engine, rfl, hengine, ?_, ?_⟩
  · rw [funext hholds.languages]
    decide +kernel
  · rw [funext hholds.themes]
    decide +kernel

end Scene

end HighlightBundle
