import HighlightBundle.Proofs.RequestedAssets
import Mathlib.Data.List.Basic
import Mathlib.Logic.Function.Basic

/-!
# Highlighters made to order

A factory makes highlighters from one bundle and with one loader. The loader is all that its calls
have in common, so what a call returns depends on the calls before it through one number: how many
failures are still due.

* `Factory.Delivered` is the outcome of one call. A failure that is due comes first, whatever is
  asked for. Otherwise the order is `Answered`: a theme without a name is reported, and without one
  the highlighter is `Stocked`, with the keys of what was asked for in its tables and no others.
* `Factory.Fulfilled` is the outcome of a sequence of calls while so many failures are due, by
  induction on the sequence: the failures come at its beginning.

A highlighter that was returned is still in use while others are made. Its engine is therefore kept,
under the number that tells it apart. A new engine is written where its own number says, so nothing
but the choice of the number protects the engines that are there; that numbers to come are free is
part of a `Factory`, and making a highlighter has to show it again (`Highlighter.create_serial`).
-/

namespace HighlightBundle

/-- What a factory is asked to make: the assets, and the class of the markup. -/
structure Order where
  request : Request
  className : Option String

/-! ### Numbers of engines -/

namespace Highlighter

variable {bundle : Bundle} {loader rest : Loader} {request : Request} {className : Option String}
  {answer : Except Failure Highlighter} {highlighter : Highlighter}

/-- Creations are counted, also those that fail, unless a reference stands for nothing. -/
theorem creations_le_create :
    loader.creations ≤ (create bundle loader request className).2.creations := by
  rcases hresolve : bundle.resolve request with failure | assets
  · refine Nat.le_of_eq ?_
    rw [create, hresolve]
  · rcases Nat.eq_zero_or_pos loader.failures with hzero | hpos
    · rw [create_of_resolve_eq_ok hresolve (Shared.create_of_eq_zero hzero)]
      exact Nat.le_succ _
    · rw [create_of_resolve_eq_ok hresolve (Engine.build_of_pos hpos)]
      exact Nat.le_succ _

/-- **A new engine has the number of its own creation.** -/
theorem create_serial (h : (create bundle loader request className).1 = .ok highlighter) :
    highlighter.engine.serial = loader.creations + 1 ∧
      (create bundle loader request className).2.creations = loader.creations + 1 := by
  rcases hresolve : bundle.resolve request with failure | assets
  · rw [create, hresolve] at h
    cases h
  · rcases Nat.eq_zero_or_pos loader.failures with hzero | hpos
    · rw [create_of_resolve_eq_ok hresolve (Shared.create_of_eq_zero hzero)] at h ⊢
      rcases hthemes : Engine.registration assets.themes with failure | ⟨⟨⟩⟩
      · rw [hthemes] at h
        cases h
      · rw [hthemes] at h
        obtain rfl := Except.ok.inj h
        exact ⟨rfl, rfl⟩
    · rw [create_of_resolve_eq_ok hresolve (Engine.build_of_pos hpos)] at h
      cases h

end Highlighter

/-! ### Factories -/

/-- The engines with the one of the answer, if there is one, under its number. -/
def withAnswer (engines : Nat → Option Engine) : Except Failure Highlighter → Nat → Option Engine
  | .ok highlighter => Function.update engines highlighter.engine.serial (some highlighter.engine)
  | .error _ => engines

/-- At a number that was free nothing is lost. -/
theorem withAnswer_eq_some_iff {engines : Nat → Option Engine} {answer : Except Failure Highlighter}
    (hfree : ∀ highlighter, answer = .ok highlighter → engines highlighter.engine.serial = none)
    (serial : Nat) (engine : Engine) : withAnswer engines answer serial = some engine ↔
      engines serial = some engine ∨ ∃ highlighter, answer = .ok highlighter ∧
        highlighter.engine.serial = serial ∧ highlighter.engine = engine := by
  rcases answer with failure | highlighter
  · simp [withAnswer]
  · rw [withAnswer, Function.update_apply]
    split
    · next heq => simp [heq, hfree highlighter rfl]
    · next hne => simp [Ne.symm hne]

/-- A factory with the engines of the highlighters that it has returned, under their numbers. -/
structure Factory where
  bundle : Bundle
  loader : Loader
  engines : Nat → Option Engine
  /-- The numbers of the creations to come are free. -/
  free : ∀ serial, loader.creations < serial → engines serial = none

namespace Factory

/-- What a factory answers to an order, and the loader afterwards. -/
def make (factory : Factory) (order : Order) : Except Failure Highlighter × Loader :=
  Highlighter.create factory.bundle factory.loader order.request order.className

/-- The number of a new engine is free. -/
theorem free_make (factory : Factory) (order : Order) (highlighter : Highlighter)
    (h : (factory.make order).1 = .ok highlighter) :
    factory.engines highlighter.engine.serial = none := by
  refine factory.free _ ?_
  rw [(Highlighter.create_serial h).1]
  exact Nat.lt_succ_self _

/-- Afterwards the numbers of the creations to come are free again. -/
theorem free_withAnswer (factory : Factory) (order : Order) (serial : Nat)
    (hserial : (factory.make order).2.creations < serial) :
    withAnswer factory.engines (factory.make order).1 serial = none := by
  have hle : factory.loader.creations ≤ (factory.make order).2.creations :=
    Highlighter.creations_le_create
  have hfree : factory.engines serial = none := factory.free serial (Nat.lt_of_le_of_lt hle hserial)
  refine Option.eq_none_iff_forall_ne_some.2 fun engine hengine ↦ ?_
  rcases (withAnswer_eq_some_iff (factory.free_make order) serial engine).1 hengine with
    hbefore | ⟨highlighter, hanswer, rfl, -⟩
  · rw [hfree] at hbefore
    cases hbefore
  · obtain ⟨hown, hlast⟩ := Highlighter.create_serial hanswer
    rw [make] at hserial
    omega

/-- Makes a highlighter. -/
def create (factory : Factory) (order : Order) : Except Failure Highlighter × Factory :=
  ((factory.make order).1, {
    bundle := factory.bundle
    loader := (factory.make order).2
    engines := withAnswer factory.engines (factory.make order).1
    free := factory.free_withAnswer order })

/-- Makes the next creations fail, as many as given. -/
def failNext (factory : Factory) (count : Nat) : Factory :=
  { factory with loader := factory.loader.failNext count }

/-- Makes highlighters, one after the other. -/
def createAll (factory : Factory) : List Order → List (Except Failure Highlighter) × Factory
  | [] => ([], factory)
  | order :: rest =>
    let (answer, factory) := factory.create order
    let (answers, factory) := factory.createAll rest
    (answer :: answers, factory)

end Factory

/-! ### What is in a new highlighter -/

/-- A highlighter that was made to order: exactly what is asked for is loaded. -/
structure Highlighter.Stocked (highlighter : Highlighter) (bundle : Bundle) (order : Order) :
    Prop where
  bundle_eq : highlighter.bundle = bundle
  className_eq : highlighter.engine.className = order.className
  themes : ∀ name, name ∈ highlighter.engine.loadedThemes ↔
    ∃ theme ∈ order.request.themesIn bundle, theme.name = name
  languages : ∀ key, highlighter.engine.hasLanguage key = true ↔
    ∃ language ∈ order.request.definitionsIn bundle, key ∈ language.keys
  themeLoads : highlighter.engine.themeLoads = 0
  languageLoads : highlighter.engine.languageLoads = 0

/-- **A new engine has nothing but what is asked for**, and all of it if every theme has a name. -/
theorem Highlighter.stocked {bundle : Bundle} {order : Order} (serial : Nat)
    (hnamed : ∀ theme ∈ order.request.themesIn bundle, theme.name ≠ "") :
    Stocked ⟨bundle, .stocked serial order.className (order.request.assetsIn bundle)⟩ bundle
      order where
  bundle_eq := rfl
  className_eq := rfl
  themes name := by
    rw [Engine.mem_loadedThemes_iff, (Engine.stocked_holds _ _ _).themes, List.flatMap_singleton]
    exact isSome_lastNamed_iff_of_named hnamed
  languages key := by
    rw [Engine.hasLanguage, Table.contains, (Engine.stocked_holds _ _ _).languages,
      List.flatMap_singleton]
    exact isSome_lastWithKey_iff
  themeLoads := rfl
  languageLoads := rfl

namespace Factory

variable {factory later last : Factory} {order : Order} {orders : List Order}
  {answer : Except Failure Highlighter} {answers : List (Except Failure Highlighter)}

/-! ### One call -/

/-- The answer to an order when no failure is due. -/
structure Answered (bundle : Bundle) (order : Order) (answer : Except Failure Highlighter) :
    Prop where
  unnamed : (∃ theme ∈ order.request.themesIn bundle, theme.name = "") →
    answer = .error (.engine .unnamedTheme)
  stocked : (∀ theme ∈ order.request.themesIn bundle, theme.name ≠ "") →
    ∃ highlighter, answer = .ok highlighter ∧ highlighter.Stocked bundle order

/-- The outcome of one call, all of whose references stand for something. -/
structure Delivered (factory : Factory) (order : Order) (answer : Except Failure Highlighter)
    (later : Factory) : Prop where
  bundle_eq : later.bundle = factory.bundle
  creations : later.loader.creations = factory.loader.creations + 1
  /-- A failure that is due is used up. -/
  failures : later.loader.failures = factory.loader.failures - 1
  failed : 0 < factory.loader.failures → answer = .error (.engine .creationFailed)
  answered : factory.loader.failures = 0 → Answered factory.bundle order answer
  /-- A new engine has the number of its creation. -/
  numbered : ∀ highlighter, answer = .ok highlighter →
    highlighter.engine.serial = factory.loader.creations + 1
  /-- The engines that were there are there as they were, beside the new one. -/
  engines : ∀ serial engine, later.engines serial = some engine ↔
    factory.engines serial = some engine ∨ ∃ highlighter, answer = .ok highlighter ∧
      highlighter.engine.serial = serial ∧ highlighter.engine = engine

/-- Without failures that are due, the themes decide. -/
theorem answered_map (bundle : Bundle) (order : Order) (serial : Nat) :
    Answered bundle order
      ((((Engine.registration (order.request.themesIn bundle)).map fun _ ↦
        Engine.stocked serial order.className (order.request.assetsIn bundle)).mapError .engine).map
          fun engine ↦ ⟨bundle, engine⟩) where
  unnamed hunnamed := by
    rw [Engine.registration_eq_error_iff.2 hunnamed]
    rfl
  stocked hnamed := by
    rw [Engine.registration_eq_ok_iff.2 hnamed]
    exact ⟨_, rfl, Highlighter.stocked serial hnamed⟩

/-- What is made when no failure is due. -/
theorem make_of_eq_zero (hall : factory.bundle.HasAll order.request.withoutBlank)
    (hzero : factory.loader.failures = 0) :
    (factory.make order).2 = factory.loader.asked ∧
      Answered factory.bundle order (factory.make order).1 := by
  rw [make, Highlighter.create_of_resolve_eq_ok (Request.resolve_of_hasAll hall)
    (Shared.create_of_eq_zero hzero)]
  exact ⟨rfl, answered_map factory.bundle order _⟩

/-- A failure that is due is used up, and nothing is made. -/
theorem make_of_pos (hall : factory.bundle.HasAll order.request.withoutBlank)
    (hpos : 0 < factory.loader.failures) : factory.make order =
      (.error (.engine .creationFailed),
        ⟨factory.loader.creations + 1, factory.loader.failures - 1⟩) := by
  rw [make, Highlighter.create_of_resolve_eq_ok (Request.resolve_of_hasAll hall)
    (Engine.build_of_pos hpos)]
  rfl

/-- **Every call is delivered**, in any state of the factory. -/
theorem create_delivered (hall : factory.bundle.HasAll order.request.withoutBlank) :
    factory.Delivered order (factory.create order).1 (factory.create order).2 := by
  have hnumbered : ∀ highlighter, (factory.make order).1 = .ok highlighter →
      highlighter.engine.serial = factory.loader.creations + 1 :=
    fun highlighter h ↦ (Highlighter.create_serial h).1
  have hengines := withAnswer_eq_some_iff (factory.free_make order)
  rcases Nat.eq_zero_or_pos factory.loader.failures with hzero | hpos
  · obtain ⟨hrest, hanswered⟩ := make_of_eq_zero hall hzero
    exact {
      bundle_eq := rfl
      creations := congrArg Loader.creations hrest
      failures := (congrArg Loader.failures hrest).trans (by rw [hzero]; exact hzero)
      failed := fun hpos ↦ absurd hzero (Nat.ne_of_gt hpos)
      answered := fun _ ↦ hanswered
      numbered := hnumbered
      engines := hengines }
  · have hmake := make_of_pos hall hpos
    exact {
      bundle_eq := rfl
      creations := congrArg (Loader.creations ·.2) hmake
      failures := congrArg (Loader.failures ·.2) hmake
      failed := fun _ ↦ congrArg Prod.fst hmake
      answered := fun hzero ↦ absurd hzero (Nat.ne_of_gt hpos)
      numbered := hnumbered
      engines := hengines }

/-- An answer without a failure that was due is not such a failure. -/
theorem Answered.ne_creationFailed {bundle : Bundle} (h : Answered bundle order answer) :
    answer ≠ .error (.engine .creationFailed) := by
  by_cases hunnamed : ∃ theme ∈ order.request.themesIn bundle, theme.name = ""
  · rw [h.unnamed hunnamed]
    exact nofun
  · obtain ⟨highlighter, rfl, -⟩ :=
      h.stocked fun theme htheme hname ↦ hunnamed ⟨theme, htheme, hname⟩
    exact nofun

theorem Delivered.failed_iff (h : factory.Delivered order answer later) :
    answer = .error (.engine .creationFailed) ↔ 0 < factory.loader.failures := by
  refine ⟨fun hfailed ↦ Nat.pos_of_ne_zero fun hzero ↦ ?_, h.failed⟩
  exact (h.answered hzero).ne_creationFailed hfailed

/-! ### One call after the other -/

/-- The outcome of a sequence of calls while so many failures are due. -/
structure Fulfilled (factory : Factory) (due : Nat) (orders : List Order)
    (answers : List (Except Failure Highlighter)) (last : Factory) : Prop where
  length : answers.length = orders.length
  bundle_eq : last.bundle = factory.bundle
  creations : last.loader.creations = factory.loader.creations + orders.length
  failures : last.loader.failures = due - orders.length
  /-- As many of the first creations fail as failures are due, and no others. -/
  failed_iff : ∀ i answer, answers[i]? = some answer →
    (answer = .error (.engine .creationFailed) ↔ i < due)
  answered : ∀ i order answer, orders[i]? = some order → answers[i]? = some answer → due ≤ i →
    Answered factory.bundle order answer
  /-- Each engine has the number of its creation. -/
  numbered : ∀ i highlighter, answers[i]? = some (.ok highlighter) →
    highlighter.engine.serial = factory.loader.creations + i + 1
  /-- The engines of the highlighters that were returned, before or on the way, are there as they
  were returned. -/
  engines : ∀ serial engine, last.engines serial = some engine ↔
    factory.engines serial = some engine ∨ ∃ highlighter, .ok highlighter ∈ answers ∧
      highlighter.engine.serial = serial ∧ highlighter.engine = engine

theorem fulfilled_nil (factory : Factory) :
    factory.Fulfilled factory.loader.failures [] [] factory where
  length := rfl
  bundle_eq := rfl
  creations := rfl
  failures := rfl
  failed_iff _ _ h := absurd h nofun
  answered _ _ _ h := absurd h nofun
  numbered _ _ h := absurd h nofun
  engines serial engine := by simp

/-- A call before others uses up one of the failures that are due. -/
theorem Delivered.fulfilled (h : factory.Delivered order answer later)
    (hrest : later.Fulfilled later.loader.failures orders answers last) :
    factory.Fulfilled factory.loader.failures (order :: orders) (answer :: answers) last where
  length := by rw [List.length_cons, List.length_cons, hrest.length]
  bundle_eq := hrest.bundle_eq.trans h.bundle_eq
  creations := by
    rw [hrest.creations, h.creations, List.length_cons]
    omega
  failures := by
    rw [hrest.failures, h.failures, List.length_cons]
    omega
  failed_iff
    | 0, _, hanswer => by
      obtain rfl := Option.some.inj hanswer
      exact h.failed_iff
    | i + 1, _, hanswer => by
      rw [hrest.failed_iff i _ hanswer, h.failures]
      omega
  answered
    | 0, _, _, horder, hanswer, hdue => by
      obtain rfl := Option.some.inj horder
      obtain rfl := Option.some.inj hanswer
      exact h.answered (Nat.le_zero.1 hdue)
    | i + 1, _, _, horder, hanswer, hdue => by
      rw [← h.bundle_eq]
      refine hrest.answered i _ _ horder hanswer ?_
      rw [h.failures]
      omega
  numbered
    | 0, highlighter, hanswer => h.numbered highlighter (Option.some.inj hanswer)
    | i + 1, highlighter, hanswer => by
      rw [hrest.numbered i highlighter hanswer, h.creations]
      omega
  engines serial engine := by
    rw [hrest.engines, h.engines, or_assoc]
    refine or_congr_right ?_
    simp only [List.mem_cons, or_and_right, exists_or, eq_comm (a := answer)]

/-- **Every sequence of calls is fulfilled.** -/
theorem createAll_fulfilled (hall : ∀ order ∈ orders,
    factory.bundle.HasAll order.request.withoutBlank) :
    factory.Fulfilled factory.loader.failures orders (factory.createAll orders).1
      (factory.createAll orders).2 := by
  induction orders generalizing factory with
  | nil => exact fulfilled_nil factory
  | cons order orders ih =>
    obtain ⟨hfirst, hrest⟩ := List.forall_mem_cons.1 hall
    have hdelivered := create_delivered hfirst
    rw [← hdelivered.bundle_eq] at hrest
    exact hdelivered.fulfilled (ih hrest)

/-- Apart from the failures, the sequence begins in the same state. -/
theorem Fulfilled.of_failNext {count : Nat}
    (h : (factory.failNext count).Fulfilled count orders answers last) :
    factory.Fulfilled count orders answers last :=
  ⟨h.length, h.bundle_eq, h.creations, h.failures, h.failed_iff, h.answered, h.numbered, h.engines⟩

/-- **Creating a highlighter, from one end to the other.** Take a factory in any state, and orders
all of whose references stand for something, those to themes that are blank left out.

* Each of them would be `Delivered` at once, with one more creation on the count.
* When so many of the next creations are made to fail, and then the orders are given to the factory
  one after the other, they are `Fulfilled`: exactly the first so many fail, the others are answered
  as if there had been none before them, and the engines of all highlighters that were returned,
  before or on the way, are as they were. -/
theorem every_creation_is_accounted_for (factory : Factory) {orders : List Order}
    (hall : ∀ order ∈ orders, factory.bundle.HasAll order.request.withoutBlank) :
    (∀ order ∈ orders,
      factory.Delivered order (factory.create order).1 (factory.create order).2) ∧
    ∀ count, factory.Fulfilled count orders
      ((factory.failNext count).createAll orders).1
      ((factory.failNext count).createAll orders).2 := by
  refine ⟨fun order horder ↦ create_delivered (hall order horder), fun count ↦ ?_⟩
  have hfulfilled : (factory.failNext count).Fulfilled count orders _ _ := createAll_fulfilled hall
  exact hfulfilled.of_failNext

/-- One creation is made to fail, the next order has a theme without a name, and the third one gives
a highlighter; the engine that there was before has stayed. -/
theorem every_creation_is_accounted_for_of_failing :
    ∃ (factory last : Factory) (orders : List Order) (before : Engine) (highlighter : Highlighter),
      (factory.failNext 1).createAll orders = ([.error (.engine .creationFailed),
        .error (.engine .unnamedTheme), .ok highlighter], last) ∧
      factory.engines 1 = some before ∧ last.engines 1 = some before ∧
      last.engines 4 = some highlighter.engine ∧
      last.loader = ⟨factory.loader.creations + 3, 0⟩ ∧
      "day" ∈ highlighter.engine.loadedThemes ∧ "dusk" ∈ highlighter.engine.loadedThemes ∧
      " " ∉ highlighter.engine.loadedThemes ∧ highlighter.engine.hasLanguage "node" = true ∧
      highlighter.engine.hasLanguage plaintextName = false := by
  let bundle := (Bundle.empty.addTheme Sample.day).addLanguage Sample.javascript
  let dusk : Theme := { Sample.day with name := "dusk" }
  let own : Order :=
    ⟨⟨[.bundled "day", .bundled " ", .inline dusk], [.bundled "js", .plaintext]⟩, none⟩
  let nameless : Order := ⟨⟨[.inline Sample.nameless, .bundled "day"], []⟩, none⟩
  let before : Engine := .stocked 1 none ⟨[Sample.day], []⟩
  let factory : Factory := {
    bundle
    loader := ⟨1, 0⟩
    engines := Function.update (fun _ ↦ none) 1 (some before)
    free := fun serial hserial ↦ Function.update_of_ne (Nat.ne_of_gt hserial) _ _ }
  have hall : ∀ order ∈ [own, nameless, own], bundle.HasAll order.request.withoutBlank := by
    decide +kernel
  have hfulfilled := (every_creation_is_accounted_for factory hall).2 1
  rcases hrun : (factory.failNext 1).createAll [own, nameless, own] with ⟨answers, last⟩
  rw [hrun] at hfulfilled
  obtain ⟨a, b, c, rfl⟩ := List.length_eq_three.1 hfulfilled.length
  obtain rfl := (hfulfilled.failed_iff 0 a rfl).2 Nat.zero_lt_one
  obtain rfl := (hfulfilled.answered 1 nameless b rfl rfl (Nat.le_refl 1)).unnamed
    ⟨Sample.nameless, by decide +kernel, rfl⟩
  obtain ⟨highlighter, rfl, hstocked⟩ :=
    (hfulfilled.answered 2 own c rfl rfl (by decide : 1 ≤ 2)).stocked (by decide +kernel)
  exact ⟨factory, last, _, before, highlighter, hrun, rfl,
    (hfulfilled.engines 1 before).2 (Or.inl rfl),
    (hfulfilled.engines 4 _).2
      (Or.inr ⟨highlighter, by simp, hfulfilled.numbered 2 highlighter rfl, rfl⟩),
    congrArg₂ Loader.mk hfulfilled.creations hfulfilled.failures,
    (hstocked.themes "day").2 (by decide +kernel), (hstocked.themes "dusk").2 (by decide +kernel),
    fun h ↦ absurd ((hstocked.themes " ").1 h) (by decide +kernel),
    (hstocked.languages "node").2 (by decide +kernel),
    Bool.eq_false_iff.2 fun h ↦
      absurd ((hstocked.languages plaintextName).1 h) (by decide +kernel)⟩

end Factory

end HighlightBundle
