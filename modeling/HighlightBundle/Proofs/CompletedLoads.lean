import HighlightBundle.Proofs.RequestedAssets

/-!
# Loads run to their end

A load has two batches, and something can go wrong in one of them: a theme without a name cannot be
registered. This is reported, but it stops nothing. The other themes of the batch are registered,
those behind the nameless one included, the batch of languages runs as if nothing had happened, and
nothing is taken back.

`Completed` says what an engine is after a load in terms of what the request asks for, together with
the answer and the calls of the engine that were made. It is one statement for all ways to load:
into a highlighter, and by a call of the shared highlighter that finds its engine there. The tables
are those of `Engine.load`, whose last entry with a key counts, and the answer only depends on the
names of the themes, so the two do not have to be looked at together.
-/

namespace HighlightBundle

/-- A load into an engine has run to its end, with this answer and these calls of the engine. -/
structure Completed (bundle : Bundle) (request : Request) (before after : Engine)
    (answer : Except Failure Unit) (calls : List Call) : Prop where
  /-- Every definition that is asked for is registered: under each of its keys there is one that is
  asked for, the last one with this key. -/
  languages : ∀ language ∈ request.definitionsIn bundle, ∀ key ∈ language.keys,
    ∃ last ∈ request.definitionsIn bundle, key ∈ last.keys ∧
      lastWithKey key (request.definitionsIn bundle) = some last ∧
      after.languages.get? key = some last
  /-- Every theme that is asked for and has a name is registered, whatever stands before it. -/
  themes : ∀ theme ∈ request.themesIn bundle, theme.name ≠ "" →
    ∃ last ∈ request.themesIn bundle, last.name = theme.name ∧
      lastNamed theme.name (request.themesIn bundle) = some last ∧
      after.themes.get? theme.name = some last
  otherLanguages : ∀ key, (∀ language ∈ request.definitionsIn bundle, key ∉ language.keys) →
    after.languages.get? key = before.languages.get? key
  otherThemes : ∀ name, (∀ theme ∈ request.themesIn bundle, theme.name ≠ "" → theme.name ≠ name) →
    after.themes.get? name = before.themes.get? name
  unnamed : answer = .error (.engine .unnamedTheme) ↔
    ∃ theme ∈ request.themesIn bundle, theme.name = ""
  succeeded : answer = .ok () ↔ ∀ theme ∈ request.themesIn bundle, theme.name ≠ ""
  themeLoads : after.themeLoads = before.themeLoads +
    if ∀ reference ∈ request.themes, reference.isBlank = true then 0 else 1
  languageLoads : after.languageLoads = before.languageLoads +
    if request.languages = [] then 0 else 1
  calls : calls =
    (if ∀ reference ∈ request.themes, reference.isBlank = true then []
      else [.loadThemes (request.themesIn bundle)]) ++
    if request.languages = [] then [] else [.loadLanguages (request.packsIn bundle)]

namespace Engine

variable {bundle : Bundle} {request : Request}

/-! ### The batches -/

@[simp]
theorem load_serial (engine : Engine) (assets : Assets) :
    (engine.load assets).2.serial = engine.serial := by
  obtain ⟨themes, packs⟩ := assets
  cases themes <;> cases packs <;> rfl

/-- A batch that is empty is not counted. -/
theorem load_themeLoads (engine : Engine) (assets : Assets) :
    (engine.load assets).2.themeLoads =
      engine.themeLoads + if assets.themes = [] then 0 else 1 := by
  obtain ⟨themes, packs⟩ := assets
  cases themes <;> cases packs <;> rfl

theorem load_languageLoads (engine : Engine) (assets : Assets) :
    (engine.load assets).2.languageLoads =
      engine.languageLoads + if assets.packs = [] then 0 else 1 := by
  obtain ⟨themes, packs⟩ := assets
  cases themes <;> cases packs <;> rfl

/-- Nor does it become a call. -/
theorem calls_loadEvents (assets : Assets) : Event.calls (loadEvents assets) =
    (if assets.themes = [] then [] else [.loadThemes assets.themes]) ++
      if assets.packs = [] then [] else [.loadLanguages assets.packs] := by
  obtain ⟨themes, packs⟩ := assets
  cases themes <;> cases packs <;> rfl

/-- **A load runs to its end**, whatever its answer is. -/
theorem load_completed (hall : bundle.HasAll request.withoutBlank) (engine : Engine) :
    Completed bundle request engine (engine.load (request.assetsIn bundle)).2
      ((registration (request.themesIn bundle)).mapError .engine)
      (Event.calls (loadEvents (request.assetsIn bundle))) where
  languages language hlanguage key hkey := by
    obtain ⟨last, hlast⟩ :=
      Option.isSome_iff_exists.1 (isSome_lastWithKey_iff.2 ⟨language, hlanguage, hkey⟩)
    obtain ⟨hmem, hown⟩ := mem_of_lastWithKey hlast
    have hget := engine.get?_load_languages (request.assetsIn bundle) key
    rw [Assets.definitions, Request.assetsIn, ← Request.definitionsIn, hlast] at hget
    exact ⟨last, hmem, hown, hlast, hget⟩
  themes theme htheme hname := by
    obtain ⟨last, hlast⟩ :=
      Option.isSome_iff_exists.1 (isSome_lastNamed_iff.2 ⟨theme, htheme, rfl, hname⟩)
    obtain ⟨hmem, hown⟩ := mem_of_lastNamed hlast
    have hget := engine.get?_load_themes (request.assetsIn bundle) theme.name
    rw [Request.assetsIn, hlast] at hget
    exact ⟨last, hmem, hown, hlast, hget⟩
  otherLanguages key hnone := by
    have hnothing : lastWithKey key (request.definitionsIn bundle) = none := by
      refine Option.not_isSome_iff_eq_none.1 fun hsome ↦ ?_
      obtain ⟨language, hlanguage, hkey⟩ := isSome_lastWithKey_iff.1 hsome
      exact hnone language hlanguage hkey
    have hget := engine.get?_load_languages (request.assetsIn bundle) key
    rw [Assets.definitions, Request.assetsIn, ← Request.definitionsIn, hnothing] at hget
    exact hget
  otherThemes name hnone := by
    have hnothing : lastNamed name (request.themesIn bundle) = none := by
      refine Option.not_isSome_iff_eq_none.1 fun hsome ↦ ?_
      obtain ⟨theme, htheme, hown, hname⟩ := isSome_lastNamed_iff.1 hsome
      exact hnone theme htheme hname hown
    have hget := engine.get?_load_themes (request.assetsIn bundle) name
    rw [Request.assetsIn, hnothing] at hget
    exact hget
  unnamed := by
    rw [← registration_eq_error_iff]
    rcases registration (request.themesIn bundle) with cause | ⟨⟨⟩⟩
    · show Except.error (Failure.engine cause) = _ ↔ _
      rw [Except.error.injEq, Failure.engine.injEq, Except.error.injEq]
    · exact iff_of_false (fun h ↦ by cases h) (fun h ↦ by cases h)
  succeeded := by
    rw [← registration_eq_ok_iff]
    rcases registration (request.themesIn bundle) with cause | ⟨⟨⟩⟩
    · exact iff_of_false (fun h ↦ by cases h) (fun h ↦ by cases h)
    · exact iff_of_true rfl rfl
  themeLoads := by
    simp only [load_themeLoads, Request.assetsIn, Request.themesIn_eq_nil_iff hall]
  languageLoads := by
    simp only [load_languageLoads, Request.assetsIn, Request.packsIn_eq_nil_iff hall]
  calls := by
    simp only [calls_loadEvents, Request.assetsIn, Request.themesIn_eq_nil_iff hall,
      Request.packsIn_eq_nil_iff hall]

end Engine

/-! ### The two ways to load -/

namespace Highlighter

variable {bundle : Bundle} {request : Request}

theorem load_of_hasAll (hall : bundle.HasAll request.withoutBlank) (engine : Engine) :
    load ⟨bundle, engine⟩ request =
      ((Engine.registration (request.themesIn bundle)).mapError .engine,
        ⟨bundle, (engine.load (request.assetsIn bundle)).2⟩) := by
  rw [load, Request.resolve_of_hasAll hall]
  simp only [Engine.load_fst]
  rfl

/-- Resolving calls no engine, so the calls of a load are those of its batches. -/
theorem calls_loadEvents_of_hasAll (hall : bundle.HasAll request.withoutBlank) :
    Event.calls (loadEvents bundle request) =
      Event.calls (Engine.loadEvents (request.assetsIn bundle)) := by
  rw [loadEvents, Event.calls_append, Bundle.calls_resolveEvents, Request.resolve_of_hasAll hall]
  rfl

end Highlighter

namespace Shared

variable {shared : Shared} {engine : Engine} {request : Request}

/-- A call that asks for assets and finds an engine loads into it. -/
theorem run_get_of_hasAll (hslot : shared.slot = some engine)
    (hall : shared.bundle.HasAll request.withoutBlank) (loader : Loader) :
    shared.run loader (.get request) =
      (((Engine.registration (request.themesIn shared.bundle)).mapError .engine).map
        fun _ ↦ .highlighter engine.serial,
        shared.put (engine.load (request.assetsIn shared.bundle)).2, loader) := by
  have hprepare : shared.bundle.prepare (.get request) = .ok ⟨request, .nothing⟩ := rfl
  rw [run_of_some hprepare hslot (Request.resolve_of_hasAll hall), Request.assetsIn]
  rcases Engine.registration (request.themesIn shared.bundle) with cause | ⟨⟨⟩⟩
  · rfl
  · show (Except.ok (Answer.highlighter _), _) = _
    rw [Engine.load_serial]
    rfl

theorem runEvents_get (hslot : shared.slot = some engine) :
    shared.runEvents (.get request) = Highlighter.loadEvents shared.bundle request := by
  rw [runEvents, Bundle.prepare, Bundle.prepareEvents]
  simp only [ensureEvents, hslot, List.nil_append]

end Shared

namespace Engine

variable {bundle : Bundle} {request : Request}

/-- **Both batches of a load run to their end.** Take an engine in any state, and a request all of
whose references stand for something, those to themes that are blank left out. Loading it has
`Completed`, with one answer and one engine afterwards, in both ways that there are:

* when the request is loaded into a highlighter with this engine;
* when a call of the shared highlighter asks for it and this engine is there, which leaves the
  loader alone and gives the highlighter unless the load fails. -/
theorem batches_run_to_completion (hall : bundle.HasAll request.withoutBlank) (engine : Engine) :
    ∃ answer after calls, Completed bundle request engine after answer calls ∧
      (Highlighter.load ⟨bundle, engine⟩ request = (answer, ⟨bundle, after⟩) ∧
        Event.calls (Highlighter.loadEvents bundle request) = calls) ∧
      ∀ (shared : Shared) (loader : Loader), shared.bundle = bundle → shared.slot = some engine →
        shared.run loader (.get request) =
          (answer.map fun _ ↦ .highlighter engine.serial, shared.put after, loader) ∧
        Event.calls (shared.runEvents (.get request)) = calls := by
  have hcalls := Highlighter.calls_loadEvents_of_hasAll hall
  refine ⟨_, _, _, load_completed hall engine, ⟨Highlighter.load_of_hasAll hall engine, hcalls⟩, ?_⟩
  rintro shared loader rfl hslot
  refine ⟨Shared.run_get_of_hasAll hslot hall loader, ?_⟩
  rw [Shared.runEvents_get hslot]
  exact hcalls

/-- The theme behind the one without a name is registered, the alias of another language is taken
over, and a theme and a key that nobody asked for stay. The shared highlighter does the same. -/
theorem batches_run_to_completion_of_nameless :
    ∃ (before after : Engine) (request : Request),
      before.themes.get? "dusk" ≠ none ∧ before.languages.get? "js" = some Sample.terse ∧
      Highlighter.load ⟨.empty, before⟩ request =
        (.error (.engine .unnamedTheme), ⟨.empty, after⟩) ∧
      Shared.run ⟨.empty, none, some before⟩ ⟨1, 1⟩ (.get request) =
        (.error (.engine .unnamedTheme), ⟨.empty, none, some after⟩, ⟨1, 1⟩) ∧
      after.themes.get? "day" = some Sample.day ∧
      after.themes.get? "dusk" = before.themes.get? "dusk" ∧
      after.languages.get? "js" = some Sample.javascript ∧
      after.languages.get? "other" = before.languages.get? "other" ∧
      after.themeLoads = 1 ∧ after.languageLoads = 1 := by
  let request : Request := ⟨[.inline Sample.nameless, .bundled " ", .inline Sample.day],
    [.inline (.single Sample.javascript), .plaintext]⟩
  let other : Language := ⟨"other", "source.other", none, [], [], .empty⟩
  let before := stocked 1 none ⟨[{ Sample.day with name := "dusk" }],
    [.single Sample.terse, .single other]⟩
  have hall : Bundle.empty.HasAll request.withoutBlank := by decide +kernel
  obtain ⟨answer, after, calls, hcompleted, ⟨hload, -⟩, hshared⟩ :=
    batches_run_to_completion hall before
  obtain rfl : answer = .error (.engine .unnamedTheme) :=
    hcompleted.unnamed.2 ⟨Sample.nameless, by decide +kernel, rfl⟩
  have hrun := (hshared ⟨.empty, none, some before⟩ ⟨1, 1⟩ rfl rfl).1
  have hday : after.themes.get? "day" = some Sample.day := by
    obtain ⟨last, -, -, hlast, hget⟩ :=
      hcompleted.themes Sample.day (by decide +kernel) (by decide)
    have hown : lastNamed "day" (request.themesIn .empty) = some Sample.day := by decide +kernel
    exact hget.trans (hlast.symm.trans hown)
  have hjs : after.languages.get? "js" = some Sample.javascript := by
    obtain ⟨last, -, -, hlast, hget⟩ :=
      hcompleted.languages Sample.javascript (by decide +kernel) "js" (by decide)
    have hown : lastWithKey "js" (request.definitionsIn .empty) = some Sample.javascript := by
      decide +kernel
    exact hget.trans (hlast.symm.trans hown)
  exact ⟨before, after, request, by decide +kernel, by decide +kernel, hload, hrun, hday,
    hcompleted.otherThemes "dusk" (by decide +kernel), hjs,
    hcompleted.otherLanguages "other" (by decide +kernel), hcompleted.themeLoads,
    hcompleted.languageLoads⟩

end Engine

end HighlightBundle
