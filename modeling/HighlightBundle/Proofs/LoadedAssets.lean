import HighlightBundle.Proofs.CallInvariant

/-!
# What was asked for is loaded, and stays loaded

A call that has returned without a failure found its engine in one of two ways: it created the
engine with its own request, and then nothing was loaded, or somebody else did, and then its
request was loaded in two batches. On both ways the engine knows the assets of the call in the end
(`Phase.Sound.returned`), and since the slot only grows along a run it still knows them at every
later time.

What is left to do here is to say this in terms of the references of a request, and to go through
the failures that a call can end with: none of them is that a name is not loaded.
-/

namespace HighlightBundle.Shared.Crowd

open Engine

variable {bundle : Bundle} {shared : Shared} {loader : Loader} {actions : List Action}
  {crowd now last : Crowd} {earlier later : List (Nat × Turn)} {caller : Nat}

/-- The engine has an entry for everything that a request asks for: the name of each theme that is
not blank, and the name and the aliases of every definition of each language. -/
structure HasRequested (bundle : Bundle) (request : Request) (engine : Engine) : Prop where
  themes : ∀ reference ∈ request.themes, reference.isBlank = false →
    ∃ theme, bundle.resolveTheme reference = .ok theme ∧ engine.themes.contains theme.name = true
  languages : ∀ reference ∈ request.languages,
    ∃ pack, bundle.resolveLanguage reference = .ok pack ∧ ∀ language ∈ pack.languages,
      engine.hasLanguage language.name = true ∧
        ∀ key ∈ language.aliases, engine.hasLanguage key = true

/-- An engine that knows what a request resolves to has what it asks for. -/
theorem hasRequested_of_knows {request : Request} {assets : Assets} {engine : Engine}
    (hresolve : bundle.resolve request = .ok assets) (hknows : engine.Knows assets) :
    HasRequested bundle request engine := by
  obtain ⟨hthemes, hpacks⟩ := Bundle.resolve_eq_ok_iff.1 hresolve
  constructor
  · intro reference hmem hblank
    have hfiltered : reference ∈ request.themes.filter fun r ↦ !r.isBlank :=
      List.mem_filter.2 ⟨hmem, by rw [hblank]; rfl⟩
    obtain ⟨theme, htheme, hresolved⟩ := exists_mem_of_mapM_eq_ok hthemes hfiltered
    exact ⟨theme, hresolved, hknows.themes theme htheme⟩
  · intro reference hmem
    obtain ⟨pack, hpack, hresolved⟩ := exists_mem_of_mapM_eq_ok hpacks hmem
    refine ⟨pack, hresolved, ?_⟩
    intro language hlanguage
    have hkeys := hknows.languages pack hpack language hlanguage
    exact ⟨hkeys _ (List.mem_append_right _ List.mem_cons_self),
      fun key hkey ↦ hkeys key (List.mem_append_left _ hkey)⟩

/-- A call that asked for assets and has returned finds them in the slot. -/
theorem Sound.hasRequested (h : crowd.Sound bundle actions) {request : Request} {answer : Answer}
    (haction : actions[caller]? = some (.get request))
    (hdone : crowd.callers[caller]? = some (.finished (.ok answer))) :
    ∃ engine, crowd.shared.slot = some engine ∧ HasRequested bundle request engine := by
  cases h.phase_of_action haction hdone with
  | @returned job _ hserved =>
    obtain ⟨assets, engine, hasks, hslot, hknows⟩ := hserved
    obtain rfl : Job.mk request .nothing = job := Except.ok.inj hasks.prepare
    exact ⟨engine, hslot, hasRequested_of_knows hasks.resolve hknows⟩

/-- A failure that a call brings with it is not that a name is not loaded. -/
theorem ne_notLoaded_of_ownFailure {action : Action} {failure : Failure}
    (h : bundle.OwnFailure action failure) (kind : AssetKind) (name : String) :
    failure ≠ .engine (.notLoaded kind name) := by
  rintro rfl
  cases h with
  | reference hprepare =>
    obtain ⟨_, _, h⟩ := Bundle.prepare_eq_error hprepare
    exact absurd h nofun
  | request _ hresolve =>
    obtain ⟨_, _, h⟩ := Bundle.resolve_eq_error hresolve
    exact absurd h nofun
  | unnamed _ hthemes => exact absurd (registration_eq_error hthemes) nofun

/-- **What was asked for is loaded, and stays loaded.** Take any two moments of a run of any calls,
with the batches of a load as two steps in either order.

* The engine of the first moment is still there at the second, and no theme name and no language
  key has been lost, whether calls have failed or not.
* A call that asked for assets and has returned at the first moment finds everything it asked for
  at the second, whoever created the engine.
* No call fails because a name is not loaded. -/
theorem requested_stays_loaded
    (hnow : (ofActions shared loader actions).steps earlier = some now)
    (hlast : now.steps later = some last) :
    (∀ engine, now.shared.slot = some engine → ∃ engine', last.shared.slot = some engine' ∧
      engine'.serial = engine.serial ∧
      (∀ name, engine.themes.contains name = true → engine'.themes.contains name = true) ∧
      ∀ key, engine.hasLanguage key = true → engine'.hasLanguage key = true) ∧
    (∀ (caller : Nat) (request : Request) (answer : Answer),
      actions[caller]? = some (.get request) →
      now.callers[caller]? = some (.finished (.ok answer)) →
      ∃ engine, last.shared.slot = some engine ∧ HasRequested shared.bundle request engine) ∧
    ∀ (caller : Nat) (kind : AssetKind) (name : String),
      now.callers[caller]? ≠ some (.finished (.error (.engine (.notLoaded kind name)))) := by
  have hsound : now.Sound shared.bundle actions := (sound_ofActions ..).steps hnow
  refine ⟨?_, ?_, ?_⟩
  · intro engine hslot
    obtain ⟨engine', hslot', he⟩ := hsound.steps_slot hlast engine hslot
    exact ⟨engine', hslot', he.serial, he.themes, he.languages⟩
  · intro caller request answer haction hdone
    have hlater : last.callers[caller]? = some (.finished (.ok answer)) :=
      finished_of_steps hlast hdone
    exact (hsound.steps hlast).hasRequested haction hlater
  · intro caller kind name hdone
    obtain ⟨action, -, hphase⟩ := hsound.exists_action hdone
    cases hphase with
    | failed hown => exact ne_notLoaded_of_ownFailure hown kind name rfl

/-- Three calls; the last one loads a language that takes both aliases of the language that the
second one asks for. -/
def overwritingActions : List Action :=
  [.get ⟨[.inline Sample.day], []⟩,
    .get ⟨[.bundled " "], [.inline (.single Sample.javascript)]⟩,
    .html "x" (.inline (.single Sample.terse)) (.inline Sample.day)]

/-- The first call uses up the failure that was due and the second one creates the engine. What it
asked for is still there after the third one, although an alias stands for something else then. -/
theorem requested_stays_loaded_of_collision :
    ∃ now last : Crowd, ∃ engine : Engine,
      (ofActions ⟨⟨.empty, .empty⟩, none, none⟩ ⟨0, 1⟩ overwritingActions).steps
        [(0, .next), (1, .next), (0, .next), (0, .next), (1, .next), (1, .next), (1, .next),
          (1, .next)] = some now ∧
      now.steps [(2, .next), (2, .next), (2, .languages), (2, .themes), (2, .next), (2, .next)] =
        some last ∧
      now.callers[1]? = some (.finished (.ok (.highlighter 2))) ∧
      last.shared.slot = some engine ∧
      engine.languages.get? "node" = some Sample.terse ∧
      HasRequested ⟨.empty, .empty⟩ ⟨[.bundled " "], [.inline (.single Sample.javascript)]⟩
        engine := by
  have hrun : ∃ now last : Crowd,
      (ofActions ⟨⟨.empty, .empty⟩, none, none⟩ ⟨0, 1⟩ overwritingActions).steps
        [(0, .next), (1, .next), (0, .next), (0, .next), (1, .next), (1, .next), (1, .next),
          (1, .next)] = some now ∧
      now.steps [(2, .next), (2, .next), (2, .languages), (2, .themes), (2, .next), (2, .next)] =
        some last ∧
      now.callers[1]? = some (.finished (.ok (.highlighter 2))) ∧
      last.shared.slot.bind (fun engine ↦ engine.languages.get? "node") = some Sample.terse :=
    ⟨_, _, rfl, rfl, rfl, rfl⟩
  obtain ⟨now, last, hnow, hlast, hdone, hnode⟩ := hrun
  obtain ⟨engine, hslot, hhas⟩ := (requested_stays_loaded hnow hlast).2.1 1 _ _ rfl hdone
  rw [hslot] at hnode
  exact ⟨now, last, engine, hnow, hlast, hdone, hslot, hnode, hhas⟩

end HighlightBundle.Shared.Crowd
