import Mathlib.Data.List.Forall2
import HighlightBundle.Proofs.CompletedLoads

/-!
# References that ask for nothing

Some references ask for nothing: a blank one to a theme, and one to a language that stands for the
empty pack. They are made nothing of in two ways. A blank theme is left out before anything is
looked up, so it does not matter what the bundle has under a blank id. The empty pack is looked up,
handed to the engine, and has nothing in it that could be registered.

`Padded` puts idle elements anywhere into a list. With such references put into its lists an
operation resolves to the same sequence of themes and definitions, or to the same failure
(`resolve_padded`), and what it does with assets only depends on that sequence, with one exception:
a batch of languages counts as a load of languages when there is a pack in it, an empty one too.
So scenes are compared without this count (`Scene.uncounted`). No operation reads it: in scenes that
are the same without it, an operation and the same one with idle references put in have the same
outcome and leave such scenes behind (`Operation.run_padded`). So the difference cannot be seen
later either (`Operation.runAll_padded`).
-/

namespace HighlightBundle

/-! ### Lists with idle elements -/

/-- The second list is the first one with idle elements put in, anywhere and as many as you like. -/
inductive Padded {α : Type} (Idle : α → Prop) : List α → List α → Prop
  | nil : Padded Idle [] []
  | keep {a : α} {xs padded : List α} (h : Padded Idle xs padded) :
      Padded Idle (a :: xs) (a :: padded)
  | put {idle : α} {xs padded : List α} (hidle : Idle idle) (h : Padded Idle xs padded) :
      Padded Idle xs (idle :: padded)

namespace Padded

variable {ε α β γ : Type} {Idle : α → Prop} {xs padded : List α}

theorem refl : (xs : List α) → Padded Idle xs xs
  | [] => .nil
  | _ :: xs => .keep (refl xs)

/-- A filter that leaves out what is idle does not see it. -/
theorem filter_eq {p : α → Bool} (h : Padded Idle xs padded)
    (hidle : ∀ a, Idle a → p a = false) : padded.filter p = xs.filter p := by
  induction h with
  | nil => rfl
  | keep _ ih => rw [List.filter_cons, List.filter_cons, ih]
  | put hput _ ih => rw [List.filter_cons, hidle _ hput, if_neg Bool.false_ne_true, ih]

/-- Computations that succeed and contribute nothing change neither what comes out of a list nor its
failure. -/
theorem mapM_flatMap {f : α → Except ε β} {g : β → List γ} (h : Padded Idle xs padded)
    (hidle : ∀ a, Idle a → ∃ b, f a = .ok b ∧ g b = []) :
    (padded.mapM f).map (List.flatMap g) = (xs.mapM f).map (List.flatMap g) := by
  induction h with
  | nil => rfl
  | keep _ ih => rw [mapM_cons_flatMap, mapM_cons_flatMap, ih]
  | @put idle xs padded hput _ ih =>
    obtain ⟨b, hb, hnothing⟩ := hidle idle hput
    rw [mapM_cons_flatMap, hb, ih]
    show Except.map (g b ++ ·) _ = _
    rw [hnothing]
    rcases xs.mapM f with failure | bs <;> rfl

end Padded

/-! ### Idle references -/

/-- The themes and the definitions that assets consist of, each one after the other. -/
def Assets.sequence (assets : Assets) : List Theme × List Language :=
  (assets.themes, assets.definitions)

namespace Bundle

variable {bundle : Bundle} {request padded : Request} {assets assets' : Assets}

/-- A reference to a language that there is nothing to load for. What is under an id that spells
plain text does not matter. -/
inductive IdleLanguage (bundle : Bundle) : LanguageReference → Prop
  | plaintext : IdleLanguage bundle .plaintext
  | marker {id : String} (h : isPlaintext id = true) : IdleLanguage bundle (.bundled id)
  | entry {id : String} (h : bundle.languages.get? id = some .plaintext) :
      IdleLanguage bundle (.bundled id)
  | inline : IdleLanguage bundle (.inline .plaintext)

/-- Those are the references that stand for the empty pack. -/
theorem idleLanguage_iff {r : LanguageReference} :
    bundle.IdleLanguage r ↔ bundle.resolveLanguage r = .ok .plaintext := by
  constructor
  · rintro (- | hmarker | hentry | -)
    · rfl
    · rw [resolveLanguage, if_pos hmarker]
    · rw [resolveLanguage]
      split
      · rfl
      · rw [hentry]
    · rfl
  · intro h
    rcases r with - | id | pack
    · exact .plaintext
    · rcases hmarker : isPlaintext id with - | -
      · rw [resolveLanguage, hmarker, if_neg Bool.false_ne_true] at h
        rcases hentry : bundle.languages.get? id with - | pack
        · rw [hentry] at h
          cases h
        · rw [hentry] at h
          exact .entry (hentry.trans (congrArg some (Except.ok.inj h)))
      · exact .marker hmarker
    · rw [Except.ok.inj h]
      exact .inline

/-- The second request is the first one with references put in that ask for nothing. -/
structure PaddedRequest (bundle : Bundle) (request padded : Request) : Prop where
  themes : Padded (fun r ↦ ThemeReference.isBlank r = true) request.themes padded.themes
  languages : Padded bundle.IdleLanguage request.languages padded.languages

theorem map_sequence_resolve (bundle : Bundle) (request : Request) :
    (bundle.resolve request).map Assets.sequence =
      bundle.resolveThemes request.themes >>= fun themes ↦
        ((bundle.resolveLanguages request.languages).map (List.flatMap LanguagePack.languages)).map
          (themes, ·) := by
  rw [resolve]
  rcases bundle.resolveThemes request.themes with failure | themes
  · rfl
  · rcases bundle.resolveLanguages request.languages with failure | packs <;> rfl

/-- **Idle references do not matter to what a request resolves to.** -/
theorem resolve_padded (h : bundle.PaddedRequest request padded) :
    (bundle.resolve padded).map Assets.sequence = (bundle.resolve request).map Assets.sequence := by
  have hthemes : bundle.resolveThemes padded.themes = bundle.resolveThemes request.themes := by
    rw [resolveThemes, resolveThemes, h.themes.filter_eq fun r hr ↦ by rw [hr]; rfl]
  have hlanguages := h.languages.mapM_flatMap (f := bundle.resolveLanguage)
    (g := LanguagePack.languages) fun r hr ↦ ⟨.plaintext, idleLanguage_iff.1 hr, rfl⟩
  rw [map_sequence_resolve, map_sequence_resolve, hthemes]
  exact congrArg _ (funext fun themes ↦ congrArg (Except.map (themes, ·)) hlanguages)

/-- There is a pack for every reference to a language. -/
theorem packs_eq_nil_iff (h : bundle.resolve request = .ok assets) :
    assets.packs = [] ↔ request.languages = [] := by
  have hpacks := mapM_eq_ok_iff.1 (resolve_eq_ok_iff.1 h).2
  have hnil : assets.packs.map (.ok : LanguagePack → Except Failure LanguagePack) = [] ↔
      assets.packs = [] := List.map_eq_nil_iff
  rw [← hnil, ← hpacks, List.map_eq_nil_iff]

end Bundle

/-! ### What an engine makes of assets -/

namespace Engine

variable {engine other : Engine} {assets assets' : Assets}

/-- The engine without its count of the loads of languages. -/
def uncounted (engine : Engine) : Engine := { engine with languageLoads := 0 }

/-- Registering depends on the definitions, not on how they are packed. -/
theorem registerLanguages_congr {packs packs' : List LanguagePack}
    (h : packs'.flatMap LanguagePack.languages = packs.flatMap LanguagePack.languages)
    (engine : Engine) : engine.registerLanguages packs' = engine.registerLanguages packs := by
  rw [registerLanguages, registerLanguages, languageEntries_eq, languageEntries_eq, h]

theorem create_congr (h : assets'.sequence = assets.sequence) (loader : Loader)
    (className : Option String) :
    create loader assets' className = create loader assets className := by
  obtain ⟨hthemes, hdefinitions⟩ := Prod.mk.inj h
  simp only [create, build, hthemes, registerLanguages_congr hdefinitions]

/-- Apart from the count, a batch of languages registers them, whether it is empty or not. -/
theorem uncounted_load (engine : Engine) (assets : Assets) : (engine.load assets).2.uncounted =
    (engine.uncounted.themeBatch assets.themes).2.registerLanguages assets.packs := by
  obtain ⟨themes, packs⟩ := assets
  cases themes <;> cases packs <;> rfl

theorem uncounted_load_congr (h : assets'.sequence = assets.sequence)
    (hengine : other.uncounted = engine.uncounted) :
    (other.load assets').2.uncounted = (engine.load assets).2.uncounted := by
  obtain ⟨hthemes, hdefinitions⟩ := Prod.mk.inj h
  rw [uncounted_load, uncounted_load, hengine, hthemes, registerLanguages_congr hdefinitions]

theorem eq_of_uncounted_eq (h : other.uncounted = engine.uncounted)
    (hcount : other.languageLoads = engine.languageLoads) : other = engine := by
  obtain ⟨serial, languages, themes, themeLoads, languageLoads, className⟩ := engine
  obtain ⟨serial', languages', themes', themeLoads', languageLoads', className'⟩ := other
  simp only [uncounted, mk.injEq] at h
  obtain ⟨rfl, rfl, rfl, rfl, -, rfl⟩ := h
  obtain rfl : languageLoads' = languageLoads := hcount
  rfl

/-- The count is the same too if both batches of languages are empty, or none is. -/
theorem load_congr (h : assets'.sequence = assets.sequence)
    (hempty : assets'.packs = [] ↔ assets.packs = []) (engine : Engine) :
    (engine.load assets').2 = (engine.load assets).2 := by
  refine eq_of_uncounted_eq (uncounted_load_congr h rfl) ?_
  simp only [load_languageLoads, hempty]

/-- Rendering does not look at the count. -/
theorem run_uncounted (engine : Engine) (rendering : Rendering) :
    rendering.run engine.uncounted = rendering.run engine := by
  cases rendering <;> rfl

theorem run_congr (h : other.uncounted = engine.uncounted) (rendering : Rendering) :
    rendering.run other = rendering.run engine := by
  rw [← run_uncounted other, h, run_uncounted]

end Engine

/-! ### Highlighters -/

namespace Highlighter

variable {highlighter other : Highlighter} {bundle : Bundle} {request padded : Request}

/-- The highlighter without the count of its engine. -/
def uncounted (highlighter : Highlighter) : Highlighter :=
  { highlighter with engine := highlighter.engine.uncounted }

theorem load_of_resolve_eq_ok {assets : Assets}
    (h : highlighter.bundle.resolve request = .ok assets) : highlighter.load request =
      ((Engine.registration assets.themes).mapError .engine,
        ⟨highlighter.bundle, (highlighter.engine.load assets).2⟩) := by
  rw [load, h]
  simp only [Engine.load_fst]

theorem create_padded (h : bundle.PaddedRequest request padded) (loader : Loader)
    (className : Option String) :
    create bundle loader padded className = create bundle loader request className := by
  rcases map_eq_map_cases (Bundle.resolve_padded h) with
    ⟨failure, hpadded, hrequest⟩ | ⟨assets', assets, hpadded, hrequest, hsame⟩
  · rw [create, create, hpadded, hrequest]
  · rw [create, create, hpadded, hrequest]
    simp only [Engine.create_congr hsame]

/-- Loads of a request and of one that is padded give the same answer, and what they leave behind
stays the same up to the count. -/
theorem load_padded (hsame : other.uncounted = highlighter.uncounted)
    (h : highlighter.bundle.PaddedRequest request padded) :
    (other.load padded).1 = (highlighter.load request).1 ∧
      (other.load padded).2.uncounted = (highlighter.load request).2.uncounted := by
  have hbundle : other.bundle = highlighter.bundle := (congrArg Highlighter.bundle hsame :)
  have hresolve : (other.bundle.resolve padded).map Assets.sequence =
      (highlighter.bundle.resolve request).map Assets.sequence := by
    rw [hbundle]
    exact Bundle.resolve_padded h
  rcases map_eq_map_cases hresolve with
    ⟨failure, hpadded, hrequest⟩ | ⟨assets', assets, hpadded, hrequest, hassets⟩
  · rw [load_of_resolve_eq_error hpadded, load_of_resolve_eq_error hrequest]
    exact ⟨rfl, hsame⟩
  · have hload := Engine.uncounted_load_congr hassets (congrArg Highlighter.engine hsame :)
    rw [load_of_resolve_eq_ok hpadded, load_of_resolve_eq_ok hrequest, (Prod.mk.inj hassets).1]
    refine ⟨rfl, ?_⟩
    simp only [uncounted, hbundle, hload]

/-- The count is the same too if both requests have references to languages, or neither has. -/
theorem load_padded_eq (h : highlighter.bundle.PaddedRequest request padded)
    (hempty : padded.languages = [] ↔ request.languages = []) :
    highlighter.load padded = highlighter.load request := by
  rcases map_eq_map_cases (Bundle.resolve_padded h) with
    ⟨failure, hpadded, hrequest⟩ | ⟨assets', assets, hpadded, hrequest, hassets⟩
  · rw [load_of_resolve_eq_error hpadded, load_of_resolve_eq_error hrequest]
  · rw [← Bundle.packs_eq_nil_iff hpadded, ← Bundle.packs_eq_nil_iff hrequest] at hempty
    rw [load_of_resolve_eq_ok hpadded, load_of_resolve_eq_ok hrequest, (Prod.mk.inj hassets).1,
      Engine.load_congr hassets hempty]

end Highlighter

/-! ### The shared highlighter -/

/-- The second call is the first one, or asks for the same with idle references put in. -/
inductive Action.Padded (bundle : Bundle) : Action → Action → Prop
  | get {request padded : Request} (h : bundle.PaddedRequest request padded) :
      Action.Padded bundle (.get request) (.get padded)
  | same {action : Action} : Action.Padded bundle action action

namespace Shared

variable {shared other : Shared} {action action' : Action}

/-- The shared highlighter without the count of its engine. -/
def uncounted (shared : Shared) : Shared :=
  { shared with slot := shared.slot.map Engine.uncounted }

theorem run_bundle (shared : Shared) (loader : Loader) (action : Action) :
    (shared.run loader action).2.1.bundle = shared.bundle := by
  rcases hprepare : shared.bundle.prepare action with failure | job
  · rw [run_of_prepare_eq_error hprepare]
  · rw [run_snd_eq_ensure hprepare, ensure]
    rcases shared.slot with - | engine
    · simp only
      split <;> rfl
    · rfl

theorem run_get_padded_eq {request padded : Request}
    (h : shared.bundle.PaddedRequest request padded)
    (hempty : shared.slot = none ∨ (padded.languages = [] ↔ request.languages = []))
    (loader : Loader) : shared.run loader (.get padded) = shared.run loader (.get request) := by
  have hensure : shared.ensure loader padded = shared.ensure loader request := by
    rw [ensure, ensure]
    rcases hslot : shared.slot with - | engine
    · simp only [Highlighter.create_padded h]
    · rcases hempty with hnone | hempty
      · cases hslot.symm.trans hnone
      · have hload : Highlighter.load ⟨shared.bundle, engine⟩ padded =
            Highlighter.load ⟨shared.bundle, engine⟩ request :=
          Highlighter.load_padded_eq h hempty
        simp only [hload]
  simp only [run, Bundle.prepare, hensure]

/-- Calls of which one is padded ask for the same and do the same with it. -/
theorem lookUp_padded {bundle : Bundle} (h : action.Padded bundle action') :
    (bundle.lookUp action'.needs).map Assets.sequence =
      (bundle.lookUp action.needs).map Assets.sequence := by
  cases h with
  | get h => exact Bundle.resolve_padded h
  | same => rfl

theorem rendering_padded {bundle : Bundle} {job job' : Job} (h : action.Padded bundle action')
    (hjob : bundle.prepare action = .ok job) (hjob' : bundle.prepare action' = .ok job') :
    job'.rendering = job.rendering := by
  cases h with
  | get =>
    rw [← Except.ok.inj hjob, ← Except.ok.inj hjob']
  | same => rw [Except.ok.inj (hjob'.symm.trans hjob)]

/-- Without an engine there is nothing to count. -/
theorem eq_of_uncounted_eq (hsame : other.uncounted = shared.uncounted)
    (hslot : shared.slot = none) : other = shared := by
  obtain ⟨bundle, className, slot⟩ := shared
  obtain rfl : slot = none := hslot
  obtain ⟨bundle', className', slot'⟩ := other
  obtain ⟨hbundle, hclass, hslot'⟩ := mk.inj hsame
  rw [mk.injEq]
  exact ⟨hbundle, hclass, Option.map_eq_none_iff.1 hslot'⟩

/-- Calls of which one is padded give the same answer, do the same to the loader, and what they
leave behind stays the same up to the count. -/
theorem run_padded (hsame : other.uncounted = shared.uncounted)
    (h : action.Padded shared.bundle action') (loader : Loader) :
    (other.run loader action').1 = (shared.run loader action).1 ∧
      (other.run loader action').2.1.uncounted = (shared.run loader action).2.1.uncounted ∧
      (other.run loader action').2.2 = (shared.run loader action).2.2 := by
  rcases hslot : shared.slot with - | engine
  · -- creations are the same whatever is put in
    obtain rfl := eq_of_uncounted_eq hsame hslot
    have hrun : other.run loader action' = other.run loader action := by
      cases h with
      | get h => exact run_get_padded_eq h (Or.inl hslot) loader
      | same => rfl
    rw [hrun]
    exact ⟨rfl, rfl, rfl⟩
  · have hbundle : other.bundle = shared.bundle := (congrArg Shared.bundle hsame :)
    have hclass : other.className = shared.className := (congrArg Shared.className hsame :)
    have hslots : other.slot.map Engine.uncounted = shared.slot.map Engine.uncounted :=
      (congrArg Shared.slot hsame :)
    rw [hslot] at hslots
    obtain ⟨engine', hslot', hengine⟩ := Option.map_eq_some_iff.1 hslots
    have hlookUp : (other.bundle.lookUp action'.needs).map Assets.sequence =
        (shared.bundle.lookUp action.needs).map Assets.sequence := by
      rw [hbundle]
      exact lookUp_padded h
    rcases map_eq_map_cases hlookUp with
      ⟨failure, hpadded, hplain⟩ | ⟨assets', assets, hpadded, hplain, hassets⟩
    · rw [run_of_lookUp_eq_error hpadded, run_of_lookUp_eq_error hplain]
      exact ⟨rfl, hsame, rfl⟩
    · rw [← Bundle.prepare_bind_resolve] at hpadded hplain
      obtain ⟨job, hprepare, hresolve⟩ := bind_eq_ok_iff.1 hplain
      obtain ⟨job', hprepare', hresolve'⟩ := bind_eq_ok_iff.1 hpadded
      have hrendering := rendering_padded h hprepare (hbundle ▸ hprepare')
      have hload := Engine.uncounted_load_congr hassets hengine
      rw [run_of_some hprepare' hslot' hresolve', run_of_some hprepare hslot hresolve,
        (Prod.mk.inj hassets).1, hrendering, Engine.run_congr hload]
      refine ⟨rfl, ?_, rfl⟩
      simp only [uncounted, put, hbundle, hclass, Option.map_some, hload]

end Shared

/-! ### Operations -/

namespace Bundle

variable {bundle : Bundle}

theorem PaddedRequest.refl (request : Request) : bundle.PaddedRequest request request :=
  ⟨.refl _, .refl _⟩

theorem PaddedRequest.ofLanguages {languages padded : List LanguageReference}
    (h : HighlightBundle.Padded bundle.IdleLanguage languages padded) :
    bundle.PaddedRequest ⟨[], languages⟩ ⟨[], padded⟩ :=
  ⟨.nil, h⟩

theorem PaddedRequest.ofThemes {themes padded : List ThemeReference}
    (h : HighlightBundle.Padded (fun r ↦ r.isBlank = true) themes padded) :
    bundle.PaddedRequest ⟨themes, []⟩ ⟨padded, []⟩ :=
  ⟨h, .nil⟩

end Bundle

/-- The scene without the counts of the loads of languages. -/
def Scene.uncounted (scene : Scene) : Scene :=
  ⟨scene.highlighter.uncounted, scene.shared.uncounted, scene.loader⟩

namespace Operation

variable {scene other : Scene} {operation padded : Operation}

/-- The second operation is the first one, or one of the five that take lists of references, with
references put into its lists that ask for nothing. -/
inductive Padded (bundle : Bundle) : Operation → Operation → Prop
  | create {request padded : Request} {className : Option String}
      (h : bundle.PaddedRequest request padded) :
      Padded bundle (.create request className) (.create padded className)
  | loadLanguages {languages padded : List LanguageReference}
      (h : HighlightBundle.Padded bundle.IdleLanguage languages padded) :
      Padded bundle (.loadLanguages languages) (.loadLanguages padded)
  | loadThemes {themes padded : List ThemeReference}
      (h : HighlightBundle.Padded (fun r ↦ r.isBlank = true) themes padded) :
      Padded bundle (.loadThemes themes) (.loadThemes padded)
  | load {request padded : Request} (h : bundle.PaddedRequest request padded) :
      Padded bundle (.load request) (.load padded)
  | get {request padded : Request} (h : bundle.PaddedRequest request padded) :
      Padded bundle (.call (.get request)) (.call (.get padded))
  | same {operation : Operation} : Padded bundle operation operation

/-- Runs operations one after the other. -/
def runAll (scene : Scene) : List Operation → List (Except Failure Outcome) × Scene
  | [] => ([], scene)
  | operation :: operations =>
    let (outcome, scene) := operation.run scene
    let (outcomes, scene) := runAll scene operations
    (outcome :: outcomes, scene)

/-! #### One operation -/

theorem afterLoad_padded {request padded : Request} (hsame : other.uncounted = scene.uncounted)
    (h : scene.highlighter.bundle.PaddedRequest request padded) :
    (afterLoad other (other.highlighter.load padded)).1 =
        (afterLoad scene (scene.highlighter.load request)).1 ∧
      (afterLoad other (other.highlighter.load padded)).2.uncounted =
        (afterLoad scene (scene.highlighter.load request)).2.uncounted := by
  obtain ⟨hhighlighter, hshared, hloader⟩ := Scene.mk.inj hsame
  obtain ⟨hanswer, hafter⟩ := Highlighter.load_padded hhighlighter h
  refine ⟨?_, ?_⟩
  · rw [afterLoad, afterLoad, hanswer]
  · simp only [afterLoad, Scene.uncounted, hafter, hshared, hloader]

theorem call_padded {action action' : Action} (hsame : other.uncounted = scene.uncounted)
    (h : action.Padded scene.shared.bundle action') :
    ((call action').run other).1 = ((call action).run scene).1 ∧
      ((call action').run other).2.uncounted = ((call action).run scene).2.uncounted := by
  obtain ⟨hhighlighter, hshared, hloader⟩ := Scene.mk.inj hsame
  obtain ⟨hanswer, hafter, hrest⟩ := Shared.run_padded hshared h scene.loader
  simp only [run, Scene.uncounted, hloader, hanswer, hafter, hrest, hhighlighter, and_self]

theorem create_padded {request padded : Request} (hsame : other.uncounted = scene.uncounted)
    (h : scene.shared.bundle.PaddedRequest request padded) (className : Option String) :
    ((create padded className).run other).1 = ((create request className).run scene).1 ∧
      ((create padded className).run other).2.uncounted =
        ((create request className).run scene).2.uncounted := by
  obtain ⟨hhighlighter, hshared, hloader⟩ := Scene.mk.inj hsame
  have hbundle : other.shared.bundle = scene.shared.bundle := (congrArg Shared.bundle hshared :)
  simp only [run, Scene.uncounted, hbundle, hloader, Highlighter.create_padded h, hhighlighter,
    hshared, and_self]

/-- **What one operation does.** In scenes that are the same up to the counts, an operation and the
same one with idle references put in have the same outcome, and leave such scenes behind. -/
theorem run_padded (hsame : other.uncounted = scene.uncounted)
    (h : operation.Padded (operation.bundle scene) padded) :
    (padded.run other).1 = (operation.run scene).1 ∧
      (padded.run other).2.uncounted = (operation.run scene).2.uncounted := by
  cases h with
  | create h => exact create_padded hsame h _
  | loadLanguages h => exact afterLoad_padded hsame (.ofLanguages h)
  | loadThemes h => exact afterLoad_padded hsame (.ofThemes h)
  | load h => exact afterLoad_padded hsame h
  | get h => exact call_padded hsame (.get h)
  | same =>
    cases operation with
    | create request className => exact create_padded hsame (.refl request) className
    | loadLanguages languages => exact afterLoad_padded hsame (.refl ⟨[], languages⟩)
    | loadThemes themes => exact afterLoad_padded hsame (.refl ⟨themes, []⟩)
    | load request => exact afterLoad_padded hsame (.refl request)
    | call action => exact call_padded hsame .same

/-- Nothing at all is different if the batches of languages are empty in both, or in neither. -/
theorem run_padded_eq (h : operation.Padded (operation.bundle scene) padded)
    (hempty : padded.needs.languages = [] ↔ operation.needs.languages = []) :
    padded.run scene = operation.run scene := by
  cases h with
  | create h =>
    have hpadded : scene.shared.bundle.PaddedRequest _ _ := h
    simp only [run, Highlighter.create_padded hpadded]
  | loadLanguages h =>
    simp only [run, Highlighter.loadLanguages, Highlighter.load_padded_eq (.ofLanguages h) hempty]
  | loadThemes h =>
    simp only [run, Highlighter.loadThemes, Highlighter.load_padded_eq (.ofThemes h) hempty]
  | load h => simp only [run, Highlighter.load_padded_eq h hempty]
  | get h => simp only [run, Shared.run_get_padded_eq h (Or.inr hempty)]
  | same => rfl

/-! #### All that follows -/

/-- No operation changes the bundles. -/
theorem bundle_run (scene : Scene) (operation next : Operation) :
    next.bundle (operation.run scene).2 = next.bundle scene := by
  have hhighlighter : (operation.run scene).2.highlighter.bundle = scene.highlighter.bundle := by
    cases operation with
    | create request className | call action => rfl
    | loadLanguages languages => exact (scene.engine?_afterLoad ⟨[], languages⟩).1
    | loadThemes themes => exact (scene.engine?_afterLoad ⟨themes, []⟩).1
    | load request => exact (scene.engine?_afterLoad request).1
  have hshared : (operation.run scene).2.shared.bundle = scene.shared.bundle := by
    cases operation with
    | create request className | loadLanguages languages | loadThemes themes | load request => rfl
    | call action => exact scene.shared.run_bundle scene.loader action
  cases next with
  | create request className | call action => exact hshared
  | loadLanguages languages | loadThemes themes | load request => exact hhighlighter

/-- **What a run does.** With idle references put into any of its operations, all of them have the
same outcomes. -/
theorem runAll_padded {operations padded : List Operation}
    (hsame : other.uncounted = scene.uncounted)
    (h : List.Forall₂ (fun o p ↦ Padded (o.bundle scene) o p) operations padded) :
    (runAll other padded).1 = (runAll scene operations).1 ∧
      (runAll other padded).2.uncounted = (runAll scene operations).2.uncounted := by
  induction operations generalizing scene other padded with
  | nil =>
    obtain rfl := List.forall₂_nil_left_iff.1 h
    exact ⟨rfl, hsame⟩
  | cons operation operations ih =>
    obtain ⟨first, rest, hfirst, hrest, rfl⟩ := List.forall₂_cons_left_iff.1 h
    obtain ⟨houtcome, hafter⟩ := run_padded hsame hfirst
    have hlater := ih hafter (hrest.imp fun o p hpadded ↦ by
      rw [bundle_run]
      exact hpadded)
    simp only [runAll, houtcome, hlater, and_self]

/-- **References that ask for nothing change nothing.** In any scene, and with such references put
into the lists of an operation, anywhere and as many as you like,

* the operation succeeds as before, or fails with the same failure;
* the slot, the loader and everything that is loaded are the same afterwards, and all that can be
  different is how often a batch of languages was loaded;
* not even that, unless these references are the only ones to languages;
* and no operation later on, itself with idle references or without, has another outcome. -/
theorem idle_references_request_nothing {scene : Scene} {operation padded : Operation}
    (h : operation.Padded (operation.bundle scene) padded) :
    (padded.run scene).1 = (operation.run scene).1 ∧
      (padded.run scene).2.uncounted = (operation.run scene).2.uncounted ∧
      ((padded.needs.languages = [] ↔ operation.needs.languages = []) →
        padded.run scene = operation.run scene) ∧
      ∀ later later' : List Operation,
        List.Forall₂ (fun o p ↦ Padded (o.bundle scene) o p) later later' →
          (runAll (padded.run scene).2 later').1 = (runAll (operation.run scene).2 later).1 := by
  obtain ⟨houtcome, hafter⟩ := run_padded (rfl : scene.uncounted = scene.uncounted) h
  refine ⟨houtcome, hafter, run_padded_eq h, fun later later' hlater ↦ ?_⟩
  refine (runAll_padded hafter (hlater.imp fun o p hpadded ↦ ?_)).1
  rw [bundle_run]
  exact hpadded

/-- The bundle has a theme under a blank id and a language under a name of plain text, and neither
is loaded. A theme without a name is reported as before. Where there was no language before, the
load of nothing is counted, and the rendering after it does not notice. -/
theorem idle_references_request_nothing_of_odd_keys :
    let bundle : Bundle := ⟨.ofList [("txt", .single Sample.javascript), ("none", .plaintext)],
      .ofList [(" ", Sample.day)]⟩
    let scene : Scene :=
      ⟨⟨bundle, .blank 1 none⟩, ⟨bundle, none, some (.blank 2 none)⟩, ⟨2, 1⟩⟩
    let unnamed : Operation :=
      .call (.get ⟨[.inline Sample.nameless], [.inline (.single Sample.terse)]⟩)
    let unnamed' : Operation := .call (.get
      ⟨[.bundled " ", .inline Sample.nameless, .bundled ""],
        [.bundled "txt", .inline (.single Sample.terse), .bundled "none", .bundled "\u3000"]⟩)
    let nothing : Operation := .call (.get ⟨[], []⟩)
    let nothing' : Operation := .call (.get ⟨[.bundled " "], [.inline .plaintext, .plaintext]⟩)
    let rendering : Operation := .call (.html "" .plaintext (.inline Sample.day))
    unnamed'.run scene = unnamed.run scene ∧
      (unnamed'.run scene).1 = .error (.engine .unnamedTheme) ∧
      (nothing'.run scene).2.uncounted = (nothing.run scene).2.uncounted ∧
      (nothing'.run scene).2 ≠ (nothing.run scene).2 ∧
      (runAll (nothing'.run scene).2 [rendering]).1 =
        (runAll (nothing.run scene).2 [rendering]).1 := by
  intro bundle scene unnamed unnamed' nothing nothing' rendering
  have hunnamed : Padded (unnamed.bundle scene) unnamed unnamed' :=
    .get ⟨.put (by decide +kernel) (.keep (.put (by decide +kernel) .nil)),
      .put (.marker (by decide +kernel)) (.keep (.put (.entry (by decide +kernel))
        (.put (.marker (by decide +kernel)) .nil)))⟩
  have hnothing : Padded (nothing.bundle scene) nothing nothing' :=
    .get ⟨.put (by decide +kernel) .nil, .put .inline (.put .plaintext .nil)⟩
  obtain ⟨houtcome, -, hequal, -⟩ := idle_references_request_nothing hunnamed
  obtain ⟨-, hafter, -, hlater⟩ := idle_references_request_nothing hnothing
  refine ⟨hequal (iff_of_false nofun nofun), houtcome, hafter, fun hsame ↦ ?_,
    hlater [rendering] [rendering] (.cons .same .nil)⟩
  exact absurd (congrArg (fun s ↦ s.shared.slot) hsame) (by decide +kernel)

end Operation

end HighlightBundle
