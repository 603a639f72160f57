import PromptLoom.Proofs.Prompt.Compilation
import PromptLoom.Proofs.Validation.Agreement

/-!
# Sessions over one cache

Documents are loaded, prompts are validated and compiled, in any order and by any number of engines
that share a cache. Whatever came before, the cache holds only what the files of the tree say, so
every answer is the one that an engine with a cache of its own would give.
-/

namespace PromptLoom.Session

open Workspace

set_option autoImplicit false

inductive Load where
  | entry (path : Path)
  | relative (reference : String) (source : Path) (field : String)

def Load.run (workspace : Workspace) (cache : Cache) : Load → Except DocumentError Document × Cache
  | .entry path => workspace.openEntry path cache
  | .relative reference source field => workspace.openReference reference source field cache

inductive Request where
  | load (load : Load)
  | validate (separator : String) (entry : Path)
  | compile (defaults : Defaults) (entry : Path) (draws : Draws)

def afterRequest (workspace : Workspace) (cache : Cache) : Request → Cache
  | .load load => (load.run workspace cache).2
  | .validate separator entry => (PromptLoom.validate workspace separator entry cache).2
  | .compile defaults entry draws =>
      (PromptLoom.compile workspace defaults entry cache draws).cache

def afterRequests (workspace : Workspace) (cache : Cache) (requests : List Request) : Cache :=
  requests.foldl (afterRequest workspace) cache

/-- Compiling an entry makes a prompt of a resolution of the document that the entry opens. The
resolution may start after further openings. -/
structure Makes (workspace : Workspace) (defaults : Defaults) (entry : Path) (cache : Cache)
    (draws : Draws) (report : Report) (resolution : Resolution) : Prop where
  resolved : ∃ document start, (workspace.openEntry entry cache).1 = .ok document ∧
    workspace.Grown cache start ∧
      (resolvePrompt workspace defaults.separator document start draws).result = .ok resolution
  made : ∃ seed, (compile workspace defaults entry cache draws).result =
    .ok (.ofResolution resolution report defaults (.seeded seed))

variable {workspace : Workspace}

/-! ### One call -/

theorem load_grown (workspace : Workspace) (load : Load) (cache : Cache) :
    workspace.Grown cache (load.run workspace cache).2 := by
  cases load with
  | entry path => exact open_entry_grown workspace path cache
  | relative reference source field =>
      rcases opened : workspace.openReference reference source field cache with ⟨result, later⟩
      simp only [Load.run, opened]
      exact open_reference_grown opened

theorem load_alike {left right : Cache} (load : Load) (alike : workspace.Alike left right) :
    (load.run workspace left).1 = (load.run workspace right).1 := by
  cases load with
  | entry path =>
      rcases opened : workspace.openEntry path left with ⟨result, later⟩
      obtain ⟨_, again, _⟩ := alike.open_entry opened
      simp only [Load.run, opened, again]
  | relative reference source field =>
      rcases opened : workspace.openReference reference source field left with ⟨result, later⟩
      obtain ⟨_, again, _⟩ := alike.open_reference opened
      simp only [Load.run, opened, again]

theorem open_at_failed {location : Location} {cache : Cache} {error : DocumentError}
    (failed : (workspace.openAt location cache).1 = .error error) :
    (workspace.openAt location cache).2 = cache := by
  unfold openAt at failed ⊢
  split at failed
  · cases failed
  · split at failed
    · cases failed
    · simp only [*]

theorem load_failed {load : Load} {cache : Cache} {error : DocumentError}
    (failed : (load.run workspace cache).1 = .error error) :
    (load.run workspace cache).2 = cache := by
  cases load with
  | entry path =>
      simp only [Load.run, openEntry] at failed ⊢
      split at failed
      · exact open_at_failed failed
      · rfl
  | relative reference source field =>
      simp only [Load.run, openReference] at failed ⊢
      split at failed
      · exact open_at_failed failed
      · rfl

theorem compile_grown (workspace : Workspace) (defaults : Defaults) (entry : Path) (cache : Cache)
    (draws : Draws) :
    workspace.Grown cache (compile workspace defaults entry cache draws).cache := by
  have validated := validate_grown workspace defaults.separator entry cache
  rcases checked : validate workspace defaults.separator entry cache with ⟨report, later⟩
  rw [checked] at validated
  have entered := validated.trans (open_entry_grown workspace entry later)
  simp only [compile, checked]
  split
  · exact validated
  · rcases opened : workspace.openEntry entry later with ⟨failure | document, start⟩
    all_goals rw [opened] at entered
    · exact entered
    · have resolved := entered.trans
        (resolve_prompt_grown workspace defaults.separator document start draws)
      dsimp only
      split <;> exact resolved

theorem compile_makes {defaults : Defaults} {entry : Path} {cache later : Cache} {draws : Draws}
    {document : Document} {resolution : Resolution}
    (clean : (validate workspace defaults.separator entry cache).1.hasErrors = false)
    (opened : workspace.openEntry entry (validate workspace defaults.separator entry cache).2 =
      (.ok document, later))
    (resolved : (resolvePrompt workspace defaults.separator document later draws).result =
      .ok resolution) :
    Makes workspace defaults entry cache draws
      (validate workspace defaults.separator entry cache).1 resolution := by
  have validated := validate_grown workspace defaults.separator entry cache
  have entered := open_entry_grown workspace entry
    (validate workspace defaults.separator entry cache).2
  rw [opened] at entered
  obtain ⟨first, before, _⟩ := validated.alike.symm.open_entry opened
  refine ⟨⟨document, later, congrArg Prod.fst before, validated.trans entered, resolved⟩,
    ((resolvePrompt workspace defaults.separator document later draws).draws.below
      Seeds.wordCount).1, ?_⟩
  simp only [compile, clean, opened, resolved, Bool.false_eq_true, if_false]

/-- Caches that show the same documents lead to the same failure, or to prompts with the same merged
fields and bodies, whatever is drawn. -/
theorem compile_alike {left right : Cache} (alike : workspace.Alike left right)
    (defaults : Defaults) (entry : Path) (leftDraws rightDraws : Draws) :
    (∃ failure, (compile workspace defaults entry left leftDraws).result = .error failure ∧
        (compile workspace defaults entry right rightDraws).result = .error failure) ∨
      ∃ report leftResolution rightResolution,
        Makes workspace defaults entry left leftDraws report leftResolution ∧
          Makes workspace defaults entry right rightDraws report rightResolution ∧
            leftResolution.SameButDrawn rightResolution := by
  have reports := validate_alike defaults.separator entry alike
  have validated := alike.grown (validate_grown workspace defaults.separator entry left)
    (validate_grown workspace defaults.separator entry right)
  cases grave : (validate workspace defaults.separator entry right).1.hasErrors with
  | true =>
      have leftGrave := grave
      rw [← reports] at leftGrave
      have leftFailed := compile_with_errors leftGrave leftDraws
      rw [reports] at leftFailed
      exact .inl ⟨_, leftFailed, compile_with_errors grave rightDraws⟩
  | false =>
      have clean := grave
      rw [← reports] at clean
      rcases opened : workspace.openEntry entry
        (validate workspace defaults.separator entry left).2 with ⟨failure | document, later⟩
      all_goals obtain ⟨second, again, follows⟩ := validated.open_entry opened
      -- A clean report rules the two failures below out, but they are the same on both sides anyway.
      · refine .inl ⟨(validate workspace defaults.separator entry right).1.error failure, ?_, ?_⟩
        all_goals
          simp only [compile, grave, opened, again, reports, Bool.false_eq_true, if_false]
      · have agrees :=
          resolve_prompt_agrees follows defaults.separator document leftDraws rightDraws
        generalize leftResult :
          (resolvePrompt workspace defaults.separator document later leftDraws).result = first
          at agrees
        generalize rightResult :
          (resolvePrompt workspace defaults.separator document second rightDraws).result = other
          at agrees
        cases agrees with
        | error failures =>
            refine .inl
              ⟨(validate workspace defaults.separator entry right).1.errors failures, ?_, ?_⟩
            all_goals
              simp only [compile, grave, opened, again, reports, leftResult, rightResult,
                Bool.false_eq_true, if_false]
        | ok same =>
            have leftMade := compile_makes clean opened leftResult
            rw [reports] at leftMade
            exact .inr ⟨_, _, _, leftMade, compile_makes grave again rightResult, same⟩

/-! ### Any calls -/

theorem after_request_grown (workspace : Workspace) (cache : Cache) (request : Request) :
    workspace.Grown cache (afterRequest workspace cache request) := by
  cases request with
  | load load => exact load_grown workspace load cache
  | validate separator entry => exact validate_grown workspace separator entry cache
  | compile defaults entry draws => exact compile_grown workspace defaults entry cache draws

theorem after_requests_grown (workspace : Workspace) (cache : Cache) (requests : List Request) :
    workspace.Grown cache (afterRequests workspace cache requests) :=
  foldl_grown (afterRequest workspace) id (after_request_grown workspace) requests cache

/-- After any calls that started from nothing, a shared cache does not show. Loading, validating and
compiling answer as they do without it, except for what compiling draws. Every document is found at
its own location and says what the file there says. What was found once is found after any further
calls. A load that fails leaves the cache as it was, and fails in the same way ever after. -/
theorem shared_cache_transparent (workspace : Workspace) (requests : List Request) :
    let cache := afterRequests workspace .empty requests
    (∀ load : Load, (load.run workspace cache).1 = (load.run workspace .empty).1) ∧
    (∀ separator entry, (validate workspace separator entry cache).1 =
      (validate workspace separator entry .empty).1) ∧
    (∀ defaults entry draws freshDraws,
      (∃ failure, (compile workspace defaults entry cache draws).result = .error failure ∧
          (compile workspace defaults entry .empty freshDraws).result = .error failure) ∨
        ∃ report resolution freshResolution,
          Makes workspace defaults entry cache draws report resolution ∧
            Makes workspace defaults entry .empty freshDraws report freshResolution ∧
              resolution.SameButDrawn freshResolution) ∧
    (∀ document ∈ cache.documents, cache.find? document.location = some document ∧
      ∃ text, workspace.tree.readText document.location = .ok text ∧
        Yaml.Value.ofText text = .ok document.value) ∧
    (∀ further location document, cache.find? location = some document →
      (afterRequests workspace cache further).find? location = some document) ∧
    ∀ (load : Load) error, (load.run workspace cache).1 = .error error →
      (load.run workspace cache).2 = cache ∧
        ∀ further, (load.run workspace (afterRequests workspace cache further)).1 =
          .error error := by
  intro cache
  have shown : workspace.Grown .empty cache := after_requests_grown workspace .empty requests
  have fresh : workspace.Alike cache .empty := shown.alike.symm
  refine ⟨fun load => load_alike load fresh, fun separator entry => validate_alike _ _ fresh,
    fun defaults entry draws freshDraws => compile_alike fresh _ _ _ _, ?_, ?_, ?_⟩
  · intro document member
    obtain ⟨held, found⟩ := shown.documents_held document member
    exact ⟨found, (read_ok_iff.mp held).2⟩
  · intro further location document found
    exact (after_requests_grown workspace cache further).find_kept found
  · intro load error failed
    refine ⟨load_failed failed, fun further => ?_⟩
    rw [← load_alike load (after_requests_grown workspace cache further).alike]
    exact failed

end PromptLoom.Session
