import PromptLoom.Prompt.Compiled
import PromptLoom.Proofs.Validation.Clean

/-!
# Validation and compilation agree

Compiling validates an entry and then resolves it once more, with draws of its own. The second
resolution sees the documents that the first one saw and takes as many variations everywhere, so it
succeeds exactly when the report is clean, and its result depends on the draws only where a limit
draws.
-/

namespace PromptLoom

open Workspace

set_option autoImplicit false

theorem compile_with_errors {workspace : Workspace} {defaults : Defaults} {entry : Path}
    {cache : Cache} (wrong : (validate workspace defaults.separator entry cache).1.hasErrors = true)
    (draws : Draws) :
    (compile workspace defaults entry cache draws).result =
      .error (validate workspace defaults.separator entry cache).1 := by
  simp only [compile, wrong, if_true]

/-- After a clean report every draws lead to a prompt. The document and the cache that it is
resolved with do not depend on them. -/
theorem compile_after_clean {workspace : Workspace} {defaults : Defaults} {entry : Path}
    {cache : Cache} (clean : (validate workspace defaults.separator entry cache).1.hasErrors = false) :
    ∃ document start, (workspace.openEntry entry cache).1 = .ok document ∧
      ∀ draws, ∃ resolution seed,
        (resolvePrompt workspace defaults.separator document start draws).result =
            .ok resolution ∧
          (compile workspace defaults entry cache draws).result =
            .ok (.ofResolution resolution
              (validate workspace defaults.separator entry cache).1 defaults (.seeded seed)) := by
  obtain ⟨document, opened, between, resolution, entered, shown, resolved⟩ := validate_clean clean
  have later : workspace.Alike cache (validate workspace defaults.separator entry cache).2 :=
    (validate_grown workspace defaults.separator entry cache).alike
  obtain ⟨start, reentered, _⟩ := later.open_entry entered
  have startShown : workspace.Alike cache start := by
    have grown := open_entry_grown workspace entry
      (validate workspace defaults.separator entry cache).2
    rw [reentered] at grown
    exact later.trans grown.alike
  refine ⟨document, start, by rw [entered], fun draws => ?_⟩
  have agrees := resolve_prompt_agrees (shown.symm.trans startShown) defaults.separator document
    (.seeded 0) draws
  rw [resolved] at agrees
  cases again : (resolvePrompt workspace defaults.separator document start draws).result with
  | error errors =>
      rw [again] at agrees
      cases agrees
  | ok second =>
      refine ⟨second, ((resolvePrompt workspace defaults.separator document start draws).draws.below
        Seeds.wordCount).1, rfl, ?_⟩
      simp only [compile, clean, reentered, again, Bool.false_eq_true, if_false]

/-- Compiling succeeds exactly when validating finds no error, and a failure reports at least one.
Two sources of draws lead to one and the same failure, or to prompts with the same merged fields,
bodies, segments and slots, where at most the variations drawn by limits differ, never their
number. The cache may hold anything that earlier runs have left in it. -/
theorem compile_agrees_with_validate (workspace : Workspace) (defaults : Defaults) (entry : Path)
    (cache : Cache) :
    let report := (validate workspace defaults.separator entry cache).1
    let compiled := fun draws => (compile workspace defaults entry cache draws).result
    (∀ draws, (∃ prompt, compiled draws = .ok prompt) ↔ report.hasErrors = false) ∧
      (∀ draws failure, compiled draws = .error failure → failure.hasErrors = true) ∧
      ∀ left right,
        (∃ failure, compiled left = .error failure ∧ compiled right = .error failure) ∨
          ∃ document start leftResolution rightResolution leftSeed rightSeed,
            (workspace.openEntry entry cache).1 = .ok document ∧
              (resolvePrompt workspace defaults.separator document start left).result =
                .ok leftResolution ∧
              (resolvePrompt workspace defaults.separator document start right).result =
                .ok rightResolution ∧
              leftResolution.SameButDrawn rightResolution ∧
              compiled left =
                .ok (.ofResolution leftResolution report defaults (.seeded leftSeed)) ∧
              compiled right =
                .ok (.ofResolution rightResolution report defaults (.seeded rightSeed)) := by
  intro report compiled
  cases grave : report.hasErrors with
  | true =>
      have failed (draws : Draws) : compiled draws = .error report :=
        compile_with_errors grave draws
      refine ⟨fun draws => ?_, fun draws failure same => ?_, fun left right => ?_⟩
      · rw [failed draws]
        simp
      · rw [failed draws] at same
        rw [← Except.error.inj same]
        exact grave
      · exact .inl ⟨report, failed left, failed right⟩
  | false =>
      obtain ⟨document, start, entered, resolves⟩ := compile_after_clean grave
      have made (draws : Draws) : ∃ prompt, compiled draws = .ok prompt := by
        obtain ⟨resolution, seed, _, same⟩ := resolves draws
        exact ⟨_, same⟩
      refine ⟨fun draws => ?_, fun draws failure same => ?_, fun left right => ?_⟩
      · simp only [made draws]
      · obtain ⟨prompt, done⟩ := made draws
        rw [done] at same
        cases same
      · obtain ⟨leftResolution, leftSeed, leftResolved, leftMade⟩ := resolves left
        obtain ⟨rightResolution, rightSeed, rightResolved, rightMade⟩ := resolves right
        have agrees := resolve_prompt_agrees (Alike.refl workspace start) defaults.separator
          document left right
        rw [leftResolved, rightResolved] at agrees
        cases agrees with
        | ok same =>
            exact .inr ⟨document, start, leftResolution, rightResolution, leftSeed, rightSeed,
              entered, leftResolved, rightResolved, same, leftMade, rightMade⟩

end PromptLoom
