import PromptLoom.Proofs.Prompt.Expansion
import PromptLoom.Proofs.Selection.Drawing

/-!
# Resolving a prompt with other draws

Preparing a prompt draws only where a selector is a limit below the size of its set, and such a
selector takes the same number of variations whatever is drawn. So neither the errors of a
resolution nor anything in it but the variations behind such selectors depends on the draws.
-/

namespace PromptLoom

open Workspace

set_option autoImplicit false

/-- The same error on both sides, or values that are related. -/
inductive ResultsAgree {Error Value : Type} (related : Value → Value → Prop) :
    Except Error Value → Except Error Value → Prop where
  | error (failure : Error) : ResultsAgree related (.error failure) (.error failure)
  | ok {left right : Value} (agrees : related left right) :
      ResultsAgree related (.ok left) (.ok right)

theorem ResultsAgree.map {Error Value Image : Type} {related : Value → Value → Prop}
    {images : Image → Image → Prop} {left right : Except Error Value} {f g : Value → Image}
    (agrees : ResultsAgree related left right)
    (mapped : ∀ x y, related x y → images (f x) (g y)) :
    ResultsAgree images (left.map f) (right.map g) := by
  cases agrees with
  | error failure => exact .error failure
  | ok agrees => exact .ok (mapped _ _ agrees)

/-- Two slots that differ at most in the variations that a limit drew, never in their number. -/
structure Slot.SameButDrawn (left right : Slot) : Prop where
  name : left.name = right.name
  selector : left.selector = right.selector
  pool : left.pool = right.pool ∨
    ∃ count, left.selector.selection = .limit count ∧
      left.pool.length = count ∧ right.pool.length = count

/-- Two prepared prompts that differ at most in the variations that limits drew. -/
structure Prepared.SameButDrawn (left right : Prepared) : Prop where
  positive : left.positive = right.positive
  negative : left.negative = right.negative
  positiveText : left.positiveText = right.positiveText
  negativeText : left.negativeText = right.negativeText
  slots : List.Forall₂ Slot.SameButDrawn left.slots right.slots

/-- Two resolutions that differ at most in the variations that limits drew. -/
structure Resolution.SameButDrawn (left right : Resolution) : Prop where
  config : left.config = right.config
  warnings : left.warnings = right.warnings
  prepared : left.prepared.SameButDrawn right.prepared

namespace SlotTable

/-- Whether the pool of a slot is empty does not depend on the draws, so neither do its errors. -/
theorem slot_of_agrees (scope : Scope) (entry : SlotEntry) (left right : Draws) :
    ResultsAgree Slot.SameButDrawn (slotOf scope entry left).1 (slotOf scope entry right).1 := by
  unfold slotOf
  cases scope.get? entry.name with
  | none => exact .error _
  | some set =>
      cases parsed : Selector.parse (entry.selector.getD "") with
      | error problem => simp only [parsed]; exact .error _
      | ok selector =>
          have agrees := selector.select_agrees set left right
          have sizes : (selector.select set left).1.length = (selector.select set right).1.length := by
            rcases agrees with same | ⟨count, _, leftSize, rightSize⟩
            · rw [same]
            · rw [leftSize, rightSize]
          have blanks : (selector.select set left).1.isEmpty =
              (selector.select set right).1.isEmpty := by
            rw [Bool.eq_iff_iff, List.isEmpty_iff_length_eq_zero, List.isEmpty_iff_length_eq_zero,
              sizes]
          simp only [parsed, blanks]
          split
          · exact .ok ⟨rfl, rfl, agrees⟩
          · split
            · exact .error _
            · exact .error _

theorem slots_agree (file : Path) (scope : Scope) (table : SlotTable) (left right : Draws) :
    List.Forall₂ Slot.SameButDrawn (slots file scope table left).1 (slots file scope table right).1 ∧
      (slots file scope table left).2.1 = (slots file scope table right).2.1 := by
  induction table generalizing left right with
  | nil => exact ⟨.nil, rfl⟩
  | cons entry rest ih =>
      have first := slot_of_agrees scope entry left right
      unfold slots
      rcases leftSlot : slotOf scope entry left with ⟨leftResult, leftLater⟩
      rcases rightSlot : slotOf scope entry right with ⟨rightResult, rightLater⟩
      rw [leftSlot, rightSlot] at first
      obtain ⟨others, failures⟩ := ih leftLater rightLater
      cases first with
      | error cause => exact ⟨others, by simp only [failures]⟩
      | ok agrees => exact ⟨.cons agrees others, failures⟩

end SlotTable

/-- What the first body leaves behind is what the second starts from, so the two caches are followed
through both before the draws come in. -/
theorem prepare_agrees {workspace : Workspace} {resolver : Resolver} {other : Cache}
    (alike : workspace.Alike resolver.cache other) (separator : String) (config : ResolvedConfig)
    (scope : Scope) (left right : Draws) :
    let first := prepare workspace separator config scope resolver left
    let second := prepare workspace separator config scope (resolver.withCache other) right
    ResultsAgree Prepared.SameButDrawn first.result second.result ∧
      first.warnings = second.warnings ∧
      first.resolver.warnings = second.resolver.warnings := by
  rcases one : Expansion.expandBody workspace config "prompt" config.positive
    ⟨resolver, scope, [], []⟩ with ⟨positiveText, middle⟩
  obtain ⟨middleCache, middleAlike, oneAgain⟩ := Expansion.expand_body_alike alike one
  rcases two : Expansion.expandBody workspace config "negative-prompt" config.negative middle
    with ⟨negativeText, last⟩
  obtain ⟨lastCache, lastAlike, twoAgain⟩ := Expansion.expand_body_alike middleAlike two
  have start : (⟨resolver.withCache other, scope, [], []⟩ : Expansion) =
      Expansion.withCache ⟨resolver, scope, [], []⟩ other := rfl
  intro first second
  simp only [first, second, prepare, start, one, two, oneAgain, twoAgain]
  generalize Cut.ofPieces config.source "prompt" _ [] [] _ = positive
  generalize Cut.ofPieces config.source "negative-prompt" _ positive.table [] _ = negative
  obtain ⟨pools, failures⟩ := SlotTable.slots_agree config.source last.scope negative.table left right
  have scopes : (last.withCache lastCache).scope = last.scope := rfl
  have errors : (last.withCache lastCache).errors = last.errors := rfl
  refine ⟨?_, rfl, rfl⟩
  rw [scopes, errors, failures]
  split
  · exact .ok ⟨rfl, rfl, rfl, rfl, pools⟩
  · exact .error _

theorem prepare_grown (workspace : Workspace) (separator : String) (config : ResolvedConfig)
    (scope : Scope) (resolver : Resolver) (draws : Draws) :
    workspace.Grown resolver.cache
      (prepare workspace separator config scope resolver draws).resolver.cache :=
  (Expansion.expand_body_grown workspace config "prompt" config.positive
    ⟨resolver, scope, [], []⟩).trans (Expansion.expand_body_grown workspace config _ _ _)

theorem resolve_prompt_agrees {workspace : Workspace} {cache other : Cache}
    (alike : workspace.Alike cache other) (separator : String) (entry : Document)
    (left right : Draws) :
    ResultsAgree Resolution.SameButDrawn
      (resolvePrompt workspace separator entry cache left).result
      (resolvePrompt workspace separator entry other right).result := by
  unfold resolvePrompt
  have started : workspace.Alike (Resolver.start cache).cache other := alike
  rcases inherited : Resolver.resolve workspace entry (.start cache)
    with ⟨failure | config, resolver⟩
  all_goals
    obtain ⟨second, follows, again⟩ := Resolver.resolve_from_alike started inherited
    have restart : Resolver.resolve workspace entry (.start other) = _ := again
    simp only [restart]
  · exact .error _
  · rcases imported : Scope.resolve workspace config.imports resolver.cache
      with ⟨failures | scope, importCache⟩
    all_goals
      obtain ⟨third, stays, anew⟩ := Scope.resolve_alike follows imported
      simp only [Resolver.withCache, anew]
    · exact .error _
    · have imports : workspace.Alike { resolver with cache := importCache }.cache third := stays
      obtain ⟨results, warned, remembered⟩ := prepare_agrees imports separator config scope left right
      simp only [Resolver.withCache] at results warned remembered
      rw [warned, remembered]
      exact results.map fun _ _ agrees => ⟨rfl, rfl, agrees⟩

theorem resolve_prompt_grown (workspace : Workspace) (separator : String) (entry : Document)
    (cache : Cache) (draws : Draws) :
    workspace.Grown cache (resolvePrompt workspace separator entry cache draws).cache := by
  have first := Resolver.resolve_from_grown workspace workspace.tree.locations [] entry (.start cache)
  unfold resolvePrompt Resolver.resolve
  split
  · next inherited =>
      rw [inherited] at first
      exact first
  · next config resolver inherited =>
      rw [inherited] at first
      have second := Scope.resolve_grown workspace config.imports resolver.cache
      split
      · next imported =>
          rw [imported] at second
          exact first.trans second
      · next scope cache imported =>
          rw [imported] at second
          exact (first.trans second).trans
            (prepare_grown workspace separator config scope { resolver with cache } draws)

theorem prepare_errors_ne_nil {workspace : Workspace} {separator : String}
    {config : ResolvedConfig} {scope : Scope} {resolver : Resolver} {draws : Draws}
    {errors : List DocumentError}
    (failed : (prepare workspace separator config scope resolver draws).result = .error errors) :
    errors ≠ [] := by
  simp only [prepare] at failed
  split at failed
  · simp at failed
  · next some =>
      obtain rfl := Except.error.inj failed
      exact fun none => some (List.isEmpty_iff.mpr none)

theorem resolve_prompt_errors_ne_nil {workspace : Workspace} {separator : String}
    {entry : Document} {cache : Cache} {draws : Draws} {errors : List DocumentError}
    (failed : (resolvePrompt workspace separator entry cache draws).result = .error errors) :
    errors ≠ [] := by
  unfold resolvePrompt at failed
  rcases inherited : Resolver.resolve workspace entry (.start cache)
    with ⟨failure | config, resolver⟩
  · simp only [inherited, Except.error.injEq] at failed
    rw [← failed]
    exact List.cons_ne_nil _ _
  rcases imported : Scope.resolve workspace config.imports resolver.cache
    with ⟨failures | scope, later⟩
  · simp only [inherited, imported, Except.error.injEq] at failed
    rw [← failed]
    exact Scope.resolve_errors_ne_nil (congrArg Prod.fst imported)
  rcases prepared : (prepare workspace separator config scope { resolver with cache := later }
    draws).result with failures | done
  · simp only [inherited, imported, prepared, Except.map, Except.error.injEq] at failed
    rw [← failed]
    exact prepare_errors_ne_nil prepared
  · simp [inherited, imported, prepared, Except.map] at failed

end PromptLoom
