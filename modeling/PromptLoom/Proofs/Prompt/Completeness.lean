import PromptLoom.Proofs.Prompt.Faults
import PromptLoom.Proofs.Prompt.Mentions
import PromptLoom.Proofs.Validation.Phases

/-!
# What is left to fail after the first four phases

The phases walk the references of documents one by one, a full resolution follows what the entry
ends up with. Every document that it opens has been visited, so nothing is left to fail but the
bodies, and mentions of chunks whose document is of another kind.
-/

namespace PromptLoom

open Workspace Resolver

set_option autoImplicit false

variable {workspace : Workspace}

/-- An error about a document that a config declares as a chunk and that is of another kind. -/
def StrayChunk (workspace : Workspace) (config : ResolvedConfig) (error : DocumentError) : Prop :=
  ∃ name decl document kind, config.chunks.get? name = some decl ∧
    workspace.target decl.reference decl.origin (Config.chunkField name) = .ok document ∧
    Kind.classify? document.value = some kind ∧ kind ≠ .chunk ∧
    error = ⟨document.path, none, .notChunk kind⟩

/-- Every error is about a body or a stray chunk. -/
def Excused (workspace : Workspace) (config : ResolvedConfig) (errors : List DocumentError) :
    Prop :=
  ∀ error ∈ errors, error.category = .template ∨ StrayChunk workspace config error

theorem AllTemplate.excused {errors : List DocumentError} (all : AllTemplate errors)
    (config : ResolvedConfig) : Excused workspace config errors :=
  fun error member => .inl (all error member)

theorem Excused.append {config : ResolvedConfig} {first second : List DocumentError}
    (one : Excused workspace config first) (two : Excused workspace config second) :
    Excused workspace config (first ++ second) := by
  intro error member
  rcases List.mem_append.mp member with left | right
  · exact one error left
  · exact two error right

theorem Excused.snoc {config : ResolvedConfig} {errors : List DocumentError} {error : DocumentError}
    (before : Excused workspace config errors)
    (last : error.category = .template ∨ StrayChunk workspace config error) :
    Excused workspace config (errors ++ [error]) := by
  intro other member
  rcases List.mem_append.mp member with earlier | new
  · exact before other earlier
  · rw [List.mem_singleton.mp new]
    exact last

namespace Expansion

structure Sane (workspace : Workspace) (config : ResolvedConfig) (state : Expansion) : Prop where
  sound : state.resolver.Sound workspace
  errors : Excused workspace config state.errors

theorem Sane.fail {config : ResolvedConfig} {state : Expansion} {error : DocumentError}
    (sane : state.Sane workspace config)
    (excused : error.category = .template ∨ StrayChunk workspace config error) :
    (state.fail error).Sane workspace config :=
  ⟨sane.sound, sane.errors.snoc excused⟩

section Cleared

variable {graph : Graph} {entry : Document} {entryConfig : Config} {config : ResolvedConfig}
  {own : List Finding} (named : workspace.tree.WellNamed) (clear : graph.Cleared workspace)
  (reads : graph.Reads workspace entry entryConfig) (merged : Merged workspace entry config own)

include named clear reads merged

theorem expand_ref_sane (field : String) {state : Expansion} (ref : ChunkRef)
    (sane : state.Sane workspace config) :
    (expandRef workspace config field state ref).2.Sane workspace config := by
  unfold expandRef
  rcases declared : config.chunks.get? ref.name with _ | decl
  · exact sane.fail (.inl rfl)
  obtain ⟨document, documentConfig, leads, documentReads⟩ :=
    clear.chunk_target reads merged (NameMap.mem_of_get? declared)
  obtain ⟨answer, sound⟩ := open_chunk_answer named sane.sound leads
  rcases opened : openChunk workspace ref.name decl state.resolver with ⟨result, resolver⟩
  rw [opened] at answer sound
  simp only [opened]
  by_cases isChunk : documentConfig.kind = .chunk
  · cases documentConfig with
    | template | prompt | variations => cases isChunk
    | chunk child =>
        obtain ⟨chunk, warnings, outlook, clean⟩ := clear.chunk_resolves documentReads
        rw [outlook] at answer
        obtain rfl : result = .ok chunk := answer
        obtain ⟨scope, resolved⟩ := Scope.resolve_clean sound.shown clean
        have grown := Scope.resolve_grown workspace chunk.imports resolver.cache
        rcases found : Scope.resolve workspace chunk.imports resolver.cache with ⟨outcome, cache⟩
        rw [found] at resolved grown
        obtain rfl : outcome = .ok scope := resolved
        simp only [found]
        exact ⟨sound.with_cache grown,
          sane.errors.append ((Chunk.fill_template chunk ref scope _).excused config)⟩
  · rw [chunk_outlook_stray documentReads.read isChunk] at answer
    obtain rfl : result = .error ⟨document.path, none, .notChunk documentConfig.kind⟩ := answer
    have kind := Config.read_kind documentReads.read
    exact ⟨sound, sane.errors.snoc
      (.inr ⟨ref.name, decl, document, _, declared, leads, kind, isChunk, rfl⟩)⟩

theorem expand_parts_sane (field : String) {state : Expansion} (parts : List BodyPart)
    (sane : state.Sane workspace config) :
    (expandParts workspace config field state parts).2.Sane workspace config := by
  refine expand_parts_keeps (Sane workspace config) ?_ ?_ parts sane
  · intro state problem sane
    exact sane.fail (.inl rfl)
  · intro state ref sane
    exact expand_ref_sane named clear reads merged field ref sane

theorem prepare_excused {separator : String} {scope : Scope} {resolver : Resolver} {draws : Draws}
    {errors : List DocumentError} (sound : resolver.Sound workspace)
    (failed : (prepare workspace separator config scope resolver draws).result = .error errors) :
    Excused workspace config errors := by
  have start : (Expansion.mk resolver scope [] []).Sane workspace config :=
    ⟨sound, all_template_nil.excused config⟩
  have first := expand_parts_sane named clear reads merged "prompt"
    (BodyPart.ofText config.positive) start
  have second := expand_parts_sane named clear reads merged "negative-prompt"
    (BodyPart.ofText config.negative) first
  rw [← reported failed]
  refine ((second.errors.append ?_).append ?_).append ?_
  · exact AllTemplate.excused (Cut.of_pieces_template _ _ _ _ _ _) config
  · exact AllTemplate.excused (Cut.of_pieces_template _ _ _ _ _ _) config
  · exact AllTemplate.excused (SlotTable.slots_template _ _ _ _) config

end Cleared

end Expansion

theorem resolve_prompt_prepares (named : workspace.tree.WellNamed) {graph : Graph}
    {entry : Document} {entryConfig : Config} {config : ResolvedConfig} {own : List Finding}
    {separator : String} {cache : Cache} {draws : Draws} {errors : List DocumentError}
    (clear : graph.Cleared workspace) (reads : graph.Reads workspace entry entryConfig)
    (merged : Merged workspace entry config own) (shown : workspace.Grown .empty cache)
    (failed : (resolvePrompt workspace separator entry cache draws).result = .error errors) :
    ∃ resolver scope, resolver.Sound workspace ∧
      (∃ earlier, (Scope.resolve workspace config.imports earlier).1 = .ok scope) ∧
      (prepare workspace separator config scope resolver draws).result = .error errors := by
  obtain ⟨resolved, after⟩ := merged.resolves named reads.held (.start shown)
  rcases run : Resolver.resolve workspace entry (.start cache) with ⟨outcome, resolver⟩
  rw [run] at resolved after
  obtain rfl : outcome = .ok config := resolved
  obtain ⟨scope, inScope⟩ := Scope.resolve_clean after.shown (clear.merged_imports reads merged)
  have grown := Scope.resolve_grown workspace config.imports resolver.cache
  rcases imported : Scope.resolve workspace config.imports resolver.cache with ⟨outcome, later⟩
  rw [imported] at inScope grown
  obtain rfl : outcome = .ok scope := inScope
  refine ⟨resolver.withCache later, scope, after.with_cache grown,
    ⟨resolver.cache, by rw [imported]⟩, ?_⟩
  simp only [resolvePrompt, run, imported] at failed
  rcases prepared : (prepare workspace separator config scope { resolver with cache := later }
      draws).result with found | done
  · rw [prepared] at failed
    obtain rfl := Except.error.inj failed
    exact prepared
  · rw [prepared] at failed
    cases failed

open Expansion in
/-- When the first four phases find no error, resolving the entry in full fails only over its
bodies, or over a chunk that it declares and whose document is of another kind. -/
theorem phases_complete (named : workspace.tree.WellNamed) {path : Path} {separator : String}
    {cache second third fourth : Cache} {draws : Draws} (shown : workspace.Grown .empty cache)
    (secondShown : workspace.Grown .empty second) (thirdShown : workspace.Grown .empty third)
    (fourthShown : workspace.Grown .empty fourth)
    (structural :
      (Graph.ofEntry workspace path cache).1.structureFindings.any Finding.isError = false)
    (paths : (Graph.ofEntry workspace path cache).1.pathFindings.any Finding.isError = false)
    (inheritance : ((Graph.ofEntry workspace path cache).1.inheritanceFindings workspace
      second).1.any Finding.isError = false)
    (imports : (Graph.importFindings workspace third
      (Graph.ofEntry workspace path cache).1.nodes).1.any Finding.isError = false) :
    ∃ entry config, (Graph.ofEntry workspace path cache).1.entry = some entry ∧
      (Resolver.resolve workspace entry (.start fourth)).1 = .ok config ∧
      ∀ errors,
        (resolvePrompt workspace separator entry fourth draws).result = .error errors →
        ∀ error ∈ errors, error.category = .template ∨ StrayChunk workspace config error := by
  obtain ⟨clear, entry, entryConfig, config, own, present, reads, merged⟩ :=
    Graph.cleared_entry named shown secondShown thirdShown structural paths inheritance imports
  obtain ⟨resolved, -⟩ := merged.resolves named reads.held (.start fourthShown)
  refine ⟨entry, config, present, resolved, ?_⟩
  intro errors failed
  obtain ⟨resolver, scope, sound, -, prepared⟩ :=
    resolve_prompt_prepares named clear reads merged fourthShown failed
  exact prepare_excused named clear reads merged sound prepared

def strayMention : Workspace where
  tree := ⟨[(["b"], .file "template: \"fine, \x7bprompt\x7d\"\n".toUTF8),
    (["p"], .file ("implements: b\ngeneration: \x7b\x7d\nchunks:\n  Part: b\n" ++
      "prompt: \"\x7bGhost\x7d @Part\"\n").toUTF8)]⟩
  directory := []

def ResolutionRun.errorCount (run : ResolutionRun) : Nat :=
  match run.result with
  | .error errors => errors.length
  | .ok _ => 0

theorem stray_mention_excused :
    ∃ entry config errors,
      (resolvePrompt strayMention "," entry .empty (.seeded 0)).result = .error errors ∧
        errors.length = 2 ∧
        ∀ error ∈ errors, error.category = .template ∨ StrayChunk strayMention config error := by
  have checked : (Graph.ofEntryWithin strayMention 5 ⟨"p"⟩).any (fun graph =>
      graph.startsClean strayMention &&
      graph.entry.any fun entry =>
        (resolvePrompt strayMention "," entry .empty (.seeded 0)).errorCount == 2) = true := by
    decide +kernel
  simp only [Option.any_eq_true, Bool.and_eq_true, Graph.starts_clean_iff, beq_iff_eq,
    ResolutionRun.errorCount] at checked
  obtain ⟨graph, explored, ⟨structural, paths, inheritance, imports⟩, document, present,
    failed⟩ := checked
  obtain rfl := Graph.of_entry_within explored
  obtain ⟨entry, config, found, _, excused⟩ := phases_complete (by decide +kernel) .same .same .same
    .same structural paths inheritance imports
  obtain rfl := Option.some.inj (present.symm.trans found)
  rcases resolved : (resolvePrompt strayMention "," document .empty (.seeded 0)).result
    with errors | resolution
  · rw [resolved] at failed
    exact ⟨document, config, errors, resolved, failed, excused errors resolved⟩
  · rw [resolved] at failed
    cases failed

end PromptLoom
