import PromptLoom.Proofs.Chunk.Filling
import PromptLoom.Proofs.Prompt.Expansion
import PromptLoom.Proofs.Prompt.Seams
import PromptLoom.Proofs.Text.Placeholders

/-!
# What the mentions of a body show

An expanded body is its fixed text with the text that each mention shows in between. Where nothing
fails, such a text is the filled body of the chunk that is mentioned, and every placeholder in it goes
back to a text for a placeholder of the chunk, to an import of the chunk, or to an edge.
-/

namespace PromptLoom

open Text

set_option autoImplicit false

/-! ### Where the placeholders of a filled chunk come from -/

namespace Chunk

/-- A text for a placeholder of a chunk: bound in the mention, or an override or a default, looked up
where it refers to a variation. -/
inductive Supplied (chunk : ResolvedChunk) (ref : ChunkRef) (own caller : Scope)
    (hole : Placeholder) : String → Prop where
  | bound {text : String} (given : bound? ref hole.name = some text) :
      Supplied chunk ref own caller hole text
  | override {value text : String} (written : chunk.overrides.get? hole.name = some value)
      (stands : ValueRef.resolve value [own, caller] chunk.source ("overrides." ++ hole.name) =
        .ok text) : Supplied chunk ref own caller hole text
  | fallback {value text : String} (written : chunk.defaults.get? hole.name = some value)
      (stands : ValueRef.resolve value [own, caller] chunk.source ("defaults." ++ hole.name) =
        .ok text) : Supplied chunk ref own caller hole text

variable {chunk : ResolvedChunk} {ref : ChunkRef} {own caller : Scope}

theorem filling_supplied {hole : Placeholder} {text : String}
    (filled : filling chunk ref own caller hole = .ok text) :
    Supplied chunk ref own caller hole text ∨
      text = String.ofList (lifted ref.name hole).printed := by
  unfold filling at filled
  dsimp only at filled
  split at filled
  · cases filled
  split at filled
  · next given =>
      obtain rfl := Except.ok.inj filled
      exact .inl (.bound given)
  split at filled
  · next written => exact .inl (.override written filled)
  split at filled
  · next written => exact .inl (.fallback written filled)
  split at filled
  · exact .inr (Except.ok.inj filled).symm
  · cases filled

theorem lifted_placeholders {chunkName : String} {hole : Placeholder}
    (ident : isIdent chunkName.toList = true) (formed : hole.WellFormed) :
    placeholdersIn (lifted chunkName hole).printed = [lifted chunkName hole] := by
  have lifts : (lifted chunkName hole).WellFormed := by
    refine ⟨?_, formed.selector⟩
    simpa [lifted] using Dotted.dot ident formed.name
  rw [placeholders_in_read (Placeholder.read?_iff.mpr ⟨lifts, (List.append_nil _).symm⟩),
    placeholders_in_nil]

/-- A placeholder gets into a filled chunk with a text for one of the placeholders of the chunk, by
lifting one of them, or where texts come to stand side by side. -/
theorem filled_from {text : String} (clean : fill chunk ref own caller = (text, []))
    (ident : isIdent ref.name.toList = true) {found : Placeholder}
    (member : found ∈ placeholders text) :
    (∃ hole ∈ placeholders chunk.body, found = lifted ref.name hole ∨
        ∃ value, Supplied chunk ref own caller hole value ∧ found ∈ placeholders value) ∨
      ∃ front piece behind, filledTexts chunk ref own caller = front ++ piece :: behind ∧
        straddling piece behind.flatten = some found := by
  rw [fill_eq] at clean
  obtain ⟨rfl, faultless⟩ := Prod.mk.inj clean
  rw [placeholders_of_list, placeholders_in_flatten] at member
  refine (mem_placeholders_across.mp member).imp ?_ id
  intro inside
  rw [← List.mem_flatMap, filledTexts, Piece.ofText, Piece.texts_placeholders,
    List.mem_flatMap] at inside
  obtain ⟨hole, written, shows⟩ := inside
  have filled := fault?_eq_none (List.filterMap_eq_nil_iff.mp faultless hole written)
  refine ⟨hole, written, ?_⟩
  rcases filling_supplied filled with supplied | same
  · exact .inr ⟨_, supplied, (placeholders_of_list _).symm ▸ shows⟩
  · have formed := (mem_placeholders_in_iff.mp written).1
    rw [String.ofList_injective same, lifted_placeholders ident formed] at shows
    exact .inl (List.mem_singleton.mp shows)

end Chunk

/-! ### What the mentions of a body show -/

namespace Expansion

variable (workspace : Workspace) (config : ResolvedConfig) (field : String)

def expandPart (state : Expansion) : BodyPart → List Char × Expansion
  | .char c => ([c], state)
  | .mention _ (.ok ref) =>
      let (text, state) := expandRef workspace config field state ref
      (text.toList, state)
  | .mention source (.error problem) =>
      (source, state.fail ⟨config.source, some field, .malformedMention problem⟩)

def expandRuns (state : Expansion) : List (BodyPart × List Char) → List (List Char × List Char)
  | [] => []
  | (part, run) :: rest =>
      let (text, state) := expandPart workspace config field state part
      (text, run) :: expandRuns state rest

def texts (state : Expansion) (parts : List BodyPart) : List (List Char) :=
  (BodyPart.runs parts).1 :: (expandRuns workspace config field state
    (BodyPart.runs parts).2).flatMap fun (shown, run) => [shown, run]

variable {workspace config field}

theorem expand_part_ref (state : Expansion) (source : List Char) (ref : ChunkRef) :
    expandPart workspace config field state (.mention source (.ok ref)) =
      ((expandRef workspace config field state ref).1.toList,
        (expandRef workspace config field state ref).2) := rfl

theorem expand_parts_cons (state : Expansion) (part : BodyPart) (rest : List BodyPart) :
    let first := expandPart workspace config field state part
    let others := expandParts workspace config field first.2 rest
    expandParts workspace config field state (part :: rest) = (first.1 ++ others.1, others.2) := by
  rcases part with c | ⟨source, problem | ref⟩ <;> rfl

theorem texts_flatten (state : Expansion) (parts : List BodyPart) :
    (texts workspace config field state parts).flatten =
      (expandParts workspace config field state parts).1 := by
  induction parts generalizing state with
  | nil => rfl
  | cons part rest ih =>
      have shown := ih (expandPart workspace config field state part).2
      rw [texts, List.flatten_cons] at shown
      rw [expand_parts_cons, ← shown]
      cases part with
      | char c => rfl
      | mention source parsed => simp [texts, BodyPart.runs, expandRuns]

theorem expand_runs_fixed (state : Expansion) (pairs : List (BodyPart × List Char)) :
    (expandRuns workspace config field state pairs).map Prod.snd = pairs.map Prod.snd := by
  induction pairs generalizing state with
  | nil => rfl
  | cons pair rest ih => exact congrArg (pair.2 :: ·) (ih _)

theorem expand_ref_warnings {state : Expansion} {ref : ChunkRef} {finding : Finding}
    (member : finding ∈ (expandRef workspace config field state ref).2.warnings) :
    finding ∈ state.warnings ∨ finding.field = some field := by
  unfold expandRef at member
  split at member
  · exact .inl member
  split at member
  · exact .inl member
  split at member
  · exact .inl member
  · rcases List.mem_append.mp member with earlier | new
    · exact .inl earlier
    · obtain ⟨binding, -, rfl⟩ := List.mem_map.mp new
      exact .inr rfl

theorem expand_parts_warnings {state : Expansion} {parts : List BodyPart} {finding : Finding}
    (member : finding ∈ (expandParts workspace config field state parts).2.warnings) :
    finding ∈ state.warnings ∨ finding.field = some field := by
  revert member
  refine expand_parts_keeps (fun later =>
    finding ∈ later.warnings → finding ∈ state.warnings ∨ finding.field = some field) ?_ ?_ parts
    .inl
  · intro later problem kept
    exact kept
  · intro later ref kept member
    exact (expand_ref_warnings member).elim kept .inr

end Expansion

/-- What stands behind a text that a mention shows: the chunk that it names opens with its imports, and
its body is filled without an error. -/
structure ShownBy (workspace : Workspace) (config : ResolvedConfig) (ref : ChunkRef)
    (chunk : ResolvedChunk) (own caller : Scope) (text : String) : Prop where
  ident : isIdent ref.name.toList = true
  opens : ∃ decl resolver, config.chunks.get? ref.name = some decl ∧
    (Expansion.openChunk workspace ref.name decl resolver).1 = .ok chunk
  imports : ∃ cache, (Scope.resolve workspace chunk.imports cache).1 = .ok own
  fills : Chunk.fill chunk ref own caller = (text, [])

namespace Expansion

variable {workspace : Workspace} {config : ResolvedConfig} {field : String}

theorem expand_ref_shown {state : Expansion} {ref : ChunkRef}
    (ident : isIdent ref.name.toList = true)
    (clean : (expandRef workspace config field state ref).2.errors = []) :
    ∃ chunk own caller, ShownBy workspace config ref chunk own caller
      (expandRef workspace config field state ref).1 := by
  unfold expandRef at clean ⊢
  rcases declared : config.chunks.get? ref.name with _ | decl
  · simp [declared, fail] at clean
  rcases opened : openChunk workspace ref.name decl state.resolver with ⟨failure | chunk, resolver⟩
  · simp [declared, opened, fail] at clean
  rcases resolved : Scope.resolve workspace chunk.imports resolver.cache with ⟨failures | own, cache⟩
  · simp only [declared, opened, resolved, List.append_eq_nil_iff] at clean
    exact absurd clean.2 (Scope.resolve_errors_ne_nil (congrArg Prod.fst resolved))
  simp only [declared, opened, resolved, List.append_eq_nil_iff] at clean ⊢
  exact ⟨chunk, own, liftImports ref.name own state.scope, ident,
    ⟨decl, _, declared, congrArg Prod.fst opened⟩, ⟨_, congrArg Prod.fst resolved⟩,
    Prod.ext rfl clean.2⟩

theorem expand_runs_shown {state : Expansion} {parts : List BodyPart}
    (idents : ∀ source ref, .mention source (.ok ref) ∈ parts → isIdent ref.name.toList = true)
    (clean : (expandParts workspace config field state parts).2.errors = []) {text : List Char}
    (member : text ∈ (expandRuns workspace config field state
      (BodyPart.runs parts).2).map Prod.fst) :
    ∃ source ref chunk own caller, .mention source (.ok ref) ∈ parts ∧
      ShownBy workspace config ref chunk own caller (String.ofList text) := by
  induction parts generalizing state with
  | nil => cases member
  | cons part rest ih =>
      have others := fun source ref inside => idents source ref (List.mem_cons_of_mem _ inside)
      rw [expand_parts_cons] at clean
      have begun : (expandPart workspace config field state part).2.errors = [] :=
        List.prefix_nil.mp (clean ▸ expand_parts_errors workspace config field _ rest)
      have later (member : text ∈ (expandRuns workspace config field
          (expandPart workspace config field state part).2 (BodyPart.runs rest).2).map Prod.fst) :
          ∃ source ref chunk own caller, .mention source (.ok ref) ∈ part :: rest ∧
            ShownBy workspace config ref chunk own caller (String.ofList text) := by
        obtain ⟨source, ref, chunk, own, caller, inside, shown⟩ := ih others clean member
        exact ⟨source, ref, chunk, own, caller, List.mem_cons_of_mem _ inside, shown⟩
      rcases part with c | ⟨source, problem | ref⟩
      · exact later member
      · simp [expandPart, fail] at begun
      · have first : (expandRuns workspace config field state
            (BodyPart.runs (.mention source (.ok ref) :: rest)).2).map Prod.fst =
            (expandPart workspace config field state (.mention source (.ok ref))).1 ::
              (expandRuns workspace config field (expandPart workspace config field state
                (.mention source (.ok ref))).2 (BodyPart.runs rest).2).map Prod.fst := rfl
        rw [first, List.mem_cons] at member
        rcases member with same | behind
        · rw [expand_part_ref] at begun same
          obtain ⟨chunk, own, caller, shown⟩ :=
            expand_ref_shown (idents source ref (List.mem_cons_self ..)) begun
          refine ⟨source, ref, chunk, own, caller, List.mem_cons_self .., ?_⟩
          rwa [same, String.ofList_toList]
        · exact later behind

end Expansion

end PromptLoom
