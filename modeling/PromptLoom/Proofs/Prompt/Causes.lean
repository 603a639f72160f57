import PromptLoom.Proofs.Prompt.Faults
import PromptLoom.Proofs.Prompt.Lifting

/-!
# What stands behind the errors of a prompt

Every error of preparing a prompt goes back to one mention in its bodies, to two selectors under one
name, or to a name that gets no slot from the scope after the chunks are expanded.
-/

namespace PromptLoom

open Workspace Resolver

set_option autoImplicit false

variable {workspace : Workspace}

namespace Expanded

inductive RefFault (workspace : Workspace) (config : ResolvedConfig) (field : String)
    (ref : ChunkRef) : DocumentError → Prop where
  | undeclared (unknown : config.chunks.get? ref.name = none) :
      RefFault workspace config field ref ⟨config.source, some field, .unknownChunk ref.name⟩
  | closed (decl : ChunkDecl) (errors : List DocumentError) (error : DocumentError)
      (declared : config.chunks.get? ref.name = some decl)
      (fails : decl.outlook workspace ref.name = .error errors) (member : error ∈ errors) :
      RefFault workspace config field ref error
  | filling (decl : ChunkDecl) (chunk : ResolvedChunk) (own : Scope) (error : DocumentError)
      (declared : config.chunks.get? ref.name = some decl)
      (opens : decl.outlook workspace ref.name = .ok (chunk, own))
      (fault : Chunk.Fault chunk ref own error) : RefFault workspace config field ref error

inductive Fault (workspace : Workspace) (config : ResolvedConfig) (field : String)
    (parts : List BodyPart) : DocumentError → Prop where
  | malformed (problem : MentionError) :
      Fault workspace config field parts ⟨config.source, some field, .malformedMention problem⟩
  | mention (source : List Char) (ref : ChunkRef) (error : DocumentError)
      (written : .mention source (.ok ref) ∈ parts)
      (fault : RefFault workspace config field ref error) :
      Fault workspace config field parts error

variable {config : ResolvedConfig} {field : String} {error : DocumentError}

theorem of_ref_fault {scope : Scope} {ref : ChunkRef}
    (member : error ∈ (ofRef workspace config field scope ref).errors) :
    RefFault workspace config field ref error := by
  unfold ofRef at member
  rcases declared : config.chunks.get? ref.name with _ | decl
  · rw [declared] at member
    rw [List.mem_singleton.mp member]
    exact .undeclared declared
  rcases opens : decl.outlook workspace ref.name with errors | ⟨chunk, own⟩
  · simp only [declared, opens] at member
    exact .closed decl errors error declared opens member
  · simp only [declared, opens] at member
    exact .filling decl chunk own error declared opens (Chunk.fill_fault member)

theorem of_parts_fault {scope : Scope} {parts : List BodyPart}
    (member : error ∈ (ofParts workspace config field scope parts).errors) :
    Fault workspace config field parts error := by
  induction parts generalizing scope with
  | nil => cases member
  | cons part rest ih =>
      rcases List.mem_append.mp member with first | later
      · cases part with
        | char c => cases first
        | mention source parsed =>
            cases parsed with
            | error problem =>
                rw [List.mem_singleton.mp first]
                exact .malformed problem
            | ok ref => exact .mention source ref error (List.mem_cons_self ..) (of_ref_fault first)
      · cases ih later with
        | malformed problem => exact .malformed problem
        | mention source ref _ written fault =>
            exact .mention source ref error (List.mem_cons_of_mem _ written) fault

end Expanded

theorem Cut.of_pieces_free {file : Path} {field : String} {loras pending : List Char}
    {table : SlotTable} {pieces : List Piece}
    (free : ∀ name ∈ table.map SlotEntry.name, Placeholder.isReserved name = false) :
    ∀ name ∈ (ofPieces file field loras table pending pieces).table.map SlotEntry.name,
      Placeholder.isReserved name = false := by
  induction pieces generalizing table pending with
  | nil => exact free
  | cons piece rest ih =>
      cases piece with
      | char c => exact ih free
      | placeholder found =>
          unfold ofPieces
          split
          · exact ih free
          next unreserved =>
          split
          · next next done =>
              apply ih
              rcases SlotTable.register_cases done with
                ⟨_, _, rfl⟩ | ⟨entry, _, _, rfl, _⟩
              · intro name member
                rw [List.map_append, List.mem_append] at member
                rcases member with old | new
                · exact free name old
                · rw [List.mem_singleton.mp new]
                  simpa using unreserved
              · rw [SlotTable.map_name_modify]
                exact free
          · exact ih free

inductive PrepareFault (workspace : Workspace) (config : ResolvedConfig) (scope : Scope)
    (error : DocumentError) : Prop where
  | positive
      (fault : Expanded.Fault workspace config "prompt" (BodyPart.ofText config.positive) error)
  | negative
      (fault : Expanded.Fault workspace config "negative-prompt" (BodyPart.ofText config.negative)
        error)
  | conflict (name first second : String)
      (same : error.cause = .conflictingSelectors name first second)
  | slot (entry : SlotEntry) (free : Placeholder.isReserved entry.name = false)
      (fault : SlotTable.Fault
        (Expansion.liftChunks workspace config scope config.mentioned) entry error.cause)

theorem prepare_fault (named : workspace.tree.WellNamed) {separator : String}
    {config : ResolvedConfig} {scope : Scope} {resolver : Resolver} {draws : Draws}
    {errors : List DocumentError} {error : DocumentError} (sound : resolver.Sound workspace)
    (failed : (prepare workspace separator config scope resolver draws).result = .error errors)
    (member : error ∈ errors) : PrepareFault workspace config scope error := by
  obtain ⟨_, _, after, expanded⟩ := Expansion.expand_bodies_anew named config scope sound
  rw [Expanded.bodies_scope] at after
  rw [← reported failed] at member
  rcases List.mem_append.mp member with early | slots
  rcases List.mem_append.mp early with earlier | second
  rcases List.mem_append.mp earlier with mentioned | first
  · rcases List.mem_append.mp (expanded ▸ mentioned) with positive | negative
    · exact .positive (Expanded.of_parts_fault positive)
    · exact .negative (Expanded.of_parts_fault negative)
  · obtain ⟨name, one, other, same⟩ := Cut.of_pieces_fault first
    exact .conflict name one other same
  · obtain ⟨name, one, other, same⟩ := Cut.of_pieces_fault second
    exact .conflict name one other same
  · obtain ⟨entry, inside, fault⟩ := SlotTable.slots_fault slots
    refine .slot entry ?_ (after ▸ fault)
    refine Cut.of_pieces_free ?_ entry.name (List.mem_map_of_mem inside)
    exact Cut.of_pieces_free fun _ nothing => nomatch nothing

end PromptLoom
