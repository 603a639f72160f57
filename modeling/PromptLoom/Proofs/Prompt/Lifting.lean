import PromptLoom.Proofs.Prompt.Mentions
import PromptLoom.Proofs.Prompt.Preparation
import PromptLoom.Proofs.Scope.Names

/-!
# The scope after chunks are expanded

A chunk that resolves together with its imports lifts each of them into the scope of the caller,
under the name of the chunk, a dot and the name of the import. After both bodies are expanded the
scope is that of the caller with the lifted imports of the mentioned chunks put over it: no other
name is added, none is lost, and where a lifted name is one of the caller's own, the chunk wins.
-/

namespace PromptLoom

open Workspace Resolver

set_option autoImplicit false

variable {workspace : Workspace}

/-- The sets of a chunk's own imports, none if the chunk or its imports do not resolve. -/
def ResolvedConfig.ownImports (workspace : Workspace) (config : ResolvedConfig)
    (chunkName : String) : Scope :=
  match config.chunks.get? chunkName with
  | none => .empty
  | some decl =>
      match decl.outlook workspace chunkName with
      | .ok (_, own) => own
      | .error _ => .empty

/-- A mention of a chunk makes a name stand for a set. -/
def ResolvedConfig.Lifts (workspace : Workspace) (config : ResolvedConfig)
    (chunkName name : String) (set : VariationSet) : Prop :=
  ∃ importName, name = chunkName ++ "." ++ importName ∧
    (config.ownImports workspace chunkName).get? importName = some set

def BodyPart.chunkName? : BodyPart → Option String
  | .mention _ (.ok ref) => some ref.name
  | .mention _ (.error _) => none
  | .char _ => none

def ResolvedConfig.mentioned (config : ResolvedConfig) : List String :=
  (BodyPart.ofText config.positive ++ BodyPart.ofText config.negative).filterMap
    BodyPart.chunkName?

theorem ChunkDecl.outlook_ordered {name : String} {decl : ChunkDecl} {chunk : ResolvedChunk}
    {own : Scope} (opens : decl.outlook workspace name = .ok (chunk, own)) : own.Ordered := by
  obtain ⟨_, _, _, _, resolved⟩ := ChunkDecl.outlook_opens.mp opens
  exact Scope.resolve_ordered resolved

theorem ResolvedConfig.own_imports_ordered (workspace : Workspace) (config : ResolvedConfig)
    (chunkName : String) :
    (config.ownImports workspace chunkName).Ordered := by
  unfold ownImports
  split
  · exact NameMap.empty_ordered
  · split
    · next opens => exact ChunkDecl.outlook_ordered opens
    · exact NameMap.empty_ordered

/-! ### Names under a chunk -/

theorem Text.ident_dot_free {name : List Char} (ident : isIdent name = true) : '.' ∉ name := by
  cases name with
  | nil => cases ident
  | cons c rest =>
      obtain ⟨start, others⟩ := Bool.and_eq_true_iff.mp ident
      intro dotted
      rcases List.mem_cons.mp dotted with rfl | later
      · exact absurd start (by decide)
      · exact absurd (List.all_eq_true.mp others _ later) (by decide)

theorem Text.dotted_name_injective {first second left right : String}
    (one : isIdent first.toList = true) (two : isIdent second.toList = true)
    (same : first ++ "." ++ left = second ++ "." ++ right) : first = second ∧ left = right := by
  have texts := congrArg String.toList same
  simp only [String.toList_append] at texts
  have front : ∀ name : List Char, '.' ∉ name → ∀ rest : List Char,
      (name ++ ".".toList ++ rest).takeWhile (· != '.') = name := by
    intro name free rest
    rw [List.append_assoc, List.takeWhile_append_of_pos]
    · simp
    · intro c member
      exact bne_iff_ne.mpr (ne_of_mem_of_not_mem member free)
  have heads := congrArg (List.takeWhile (· != '.')) texts
  rw [front _ (ident_dot_free one), front _ (ident_dot_free two)] at heads
  obtain rfl := String.toList_inj.mp heads
  exact ⟨rfl, (String.append_right_inj _).mp same⟩

theorem ResolvedConfig.lifts_unique {config : ResolvedConfig} {first second name : String}
    {left right : VariationSet} (one : Text.isIdent first.toList = true)
    (two : Text.isIdent second.toList = true) (leftLifts : config.Lifts workspace first name left)
    (rightLifts : config.Lifts workspace second name right) : first = second ∧ left = right := by
  obtain ⟨leftImport, leftName, leftSet⟩ := leftLifts
  obtain ⟨rightImport, rightName, rightSet⟩ := rightLifts
  obtain ⟨rfl, rfl⟩ := Text.dotted_name_injective one two (leftName.symm.trans rightName)
  exact ⟨rfl, Option.some.inj (leftSet.symm.trans rightSet)⟩

namespace Expansion

/-! ### Lifting -/

/-- Lifting answers a name under the chunk from the chunk's imports first, and leaves every other
name alone. -/
theorem get?_lift_imports {chunkName : String} {own : Scope} (ordered : own.Ordered)
    (scope : Scope) :
    (∀ importName, (liftImports chunkName own scope).get? (chunkName ++ "." ++ importName) =
      (own.get? importName).or (scope.get? (chunkName ++ "." ++ importName))) ∧
    ∀ name, (∀ importName, name ≠ chunkName ++ "." ++ importName) →
      (liftImports chunkName own scope).get? name = scope.get? name := by
  obtain ⟨entries⟩ := own
  simp only [liftImports]
  induction entries generalizing scope with
  | nil => exact ⟨fun _ => rfl, fun _ _ => rfl⟩
  | cons entry rest ih =>
      obtain ⟨imported, set⟩ := entry
      obtain ⟨below, later⟩ := List.pairwise_cons.mp ordered
      obtain ⟨under, apart⟩ := ih (scope.insert (chunkName ++ "." ++ imported) set) later
      simp only [List.foldl_cons]
      constructor
      · intro importName
        rw [under, NameMap.get?_insert]
        simp only [NameMap.get?, lookup_entry, String.append_right_inj]
        split
        · next same =>
            subst same
            have once : rest.lookup importName = none := by
              refine List.lookup_eq_none_iff.mpr fun other member => ?_
              exact bne_iff_ne.mpr (String.ne_of_lt (below other member))
            rw [once]
            rfl
        · rfl
      · intro name unlike
        rw [apart name unlike, NameMap.get?_insert, if_neg (unlike imported)]

theorem get?_lift_own (workspace : Workspace) (config : ResolvedConfig) (scope : Scope)
    (chunkName name : String) (set : VariationSet) :
    (liftImports chunkName (config.ownImports workspace chunkName) scope).get? name = some set ↔
      config.Lifts workspace chunkName name set ∨
        ((∀ other, ¬ config.Lifts workspace chunkName name other) ∧
          scope.get? name = some set) := by
  obtain ⟨under, apart⟩ :=
    get?_lift_imports (config.own_imports_ordered workspace chunkName) scope
  by_cases dotted : ∃ importName, name = chunkName ++ "." ++ importName
  · obtain ⟨importName, rfl⟩ := dotted
    have lifts : ∀ other, config.Lifts workspace chunkName (chunkName ++ "." ++ importName) other ↔
        (config.ownImports workspace chunkName).get? importName = some other := by
      intro other
      constructor
      · rintro ⟨otherImport, same, found⟩
        rw [(String.append_right_inj _).mp same]
        exact found
      · intro found
        exact ⟨importName, rfl, found⟩
    rw [under]
    simp only [lifts]
    cases (config.ownImports workspace chunkName).get? importName with
    | none => simp
    | some found => simp
  · have unlike : ∀ importName, name ≠ chunkName ++ "." ++ importName :=
      fun importName same => dotted ⟨importName, same⟩
    have free : ∀ other, ¬ config.Lifts workspace chunkName name other :=
      fun other ⟨importName, same, _⟩ => unlike importName same
    rw [apart name unlike]
    simp [free]

/-- The imports of some chunks lifted into a scope, one chunk after the other. -/
def liftChunks (workspace : Workspace) (config : ResolvedConfig) (scope : Scope)
    (names : List String) : Scope :=
  names.foldl
    (fun scope chunkName => liftImports chunkName (config.ownImports workspace chunkName) scope)
    scope

/-- The order of the chunks makes no difference to what a name stands for in the end. -/
theorem get?_lift_chunks (workspace : Workspace) (config : ResolvedConfig) (scope : Scope)
    {names : List String} (idents : ∀ chunkName ∈ names, Text.isIdent chunkName.toList = true)
    (name : String) (set : VariationSet) :
    (liftChunks workspace config scope names).get? name = some set ↔
      (∃ chunkName ∈ names, config.Lifts workspace chunkName name set) ∨
        ((∀ chunkName ∈ names, ∀ other, ¬ config.Lifts workspace chunkName name other) ∧
          scope.get? name = some set) := by
  induction names generalizing scope with
  | nil => simp [liftChunks]
  | cons first rest ih =>
      obtain ⟨firstIdent, restIdents⟩ := List.forall_mem_cons.mp idents
      have step := ih (liftImports first (config.ownImports workspace first) scope) restIdents
      rw [get?_lift_own] at step
      change (liftChunks workspace config _ rest).get? name = some set ↔ _
      rw [step]
      constructor
      · rintro (⟨chunkName, member, lifts⟩ | ⟨none, lifts | ⟨free, known⟩⟩)
        · exact .inl ⟨chunkName, List.mem_cons_of_mem _ member, lifts⟩
        · exact .inl ⟨first, List.mem_cons_self .., lifts⟩
        · exact .inr ⟨List.forall_mem_cons.mpr ⟨free, none⟩, known⟩
      · rintro (⟨chunkName, member, lifts⟩ | ⟨none, known⟩)
        · by_cases later : ∃ other ∈ rest, ∃ found, config.Lifts workspace other name found
          · obtain ⟨other, inside, found, otherLifts⟩ := later
            obtain ⟨-, rfl⟩ := ResolvedConfig.lifts_unique (idents chunkName member)
              (restIdents other inside) lifts otherLifts
            exact .inl ⟨other, inside, otherLifts⟩
          · have none : ∀ other ∈ rest, ∀ found, ¬ config.Lifts workspace other name found :=
              fun other inside found lifts => later ⟨other, inside, found, lifts⟩
            rcases List.mem_cons.mp member with rfl | inside
            · exact .inr ⟨none, .inl lifts⟩
            · exact absurd lifts (none chunkName inside set)
        · obtain ⟨free, others⟩ := List.forall_mem_cons.mp none
          exact .inr ⟨others, .inr ⟨free, known⟩⟩

end Expansion

namespace Expanded

open Expansion

theorem of_ref_scope (config : ResolvedConfig) (field : String) (scope : Scope) (ref : ChunkRef) :
    (ofRef workspace config field scope ref).scope =
      liftImports ref.name (config.ownImports workspace ref.name) scope := by
  unfold ofRef ResolvedConfig.ownImports
  rcases config.chunks.get? ref.name with _ | decl
  · rfl
  · rcases opens : decl.outlook workspace ref.name with errors | ⟨chunk, own⟩
    · simp only [opens]
      rfl
    · simp only [opens]

/-- A body changes the scope only by lifting the imports of the chunks that it mentions. -/
theorem of_parts_scope (config : ResolvedConfig) (field : String) (scope : Scope)
    (parts : List BodyPart) :
    (ofParts workspace config field scope parts).scope =
      liftChunks workspace config scope (parts.filterMap BodyPart.chunkName?) := by
  induction parts generalizing scope with
  | nil => rfl
  | cons part rest ih =>
      rw [ofParts]
      cases part with
      | char c => exact ih scope
      | mention source parsed =>
          cases parsed with
          | error problem => exact ih scope
          | ok ref =>
              have first : (ofPart workspace config field scope (.mention source (.ok ref))).scope =
                  liftImports ref.name (config.ownImports workspace ref.name) scope :=
                of_ref_scope config field scope ref
              dsimp only
              rw [first]
              exact ih _

theorem bodies_scope (config : ResolvedConfig) (scope : Scope) :
    let positive := ofParts workspace config "prompt" scope (BodyPart.ofText config.positive)
    let negative := ofParts workspace config "negative-prompt" positive.scope
      (BodyPart.ofText config.negative)
    negative.scope = liftChunks workspace config scope config.mentioned := by
  intro positive negative
  rw [of_parts_scope, of_parts_scope, ResolvedConfig.mentioned, List.filterMap_append]
  exact (List.foldl_append ..).symm

end Expanded

theorem ResolvedConfig.mentioned_ident {config : ResolvedConfig} {chunkName : String}
    (member : chunkName ∈ config.mentioned) : Text.isIdent chunkName.toList = true := by
  obtain ⟨part, inside, named⟩ := List.mem_filterMap.mp member
  unfold BodyPart.chunkName? at named
  split at named
  · obtain rfl := Option.some.inj named
    rcases List.mem_append.mp inside with positive | negative
    · exact BodyPart.scan_name_ident positive
    · exact BodyPart.scan_name_ident negative
  · cases named
  · cases named

theorem Expansion.get?_lift_none {config : ResolvedConfig} {scope : Scope} {name : String}
    (absent : (liftChunks workspace config scope config.mentioned).get? name = none) :
    (∀ chunkName ∈ config.mentioned, ∀ set, ¬ config.Lifts workspace chunkName name set) ∧
      scope.get? name = none := by
  have known := get?_lift_chunks workspace config scope
    (fun chunkName (member : chunkName ∈ config.mentioned) =>
      ResolvedConfig.mentioned_ident member) name
  simp only [absent, reduceCtorEq, false_iff, not_or, not_and, not_exists] at known
  have unlifted : ∀ chunkName ∈ config.mentioned, ∀ set,
      ¬ config.Lifts workspace chunkName name set :=
    fun chunkName member set => (known set).1 chunkName member
  exact ⟨unlifted, Option.eq_none_iff_forall_ne_some.mpr fun set => (known set).2 unlifted⟩

open Expansion in
/-- After both bodies are expanded a name stands for what a mentioned chunk lifts under it, and
otherwise for what it stood for in the scope of the caller. So a slot takes its variations from what
its name stands for there, unless a mentioned chunk lifts an import under the same name. -/
theorem caller_imports_kept (named : workspace.tree.WellNamed) {resolver : Resolver}
    (sound : resolver.Sound workspace) (separator : String) (config : ResolvedConfig)
    (scope : Scope) (draws : Draws) :
    let first := expandBody workspace config "prompt" config.positive ⟨resolver, scope, [], []⟩
    let second := expandBody workspace config "negative-prompt" config.negative first.2
    (∀ name set, second.2.scope.get? name = some set ↔
      (∃ chunkName ∈ config.mentioned, config.Lifts workspace chunkName name set) ∨
        ((∀ chunkName ∈ config.mentioned, ∀ other,
            ¬ config.Lifts workspace chunkName name other) ∧
          scope.get? name = some set)) ∧
    ∀ prepared, (prepare workspace separator config scope resolver draws).result = .ok prepared →
      ∀ slot ∈ prepared.slots, ∀ set, scope.get? slot.name = some set →
        (∀ chunkName ∈ config.mentioned, ∀ other,
          ¬ config.Lifts workspace chunkName slot.name other) →
        ∃ source : Draws, source.values = draws.values ∧
          slot.pool = (slot.selector.select set source).1 := by
  intro first second
  obtain ⟨_, _, after, _⟩ := expand_bodies_anew named config scope sound
  have lifted : second.2.scope = liftChunks workspace config scope config.mentioned :=
    after.trans (Expanded.bodies_scope config scope)
  have known := get?_lift_chunks workspace config scope
    fun chunkName (member : chunkName ∈ config.mentioned) => ResolvedConfig.mentioned_ident member
  rw [← lifted] at known
  refine ⟨known, ?_⟩
  intro prepared ready slot member set own free
  obtain ⟨table, _, filled⟩ := prepare_table ready
  obtain ⟨entry, _, same, _, found, inScope, _, source, values, pool⟩ :=
    SlotTable.filled_from filled member
  rw [← same] at inScope
  have kept := (known slot.name set).mpr (.inr ⟨free, own⟩)
  obtain rfl := Option.some.inj (inScope.symm.trans kept)
  exact ⟨source, values, pool⟩

def facePortrait : Workspace where
  tree := ⟨[(["c"], .file "type: x\nimports:\n  Eyes: v.yaml\ntemplate: \"\x7bEyes\x7d\"\n".toUTF8),
    (["v.yaml"], .file "k: chunk eyes\n".toUTF8)]⟩
  directory := []

theorem portrait_well_named : facePortrait.tree.WellNamed := by decide +kernel

def portraitConfig : ResolvedConfig where
  source := ⟨"/p"⟩
  name := ""
  parameters := .empty
  imports := .empty
  chunks := .ofList [("Face", ⟨"c", ⟨"/p"⟩⟩)]
  loras := .empty
  positive := "@Face \x7bFace.Eyes\x7d \x7bHair\x7d"
  negative := ""
  generation := none

def portraitScope : Scope :=
  .ofList [("Face.Eyes", .ofList [("k", "own eyes")]), ("Hair", .ofList [("k", "own hair")])]

theorem portrait_scope_lifted :
    let first := Expansion.expandBody facePortrait portraitConfig "prompt" portraitConfig.positive
      ⟨.start .empty, portraitScope, [], []⟩
    let second := Expansion.expandBody facePortrait portraitConfig "negative-prompt"
      portraitConfig.negative first.2
    second.2.scope.get? "Face.Eyes" = some (.ofList [("k", "chunk eyes")]) ∧
      second.2.scope.get? "Hair" = some (.ofList [("k", "own hair")]) := by
  intro first second
  obtain ⟨known, _⟩ := caller_imports_kept portrait_well_named (.start .same) "," portraitConfig
    portraitScope (.seeded 0)
  have mentioned : portraitConfig.mentioned = ["Face"] := by decide +kernel
  rw [mentioned] at known
  refine ⟨(known _ _).mpr (.inl ⟨"Face", List.mem_singleton_self _, "Eyes", by decide, ?_⟩),
    (known _ _).mpr (.inr ⟨?_, by decide +kernel⟩)⟩
  · decide +kernel
  · rintro chunkName member other ⟨importName, same, _⟩
    rw [List.mem_singleton.mp member] at same
    have texts := congrArg String.toList same
    simp at texts

/-- An import of a chunk does take the place of one of the caller's own. -/
theorem caller_import_replaced : ¬ ∀ (workspace : Workspace) (config : ResolvedConfig)
    (scope : Scope) (resolver : Resolver), workspace.tree.WellNamed → resolver.Sound workspace →
    let first := Expansion.expandBody workspace config "prompt" config.positive
      ⟨resolver, scope, [], []⟩
    let second := Expansion.expandBody workspace config "negative-prompt" config.negative first.2
    ∀ name set, scope.get? name = some set → second.2.scope.get? name = some set := by
  intro kept
  have own := kept facePortrait portraitConfig portraitScope (.start .empty) portrait_well_named
    (.start .same) "Face.Eyes" (.ofList [("k", "own eyes")]) (by decide +kernel)
  exact absurd own (by decide +kernel)

end PromptLoom
