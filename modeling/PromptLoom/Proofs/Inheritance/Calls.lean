import PromptLoom.Proofs.Inheritance.Ledger

/-!
# Calls to one resolver

A resolver answers any calls in any order, and what it remembers never shows: every answer is the
one that a resolver without any memory gives. A chain of parents that comes back to one of its
members is never remembered, and its error names the documents on the way.
-/

namespace PromptLoom.Resolver

open Relation Workspace

set_option autoImplicit false

variable {workspace : Workspace}

inductive Call where
  | resolve (document : Document)
  | resolveChunk (document : Document)

def Call.document : Call → Document
  | .resolve document => document
  | .resolveChunk document => document

def afterCall (workspace : Workspace) (resolver : Resolver) : Call → Resolver
  | .resolve document => (resolve workspace document resolver).2
  | .resolveChunk document => (resolveChunk workspace document resolver).2

def afterCalls (workspace : Workspace) (resolver : Resolver) (calls : List Call) : Resolver :=
  calls.foldl (afterCall workspace) resolver

/-- The template that a template or prompt refers to, if both can be read. -/
def parent? (workspace : Workspace) (child : Document) : Option Document := do
  let config ← child.read.toOption
  let (layer, _) ← layerOf? config
  let reference ← layer.implements
  let parent ← (workspace.target reference child.path "implements").toOption
  let .template _ ← parent.read.toOption | none
  some parent

/-- A document refers to a template, and both can be read. -/
def Implements (workspace : Workspace) (child parent : Document) : Prop :=
  parent? workspace child = some parent

/-- The documents passed on the way from one document up to another. -/
inductive Ascent (workspace : Workspace) (start : Document) : List Document → Document → Prop where
  | here : Ascent workspace start [] start
  | up {passed : List Document} {document parent : Document}
      (way : Ascent workspace start passed document)
      (implements : Implements workspace document parent) :
      Ascent workspace start (passed ++ [document]) parent

/-- The chain of parents of a document comes back to one of its members. -/
def Revisits (workspace : Workspace) (document : Document) : Prop :=
  ∃ again, ReflTransGen (Implements workspace) document again ∧
    TransGen (Implements workspace) again again

def revisitError (passed : List Document) (again : Document) : DocumentError :=
  ⟨again.path, some "implements",
    .inheritanceCycle (cycleNames ((passed ++ [again]).map Document.path))⟩

theorem after_call_kept {resolver : Resolver} {call : Call} (named : workspace.tree.WellNamed)
    (held : workspace.Holds call.document) (sound : resolver.Sound workspace)
    (balanced : resolver.Balanced workspace) :
    (afterCall workspace resolver call).Sound workspace ∧
      (afterCall workspace resolver call).Balanced workspace := by
  cases call with
  | resolve document =>
      have climb := resolve_climb named held sound.shown
      exact ⟨(climb.sound named held sound).1, climb.balanced named held sound balanced⟩
  | resolveChunk document =>
      have step : ChunkStep workspace document resolver _ _ := resolve_chunk_step sound.shown
      exact ⟨step.sound held sound, step.balanced named held sound balanced⟩

theorem after_calls_kept {resolver : Resolver} {calls : List Call}
    (named : workspace.tree.WellNamed) (asked : ∀ call ∈ calls, workspace.Holds call.document)
    (sound : resolver.Sound workspace) (balanced : resolver.Balanced workspace) :
    (afterCalls workspace resolver calls).Sound workspace ∧
      (afterCalls workspace resolver calls).Balanced workspace := by
  induction calls generalizing resolver with
  | nil => exact ⟨sound, balanced⟩
  | cons call rest ih =>
      obtain ⟨firstAsked, restAsked⟩ := List.forall_mem_cons.mp asked
      obtain ⟨nextSound, nextBalanced⟩ := after_call_kept named firstAsked sound balanced
      exact ih restAsked nextSound nextBalanced

/-! ### Chains that come back -/

theorem to_option_some {α ε : Type} {result : Except ε α} {value : α}
    (same : result.toOption = some value) : result = .ok value := by
  cases result with
  | error problem => cases same
  | ok other => exact congrArg _ (Option.some.inj same)

theorem Implements.follows {child parent : Document}
    (implements : Implements workspace child parent) : Follows workspace child parent := by
  simp only [Implements, parent?, Option.bind_eq_bind, Option.bind_eq_some_iff] at implements
  obtain ⟨config, read, ⟨layer, bodyField, generation⟩, layered, reference, implemented, found,
    leads, parentConfig, parentRead, same⟩ := implements
  cases parentConfig with
  | chunk | prompt | variations => cases same
  | template base =>
      obtain rfl := Option.some.inj same
      have kind : Kind.classify? found.value = some .template :=
        Config.read_kind (to_option_some parentRead)
      have fits : (Kind.classify? found.value).filter (· ≠ Kind.template) = none := by
        rw [kind]
        rfl
      change layer.implements = some reference at implemented
      refine ⟨layer, bodyField, generation, ?_⟩
      simp only [outlook, to_option_some read, layered, implemented, to_option_some leads, fits]

theorem Implements.held {child parent : Document} (implements : Implements workspace child parent) :
    workspace.Holds parent := by
  obtain ⟨_, _, _, follows⟩ := implements.follows
  exact outlook_parent_held follows

theorem implements_of_location {child parent : Document} (held : workspace.Holds parent)
    (found : (parent? workspace child).map Document.location = some parent.location) :
    Implements workspace child parent := by
  obtain ⟨other, above, place⟩ := Option.map_eq_some_iff.mp found
  rw [Implements, ← (Implements.held above).eq_of_location held place]
  exact above

theorem Follows.unique {child parent other : Document} (one : Follows workspace child parent)
    (two : Follows workspace child other) : parent = other := by
  obtain ⟨_, _, _, first⟩ := one
  obtain ⟨_, _, _, second⟩ := two
  exact (Outlook.follows.inj (first.symm.trans second)).1

theorem Revisits.parent {document : Document} (revisits : Revisits workspace document) :
    ∃ parent, Implements workspace document parent ∧ Revisits workspace parent := by
  obtain ⟨again, way, round⟩ := revisits
  rcases ReflTransGen.cases_head way with rfl | ⟨parent, implements, further⟩
  · obtain ⟨parent, implements, back⟩ := TransGen.head'_iff.mp round
    exact ⟨parent, implements, document, back, round⟩
  · exact ⟨parent, implements, again, further, round⟩

theorem Merged.not_revisits {document : Document} {config : ResolvedConfig}
    {warnings : List Finding} (merged : Merged workspace document config warnings) :
    ¬Revisits workspace document := by
  induction merged with
  | starts alone =>
      intro revisits
      obtain ⟨_, implements, _⟩ := revisits.parent
      obtain ⟨_, _, _, follows⟩ := implements.follows
      cases alone.symm.trans follows
  | follows alone above ih =>
      intro revisits
      obtain ⟨parent, implements, further⟩ := revisits.parent
      rw [implements.follows.unique ⟨_, _, _, alone⟩] at further
      exact ih further

theorem Ascent.held {start document : Document} {passed : List Document}
    (way : Ascent workspace start passed document) (held : workspace.Holds start) :
    workspace.Holds document ∧ ∀ other ∈ passed, workspace.Holds other := by
  induction way with
  | here =>
      refine ⟨held, fun other member => ?_⟩
      cases member
  | up way implements ih =>
      refine ⟨implements.held, fun other member => ?_⟩
      rcases List.mem_append.mp member with earlier | last
      · exact ih.2 other earlier
      · rw [List.mem_singleton.mp last]
        exact ih.1

/-- The climb goes on along the chain until it meets a document it has passed. -/
theorem Ascent.revisit_error {start document : Document} {passed : List Document}
    {resolver later : Resolver} {result : Except DocumentError ResolvedConfig}
    (way : Ascent workspace start passed document) (named : workspace.tree.WellNamed)
    (climb : Climb workspace (passed.map Document.path) document resolver result later)
    (startHeld : workspace.Holds start)
    (once : (passed.map Document.path).Nodup) (sound : resolver.Sound workspace)
    (revisits : Revisits workspace document) :
    ∃ wholeWay again, Ascent workspace start wholeWay again ∧ again ∈ wholeWay ∧
      (wholeWay.map Document.path).Nodup ∧ result = .error (revisitError wholeWay again) := by
  generalize paths : passed.map Document.path = passedPaths at climb
  have held := (way.held startHeld).1
  -- the induction is on the climb; the documents passed so far are those of an ascent
  induction climb generalizing passed with
  | revisits again =>
      rw [← paths] at again
      obtain ⟨other, member, same⟩ := List.mem_map.mp again
      obtain rfl := ((way.held startHeld).2 other member).eq_of_path named held same
      refine ⟨passed, other, way, member, once, ?_⟩
      rw [← paths, revisitError, List.map_append, List.map_singleton]
  | recalls fresh known =>
      obtain ⟨_, merged⟩ := sound.recalled named held known
      exact absurd revisits merged.not_revisits
  | fails fresh unknown alone =>
      obtain ⟨_, implements, _⟩ := revisits.parent
      obtain ⟨_, _, _, follows⟩ := implements.follows
      cases alone.symm.trans follows
  | starts fresh unknown alone => exact absurd revisits (Merged.starts alone).not_revisits
  | stops fresh unknown alone grown above ih =>
      obtain ⟨parent, implements, further⟩ := revisits.parent
      obtain rfl := implements.follows.unique ⟨_, _, _, alone⟩
      rw [← paths] at fresh
      refine ih (way.up implements) ?_ (sound.with_cache grown) further ?_ implements.held
      · rw [List.map_append, List.map_singleton]
        exact List.nodup_append.mpr ⟨once, by simp, by
          rintro path member other last rfl
          exact fresh (List.mem_singleton.mp last ▸ member)⟩
      · rw [List.map_append, List.map_singleton, paths]
  | merges fresh unknown alone grown above ih =>
      have parentHeld := outlook_parent_held alone
      obtain ⟨_, answered⟩ := above.sound named parentHeld (sound.with_cache grown)
      obtain ⟨_, parentMerged⟩ := answered _ rfl
      exact absurd revisits (Merged.follows alone parentMerged).not_revisits

/-! ### Any calls -/

/-- After any calls about documents of the tree, in any order, a resolver answers a further call as
a resolver without memory does. The call ends, by a climb whose only guard is the list of passed
documents. When it fails, nothing is remembered about the document, nor anything else changed but
the documents opened; it always fails, naming the documents on the way, when the chain comes back to
one of its members. Nothing is ever remembered twice, the merges counted are those remembered, and
the warnings about a document are those of its one merge, or none. -/
theorem calls_answer_afresh (named : workspace.tree.WellNamed) {cache other : Cache}
    (shown : workspace.Grown .empty cache) (otherShown : workspace.Grown .empty other)
    {calls : List Call} (asked : ∀ call ∈ calls, workspace.Holds call.document)
    {document : Document} (held : workspace.Holds document) :
    let resolver := afterCalls workspace (.start cache) calls
    let configRun := resolve workspace document resolver
    let chunkRun := resolveChunk workspace document resolver
    (Climb workspace [] document resolver configRun.1 configRun.2 ∧
      ChunkStep workspace document resolver chunkRun.1 chunkRun.2) ∧
    (configRun.1 = (resolve workspace document (.start other)).1 ∧
      chunkRun.1 = (resolveChunk workspace document (.start other)).1) ∧
    (Revisits workspace document →
      resolver.configs.lookup document.path = none ∧
        ∃ way again, Ascent workspace document way again ∧ again ∈ way ∧
          (way.map Document.path).Nodup ∧ configRun.1 = .error (revisitError way again) ∧
          (revisitError way again).category = .inheritance) ∧
    ((∀ error, configRun.1 = .error error →
        configRun.2.configs.lookup document.path = none ∧
          configRun.2 = resolver.withCache configRun.2.cache) ∧
      ∀ error, chunkRun.1 = .error error →
        chunkRun.2.chunks.lookup document.path = none ∧
          chunkRun.2 = resolver.withCache chunkRun.2.cache) ∧
    (resolver.configs.map Prod.fst).Nodup ∧ (resolver.chunks.map Prod.fst).Nodup ∧
    resolver.resolutions = resolver.configs.length + resolver.chunks.length ∧
    Owed workspace resolver document (resolver.warningsAbout document) := by
  intro resolver configRun chunkRun
  obtain ⟨sound, balanced⟩ : resolver.Sound workspace ∧ resolver.Balanced workspace :=
    after_calls_kept named asked (.start shown) (.start cache)
  have climb : Climb workspace [] document resolver configRun.1 configRun.2 :=
    resolve_climb named held sound.shown
  have step : ChunkStep workspace document resolver chunkRun.1 chunkRun.2 :=
    resolve_chunk_step sound.shown
  refine ⟨⟨climb, step⟩, ⟨?_, ?_⟩, ?_, ⟨?_, ?_⟩, balanced.configs, balanced.chunks,
    balanced.counted, balanced.warned document held⟩
  · have fresh := resolve_climb named held (Sound.start otherShown).shown
    exact climb.agrees named fresh held sound (.start otherShown) (.nothing document)
  · have fresh : ChunkStep workspace document (.start other) _ _ :=
      resolve_chunk_step (Sound.start otherShown).shown
    rw [step.answer named held sound, fresh.answer named held (.start otherShown)]
  · intro revisits
    refine ⟨?_, ?_⟩
    · cases known : resolver.configs.lookup document.path with
      | none => rfl
      | some config =>
          obtain ⟨_, merged⟩ := sound.recalled named held known
          exact absurd revisits merged.not_revisits
    · have standing : Ascent workspace document [] document := .here
      obtain ⟨way, again, ascent, member, once, same⟩ :=
        standing.revisit_error named climb held .nil sound revisits
      exact ⟨way, again, ascent, member, once, same, rfl⟩
  · intro error failure
    have kept := climb.failure_keeps failure
    rcases climb.failed failure with unknown | impossible
    · refine ⟨?_, kept⟩
      rw [kept]
      exact unknown
    · cases impossible
  · intro error failure
    generalize chunkRun.2 = later at step
    revert failure step
    generalize chunkRun.1 = result
    intro failure step
    cases step with
    | recalls => cases failure
    | fails unknown => exact ⟨unknown, rfl⟩
    | merges => cases failure

def mutualTemplates : Workspace where
  tree := ⟨[(["a"], .file "implements: b\ntemplate: x\n".toUTF8),
    (["b"], .file "implements: a\ntemplate: y\n".toUTF8),
    (["c"], .file "implements: a\ntemplate: z\n".toUTF8)]⟩
  directory := []

theorem mutual_templates_fail :
    let workspace := mutualTemplates
    let resolver := afterCalls workspace (.start .empty) [.resolve (workspace.stored ["a"])]
    Revisits workspace (workspace.stored ["c"]) ∧
      ∃ way again, Ascent workspace (workspace.stored ["c"]) way again ∧ again ∈ way ∧
        (resolve workspace (workspace.stored ["c"]) resolver).1 =
          .error (revisitError way again) := by
  intro workspace resolver
  have stands : ∀ name ∈ ["a", "b", "c"], (workspace.read [name]).isOk = true := by decide +kernel
  have places : ∀ edge ∈ [("a", "b"), ("b", "a"), ("c", "a")],
      (parent? workspace (workspace.stored [edge.1])).map Document.location =
        some (workspace.stored [edge.2]).location := by
    decide +kernel
  have step : ∀ edge ∈ [("a", "b"), ("b", "a"), ("c", "a")],
      Implements workspace (workspace.stored [edge.1]) (workspace.stored [edge.2]) := by
    intro edge member
    have known : edge.2 ∈ ["a", "b", "c"] := by
      revert edge
      decide
    exact implements_of_location (stored_holds (stands edge.2 known)) (places edge member)
  have revisits : Revisits workspace (workspace.stored ["c"]) :=
    ⟨workspace.stored ["a"], .single (step ("c", "a") (by simp)),
      .tail (.single (step ("a", "b") (by simp))) (step ("b", "a") (by simp))⟩
  have named : workspace.tree.WellNamed := by decide +kernel
  have asked : ∀ call ∈ [Call.resolve (workspace.stored ["a"])], workspace.Holds call.document := by
    simpa [Call.document] using stored_holds (stands "a" (by simp))
  obtain ⟨_, _, cycles, _⟩ :=
    calls_answer_afresh named .same .same asked (stored_holds (stands "c" (by simp)))
  obtain ⟨_, way, again, ascent, member, _, same, _⟩ := cycles revisits
  exact ⟨revisits, way, again, ascent, member, same⟩

end PromptLoom.Resolver
