import Mathlib.Logic.Relation
import PromptLoom.Proofs.Inheritance.Climb

/-!
# What a resolver may remember

`Merged` says what a template or prompt resolves to and which warnings its own merge gives, with no
resolver in sight: the chain of parents has to end, so a document whose chain comes back to it is
never merged. A resolver is sound when it remembers only such results. Then every resolution gives
the result that any other sound resolver would give.
-/

namespace PromptLoom.Resolver

open Relation Workspace

set_option autoImplicit false

variable {workspace : Workspace}

/-- A document resolves to a config, and its own merge gives some warnings. -/
inductive Merged (workspace : Workspace) : Document → ResolvedConfig → List Finding → Prop where
  | starts {document : Document} {config : ResolvedConfig}
      (alone : outlook workspace document = .starts config) : Merged workspace document config []
  | follows {document parent : Document} {layer : Layer} {bodyField : String}
      {generation : Option Generation} {base : ResolvedConfig} {inherited : List Finding}
      (alone : outlook workspace document = .follows parent layer bodyField generation)
      (above : Merged workspace parent base inherited) :
      Merged workspace document (base.extend layer generation) (base.extendWarnings layer bodyField)

/-- One document follows another as its parent. -/
def Follows (workspace : Workspace) (child parent : Document) : Prop :=
  ∃ layer bodyField generation,
    outlook workspace child = .follows parent layer bodyField generation

def chunkOutlook (workspace : Workspace) (document : Document) :
    Except DocumentError (ResolvedChunk × List Finding) :=
  match document.read with
  | .error faults => .error (Document.firstFault document.path faults)
  | .ok (.chunk child) =>
      match child.implements with
      | none => .ok (.root child, [])
      | some reference =>
          match workspace.target reference document.path "implements" with
          | .error error => .error error
          | .ok other =>
              match other.read with
              | .error faults => .error (Document.firstFault other.path faults)
              | .ok (.chunk parent) =>
                  match ResolvedChunk.extendFault? parent child with
                  | some fault => .error fault
                  | none =>
                      .ok (.extend parent child, ResolvedChunk.extendWarnings parent child)
              | .ok config =>
                  .error ⟨document.path, some "implements",
                    .parentNotChunk reference config.kind⟩
  | .ok config => .error ⟨document.path, none, .notChunk config.kind⟩

/-- A resolver that remembers only what the documents of the tree resolve to. -/
structure Sound (workspace : Workspace) (resolver : Resolver) : Prop where
  shown : workspace.Grown .empty resolver.cache
  configs : ∀ path config, resolver.configs.lookup path = some config →
    ∃ document, workspace.Holds document ∧ document.path = path ∧
      ∃ warnings, Merged workspace document config warnings
  chunks : ∀ path chunk, resolver.chunks.lookup path = some chunk →
    ∃ document, workspace.Holds document ∧ document.path = path ∧
      ∃ warnings, chunkOutlook workspace document = .ok (chunk, warnings)

/-- Every path was passed on the way to the document, one parent after the other. -/
def Behind (workspace : Workspace) (passed : List Path) (document : Document) : Prop :=
  ∀ path ∈ passed, ∃ descendant, workspace.Holds descendant ∧ descendant.path = path ∧
    TransGen (Follows workspace) descendant document

theorem chunk_outlook_stray {document : Document} {config : Config}
    (read : document.read = .ok config) (other : config.kind ≠ .chunk) :
    chunkOutlook workspace document = .error ⟨document.path, none, .notChunk config.kind⟩ := by
  cases config with
  | chunk => exact absurd rfl other
  | template | prompt | variations => simp only [chunkOutlook, read]

theorem Merged.unique {document : Document} {config other : ResolvedConfig}
    {warnings otherWarnings : List Finding} (merged : Merged workspace document config warnings)
    (again : Merged workspace document other otherWarnings) :
    config = other ∧ warnings = otherWarnings := by
  induction merged generalizing other otherWarnings with
  | starts alone =>
      cases again with
      | starts same => exact ⟨Outlook.starts.inj (alone.symm.trans same), rfl⟩
      | follows same above => cases alone.symm.trans same
  | follows alone above ih =>
      cases again with
      | starts same => cases alone.symm.trans same
      | follows same aboveAgain =>
          obtain ⟨rfl, rfl, rfl, rfl⟩ := Outlook.follows.inj (alone.symm.trans same)
          obtain ⟨rfl, -⟩ := ih aboveAgain
          exact ⟨rfl, rfl⟩

theorem Merged.acyclic {document : Document} {config : ResolvedConfig} {warnings : List Finding}
    (merged : Merged workspace document config warnings) :
    ¬TransGen (Follows workspace) document document := by
  -- the induction is on the merge. A cycle through a document is one through its parent
  induction merged with
  | starts alone =>
      intro cycle
      obtain ⟨_, ⟨_, _, _, follows⟩, _⟩ := TransGen.head'_iff.mp cycle
      cases alone.symm.trans follows
  | follows alone above ih =>
      intro cycle
      obtain ⟨_, ⟨layer, bodyField, generation, follows⟩, back⟩ := TransGen.head'_iff.mp cycle
      obtain ⟨rfl, -, -, -⟩ := Outlook.follows.inj (alone.symm.trans follows)
      exact ih (TransGen.tail' back ⟨layer, bodyField, generation, follows⟩)

theorem Merged.not_behind {document : Document} {config : ResolvedConfig} {warnings : List Finding}
    {passed : List Path} (named : workspace.tree.WellNamed) (held : workspace.Holds document)
    (merged : Merged workspace document config warnings)
    (behind : Behind workspace passed document) : document.path ∉ passed := by
  intro again
  obtain ⟨descendant, descendantHeld, same, way⟩ := behind _ again
  rw [descendantHeld.eq_of_path named held same] at way
  exact merged.acyclic way

theorem Behind.nothing (document : Document) : Behind workspace [] document := by
  intro path member
  cases member

theorem Behind.parent {passed : List Path} {document parent : Document}
    (behind : Behind workspace passed document) (held : workspace.Holds document)
    (follows : Follows workspace document parent) :
    Behind workspace (passed ++ [document.path]) parent := by
  intro path member
  rcases List.mem_append.mp member with earlier | last
  · obtain ⟨descendant, descendantHeld, same, way⟩ := behind path earlier
    exact ⟨descendant, descendantHeld, same, way.tail follows⟩
  · rw [List.mem_singleton.mp last]
    exact ⟨document, held, rfl, .single follows⟩

theorem Sound.start {cache : Cache} (shown : workspace.Grown .empty cache) :
    (start cache).Sound workspace where
  shown := shown
  configs := by
    intro path config known
    cases known
  chunks := by
    intro path chunk known
    cases known

theorem Sound.with_cache {resolver : Resolver} {cache : Cache} (sound : resolver.Sound workspace)
    (grown : workspace.Grown resolver.cache cache) : (resolver.withCache cache).Sound workspace :=
  ⟨sound.shown.trans grown, sound.configs, sound.chunks⟩

theorem Sound.keep_config {resolver : Resolver} {document : Document} {config : ResolvedConfig}
    {own warnings : List Finding} (sound : resolver.Sound workspace)
    (held : workspace.Holds document) (merged : Merged workspace document config own) :
    (resolver.keepConfig document.path config warnings).2.Sound workspace where
  shown := sound.shown
  configs := lookup_entry_holds sound.configs ⟨document, held, rfl, own, merged⟩
  chunks := sound.chunks

theorem Sound.keep_chunk {resolver : Resolver} {document : Document} {chunk : ResolvedChunk}
    {own warnings : List Finding} (sound : resolver.Sound workspace)
    (held : workspace.Holds document) (merged : chunkOutlook workspace document = .ok (chunk, own)) :
    (resolver.keepChunk document.path chunk warnings).2.Sound workspace where
  shown := sound.shown
  configs := sound.configs
  chunks := lookup_entry_holds sound.chunks ⟨document, held, rfl, own, merged⟩

theorem Sound.recalled {resolver : Resolver} {document : Document} {config : ResolvedConfig}
    (sound : resolver.Sound workspace) (named : workspace.tree.WellNamed)
    (held : workspace.Holds document) (known : resolver.configs.lookup document.path = some config) :
    ∃ warnings, Merged workspace document config warnings := by
  obtain ⟨other, otherHeld, same, merged⟩ := sound.configs _ _ known
  rw [otherHeld.eq_of_path named held same] at merged
  exact merged

theorem Sound.recalled_chunk {resolver : Resolver} {document : Document} {chunk : ResolvedChunk}
    (sound : resolver.Sound workspace) (named : workspace.tree.WellNamed)
    (held : workspace.Holds document) (known : resolver.chunks.lookup document.path = some chunk) :
    ∃ warnings, chunkOutlook workspace document = .ok (chunk, warnings) := by
  obtain ⟨other, otherHeld, same, merged⟩ := sound.chunks _ _ known
  rw [otherHeld.eq_of_path named held same] at merged
  exact merged

theorem Climb.sound {passed : List Path} {document : Document} {resolver later : Resolver}
    {result : Except DocumentError ResolvedConfig} (named : workspace.tree.WellNamed)
    (climb : Climb workspace passed document resolver result later)
    (held : workspace.Holds document) (before : resolver.Sound workspace) :
    later.Sound workspace ∧
      ∀ config, result = .ok config → ∃ warnings, Merged workspace document config warnings := by
  induction climb with
  | revisits again =>
      refine ⟨before, fun config same => ?_⟩
      cases same
  | recalls fresh known =>
      refine ⟨before, fun config same => ?_⟩
      cases same
      exact before.recalled named held known
  | fails fresh unknown alone grown =>
      refine ⟨before.with_cache grown, fun config same => ?_⟩
      cases same
  | starts fresh unknown alone =>
      refine ⟨before.keep_config held (.starts alone), fun config same => ?_⟩
      cases same
      exact ⟨[], .starts alone⟩
  | stops fresh unknown alone grown above ih =>
      refine ⟨(ih (outlook_parent_held alone) (before.with_cache grown)).1, fun config same => ?_⟩
      cases same
  | merges fresh unknown alone grown above ih =>
      obtain ⟨after, answered⟩ := ih (outlook_parent_held alone) (before.with_cache grown)
      obtain ⟨inherited, parentMerged⟩ := answered _ rfl
      refine ⟨after.keep_config held (.follows alone parentMerged), fun config same => ?_⟩
      cases same
      exact ⟨_, .follows alone parentMerged⟩

/-- What can be merged is merged from wherever it is met, since no descendant of a document that
can be merged is among its ancestors. -/
theorem Merged.answered {passed : List Path} {document : Document} {resolver later : Resolver}
    {config : ResolvedConfig} {warnings : List Finding}
    {result : Except DocumentError ResolvedConfig} (named : workspace.tree.WellNamed)
    (merged : Merged workspace document config warnings)
    (climb : Climb workspace passed document resolver result later)
    (held : workspace.Holds document) (sound : resolver.Sound workspace)
    (behind : Behind workspace passed document) : result = .ok config := by
  induction merged generalizing passed resolver later result with
  | starts alone =>
      cases climb with
      | revisits again => exact absurd again ((Merged.starts alone).not_behind named held behind)
      | recalls fresh known =>
          obtain ⟨_, recalled⟩ := sound.recalled named held known
          rw [(recalled.unique (.starts alone)).1]
      | fails fresh unknown other => cases alone.symm.trans other
      | starts fresh unknown other => rw [Outlook.starts.inj (alone.symm.trans other)]
      | stops fresh unknown other => cases alone.symm.trans other
      | merges fresh unknown other => cases alone.symm.trans other
  | follows alone above ih =>
      have parentHeld := outlook_parent_held alone
      have further := behind.parent held ⟨_, _, _, alone⟩
      cases climb with
      | revisits again =>
          exact absurd again ((Merged.follows alone above).not_behind named held behind)
      | recalls fresh known =>
          obtain ⟨_, recalled⟩ := sound.recalled named held known
          rw [(recalled.unique (.follows alone above)).1]
      | fails fresh unknown other => cases alone.symm.trans other
      | starts fresh unknown other => cases alone.symm.trans other
      | stops fresh unknown other grown climbed =>
          obtain ⟨rfl, rfl, rfl, rfl⟩ := Outlook.follows.inj (alone.symm.trans other)
          cases ih climbed parentHeld (sound.with_cache grown) further
      | merges fresh unknown other grown climbed =>
          obtain ⟨rfl, rfl, rfl, rfl⟩ := Outlook.follows.inj (alone.symm.trans other)
          rw [Except.ok.inj (ih climbed parentHeld (sound.with_cache grown) further)]

theorem Merged.resolves {document : Document} {resolver : Resolver} {config : ResolvedConfig}
    {warnings : List Finding} (named : workspace.tree.WellNamed)
    (merged : Merged workspace document config warnings) (held : workspace.Holds document)
    (sound : resolver.Sound workspace) :
    (resolve workspace document resolver).1 = .ok config ∧
      (resolve workspace document resolver).2.Sound workspace := by
  have climb := resolve_climb named held sound.shown
  exact ⟨merged.answered named climb held sound (.nothing document),
    (climb.sound named held sound).1⟩

/-- Two sound resolvers answer alike, whatever each of them remembers. -/
theorem Climb.agrees {passed : List Path} {document : Document}
    {first firstLater second secondLater : Resolver}
    {firstResult secondResult : Except DocumentError ResolvedConfig}
    (named : workspace.tree.WellNamed)
    (one : Climb workspace passed document first firstResult firstLater)
    (two : Climb workspace passed document second secondResult secondLater)
    (held : workspace.Holds document) (firstSound : first.Sound workspace)
    (secondSound : second.Sound workspace) (behind : Behind workspace passed document) :
    firstResult = secondResult := by
  induction one generalizing second secondLater secondResult with
  | revisits again =>
      cases two with
      | revisits => rfl
      | recalls fresh | fails fresh | starts fresh | stops fresh | merges fresh =>
          exact absurd again fresh
  | recalls fresh known =>
      obtain ⟨_, merged⟩ := firstSound.recalled named held known
      exact (merged.answered named two held secondSound behind).symm
  | fails fresh unknown alone grown =>
      cases two with
      | revisits again => exact absurd again fresh
      | recalls _ known =>
          obtain ⟨_, merged⟩ := secondSound.recalled named held known
          cases merged with
          | starts other => cases alone.symm.trans other
          | follows other => cases alone.symm.trans other
      | fails _ _ other => rw [Outlook.fails.inj (alone.symm.trans other)]
      | starts _ _ other | stops _ _ other | merges _ _ other => cases alone.symm.trans other
  | starts fresh unknown alone =>
      exact ((Merged.starts alone).answered named two held secondSound behind).symm
  | stops fresh unknown alone grown above ih =>
      have parentHeld := outlook_parent_held alone
      have further := behind.parent held ⟨_, _, _, alone⟩
      have firstAbove := firstSound.with_cache grown
      cases two with
      | revisits again => exact absurd again fresh
      | recalls _ known =>
          obtain ⟨_, merged⟩ := secondSound.recalled named held known
          cases merged with
          | starts other => cases alone.symm.trans other
          | follows other aboveMerged =>
              obtain ⟨rfl, rfl, rfl, rfl⟩ := Outlook.follows.inj (alone.symm.trans other)
              cases aboveMerged.answered named above parentHeld firstAbove further
      | fails _ _ other | starts _ _ other => cases alone.symm.trans other
      | stops _ _ other secondGrown climbed =>
          obtain ⟨rfl, rfl, rfl, rfl⟩ := Outlook.follows.inj (alone.symm.trans other)
          exact ih climbed parentHeld firstAbove (secondSound.with_cache secondGrown) further
      | merges _ _ other secondGrown climbed =>
          obtain ⟨rfl, rfl, rfl, rfl⟩ := Outlook.follows.inj (alone.symm.trans other)
          cases ih climbed parentHeld firstAbove (secondSound.with_cache secondGrown) further
  | merges fresh unknown alone grown above ih =>
      have parentHeld := outlook_parent_held alone
      have firstAbove := firstSound.with_cache grown
      obtain ⟨_, parentMerged⟩ := (above.sound named parentHeld firstAbove).2 _ rfl
      exact ((Merged.follows alone parentMerged).answered named two held secondSound behind).symm

end PromptLoom.Resolver
