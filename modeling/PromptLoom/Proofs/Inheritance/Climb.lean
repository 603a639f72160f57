import PromptLoom.Proofs.Documents
import PromptLoom.Proofs.Inheritance.Agreement
import PromptLoom.Proofs.Reading

/-!
# The way up from a document

What a document asks of its resolution by itself is its outlook: it fails, it starts a chain, or it
follows a parent. `Climb` gives the rules of a whole resolution in terms of outlooks and of what the
resolver remembers. A derivation is finite, and the only thing that its rules look at to stop is
whether a path has been passed; so that every resolution has one says that every resolution ends.
-/

namespace PromptLoom.Resolver

open Workspace

set_option autoImplicit false

inductive Outlook where
  | fails (error : DocumentError)
  | starts (config : ResolvedConfig)
  | follows (parent : Document) (layer : Layer) (bodyField : String)
      (generation : Option Generation)

def outlook (workspace : Workspace) (document : Document) : Outlook :=
  match document.read with
  | .error faults => .fails (Document.firstFault document.path faults)
  | .ok config =>
      match layerOf? config with
      | none => .fails ⟨document.path, none, .notInheritable config.kind⟩
      | some (layer, bodyField, generation) =>
          match layer.implements with
          | none =>
              if config.kind = .prompt then
                .fails ⟨document.path, some "implements", .parentRequired⟩
              else .starts (.root layer generation)
          | some reference =>
              match workspace.target reference document.path "implements" with
              | .error error => .fails error
              | .ok parent =>
                  match (Kind.classify? parent.value).filter (· ≠ Kind.template) with
                  | some kind =>
                      .fails ⟨document.path, some "implements",
                        .parentNotTemplate reference kind config.kind⟩
                  | none => .follows parent layer bodyField generation

/-- A resolution with some paths passed on the way to a document: the resolver before it, its
result, and the resolver after it. -/
inductive Climb (workspace : Workspace) :
    List Path → Document → Resolver → Except DocumentError ResolvedConfig → Resolver → Prop where
  | revisits {passed : List Path} {document : Document} {resolver : Resolver}
      (again : document.path ∈ passed) :
      Climb workspace passed document resolver
        (.error ⟨document.path, some "implements",
          .inheritanceCycle (cycleNames (passed ++ [document.path]))⟩) resolver
  | recalls {passed : List Path} {document : Document} {resolver : Resolver}
      {config : ResolvedConfig} (fresh : document.path ∉ passed)
      (known : resolver.configs.lookup document.path = some config) :
      Climb workspace passed document resolver (.ok config) resolver
  | fails {passed : List Path} {document : Document} {resolver : Resolver} {error : DocumentError}
      {cache : Cache} (fresh : document.path ∉ passed)
      (unknown : resolver.configs.lookup document.path = none)
      (alone : outlook workspace document = .fails error)
      (grown : workspace.Grown resolver.cache cache) :
      Climb workspace passed document resolver (.error error) (resolver.withCache cache)
  | starts {passed : List Path} {document : Document} {resolver : Resolver}
      {config : ResolvedConfig} (fresh : document.path ∉ passed)
      (unknown : resolver.configs.lookup document.path = none)
      (alone : outlook workspace document = .starts config) :
      Climb workspace passed document resolver (.ok config)
        (resolver.keepConfig document.path config []).2
  | stops {passed : List Path} {document parent : Document} {resolver later : Resolver}
      {layer : Layer} {bodyField : String} {generation : Option Generation} {cache : Cache}
      {error : DocumentError} (fresh : document.path ∉ passed)
      (unknown : resolver.configs.lookup document.path = none)
      (alone : outlook workspace document = .follows parent layer bodyField generation)
      (grown : workspace.Grown resolver.cache cache)
      (above : Climb workspace (passed ++ [document.path]) parent (resolver.withCache cache)
        (.error error) later) :
      Climb workspace passed document resolver (.error error) later
  | merges {passed : List Path} {document parent : Document} {resolver later : Resolver}
      {layer : Layer} {bodyField : String} {generation : Option Generation} {cache : Cache}
      {base : ResolvedConfig} (fresh : document.path ∉ passed)
      (unknown : resolver.configs.lookup document.path = none)
      (alone : outlook workspace document = .follows parent layer bodyField generation)
      (grown : workspace.Grown resolver.cache cache)
      (above : Climb workspace (passed ++ [document.path]) parent (resolver.withCache cache)
        (.ok base) later) :
      Climb workspace passed document resolver (.ok (base.extend layer generation))
        (later.keepConfig document.path (base.extend layer generation)
          (base.extendWarnings layer bodyField)).2

variable {workspace : Workspace}

theorem layer_source {document : Document} {config : Config} {layer : Layer} {bodyField : String}
    {generation : Option Generation} (read : document.read = .ok config)
    (layered : layerOf? config = some (layer, bodyField, generation)) :
    layer.ReadUnder document.path := by
  cases config with
  | template found =>
      obtain ⟨rfl, -⟩ := Prod.mk.inj (Option.some.inj layered)
      exact Config.read_template read
  | prompt found settings =>
      obtain ⟨rfl, -⟩ := Prod.mk.inj (Option.some.inj layered)
      exact Config.read_prompt read
  | chunk | variations => cases layered

theorem outlook_follows_read {document parent : Document} {layer : Layer} {bodyField : String}
    {generation : Option Generation}
    (alone : outlook workspace document = .follows parent layer bodyField generation) :
    ∃ config reference, document.read = .ok config ∧
      layerOf? config = some (layer, bodyField, generation) ∧ layer.implements = some reference ∧
      workspace.target reference document.path "implements" = .ok parent := by
  unfold outlook at alone
  split at alone
  · cases alone
  next config read =>
  split at alone
  · cases alone
  next layered =>
  split at alone
  · split at alone <;> cases alone
  next reference implemented =>
  split at alone
  · cases alone
  next leads =>
  split at alone
  · cases alone
  · obtain ⟨rfl, rfl, rfl, rfl⟩ := Outlook.follows.inj alone
    exact ⟨config, reference, read, layered, implemented, leads⟩

theorem outlook_starts_read {document : Document} {config : ResolvedConfig}
    (alone : outlook workspace document = .starts config) :
    ∃ layer, document.read = .ok (.template layer) ∧ layer.implements = none ∧
      config = .root layer none := by
  unfold outlook at alone
  split at alone
  · cases alone
  next found read =>
  split at alone
  · cases alone
  next layered =>
  split at alone
  · next bare =>
      split at alone
      · cases alone
      · next noPrompt =>
          obtain rfl := Outlook.starts.inj alone
          cases found with
          | template =>
              cases layered
              exact ⟨_, read, bare, rfl⟩
          | prompt => exact absurd rfl noPrompt
          | chunk | variations => cases layered
  · split at alone
    · cases alone
    · split at alone <;> cases alone

theorem outlook_parent_held {document parent : Document} {layer : Layer} {bodyField : String}
    {generation : Option Generation}
    (alone : outlook workspace document = .follows parent layer bodyField generation) :
    workspace.Holds parent := by
  obtain ⟨_, _, _, _, _, leads⟩ := outlook_follows_read alone
  exact target_holds leads

/-- The locations left open are those of the documents not passed, so leaving the open locations
and coming back to a passed path are the same. -/
theorem open_without {open_ : List Location} {passed : List Path} {document : Document}
    (named : workspace.tree.WellNamed) (held : workspace.Holds document)
    (places : ∀ other, workspace.Holds other → (other.location ∈ open_ ↔ other.path ∉ passed)) :
    ∀ other, workspace.Holds other →
      (other.location ∈ without document.location open_ ↔ other.path ∉ passed ++ [document.path]) := by
  intro other otherHeld
  have same := otherHeld.path_eq_iff named held
  simp only [without, List.mem_filter, decide_eq_true_eq, List.mem_append, List.mem_singleton,
    not_or, ne_eq]
  rw [places other otherHeld, same]

theorem resolve_from_climb (named : workspace.tree.WellNamed) (open_ : List Location)
    (passed : List Path) (document : Document) (resolver : Resolver)
    (held : workspace.Holds document) (shown : workspace.Grown .empty resolver.cache)
    (places : ∀ other, workspace.Holds other → (other.location ∈ open_ ↔ other.path ∉ passed)) :
    Climb workspace passed document resolver
      (resolveFrom workspace open_ passed document resolver).1
      (resolveFrom workspace open_ passed document resolver).2 := by
  -- the induction is on the open locations, along the recursion of the resolution
  fun_induction resolveFrom workspace open_ passed document resolver with
  | case1 open_ passed document resolver path fresh resolved known =>
      exact .recalls ((places _ held).mp fresh) known
  | case2 open_ passed document resolver path fresh unknown faults read =>
      exact .fails ((places _ held).mp fresh) unknown (by simp only [outlook, read, path]) .same
  | case3 open_ passed document resolver path fresh unknown config read other =>
      exact .fails ((places _ held).mp fresh) unknown (by simp only [outlook, read, other, path])
        .same
  | case4 open_ passed document resolver path fresh unknown config read layer bodyField generation
      layered alone isPrompt =>
      exact .fails ((places _ held).mp fresh) unknown
        (by simp only [outlook, read, layered, alone, isPrompt, path, if_true]) .same
  | case5 open_ passed document resolver path fresh unknown config read layer bodyField generation
      layered alone noPrompt =>
      exact .starts ((places _ held).mp fresh) unknown
        (by simp only [outlook, read, layered, alone, noPrompt, if_false])
  | case6 open_ passed document resolver path fresh unknown config read layer bodyField generation
      layered reference implemented failure cache opened =>
      have leads : workspace.target reference document.path "implements" = .error failure :=
        open_reference_target shown opened
      exact .fails ((places _ held).mp fresh) unknown
        (by simp only [outlook, read, layered, implemented, leads]) (open_reference_grown opened)
  | case7 open_ passed document resolver path fresh unknown config read layer bodyField generation
      layered reference implemented parent cache opened kind misfit =>
      have leads : workspace.target reference document.path "implements" = .ok parent :=
        open_reference_target shown opened
      exact .fails ((places _ held).mp fresh) unknown
        (by simp only [outlook, read, layered, implemented, leads, misfit, path])
        (open_reference_grown opened)
  | case8 open_ passed document resolver path fresh unknown config read layer bodyField generation
      layered reference implemented parent cache opened fits shorter failure later failed ih =>
      have leads : workspace.target reference document.path "implements" = .ok parent :=
        open_reference_target shown opened
      have grown := open_reference_grown opened
      have alone : outlook workspace document = .follows parent layer bodyField generation := by
        simp only [outlook, read, layered, implemented, leads, fits]
      have above := ih (target_holds leads) (shown.trans grown) (open_without named held places)
      rw [failed] at above
      exact .stops ((places _ held).mp fresh) unknown alone grown above
  | case9 open_ passed document resolver path fresh unknown config read layer bodyField generation
      layered reference implemented parent cache opened fits shorter base later resolved ih =>
      have leads : workspace.target reference document.path "implements" = .ok parent :=
        open_reference_target shown opened
      have grown := open_reference_grown opened
      have alone : outlook workspace document = .follows parent layer bodyField generation := by
        simp only [outlook, read, layered, implemented, leads, fits]
      have above := ih (target_holds leads) (shown.trans grown) (open_without named held places)
      rw [resolved] at above
      exact .merges ((places _ held).mp fresh) unknown alone grown above
  | case10 open_ passed document resolver path closed =>
      have again : document.path ∈ passed := by
        apply Decidable.byContradiction
        intro fresh
        exact closed ((places _ held).mpr fresh)
      exact .revisits again

theorem resolve_climb (named : workspace.tree.WellNamed) {document : Document} {resolver : Resolver}
    (held : workspace.Holds document) (shown : workspace.Grown .empty resolver.cache) :
    Climb workspace [] document resolver (resolve workspace document resolver).1
      (resolve workspace document resolver).2 :=
  resolve_from_climb named workspace.tree.locations [] document resolver held shown
    fun _ otherHeld => by simp [otherHeld.location_mem]

end PromptLoom.Resolver
