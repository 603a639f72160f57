import Mathlib.Data.List.Basic
import Mathlib.Data.List.Induction
import PromptLoom.Proofs.Inheritance.Calls

/-!
# Lines of descent

A line starts at a template without a parent and goes down from parent to child. What its last
member resolves to is told by its members alone: of several declarations of a name the nearest
counts, and bodies are put one into the other from the first member down.
-/

namespace PromptLoom

set_option autoImplicit false

/-- A map holds, once for every name, the last of several declarations of the name and nothing
else. -/
def NameMap.LastWins {α : Type} (map : NameMap α) (declared : List (String → Option α)) : Prop :=
  map.Ordered ∧ ∀ name, map.get? name = declared.reverse.findSome? fun own => own name

theorem NameMap.last_wins_alone {α : Type} {map : NameMap α} (ordered : map.Ordered) :
    map.LastWins [map.get?] := by
  refine ⟨ordered, fun name => ?_⟩
  simp only [List.reverse_singleton, List.findSome?_singleton]

theorem NameMap.LastWins.merge {α : Type} {map own : NameMap α}
    {declared : List (String → Option α)} (wins : map.LastWins declared) (ordered : own.Ordered) :
    (map.merge own).LastWins (declared ++ [own.get?]) := by
  refine ⟨merge_ordered wins.1 own, fun name => ?_⟩
  rw [get?_merge map ordered, wins.2, List.reverse_append, List.reverse_singleton,
    List.singleton_append, List.findSome?_cons]
  cases own.get? name <;> rfl

/-- The body of a child gives way to nothing: the text that it inherits is not blank and has no
place for it. -/
def Replaces (inherited : String) (body : Option String) (marker : String) : Prop :=
  body.isSome ∧ Text.isAllBlank inherited.toList = false ∧
    Text.contains inherited marker = false

instance (inherited : String) (body : Option String) (marker : String) :
    Decidable (Replaces inherited body marker) :=
  inferInstanceAs (Decidable (_ ∧ _ ∧ _))

theorem inject_replaced_iff {inherited marker : String} {body : Option String} :
    (inject inherited body marker).replaced = true ↔ Replaces inherited body marker := by
  cases body with
  | none => simp [inject, Replaces]
  | some text =>
      unfold inject Replaces
      cases Text.contains inherited marker with
      | true => simp
      | false => simp

namespace Resolver

open Workspace

variable {workspace : Workspace}

structure Member (workspace : Workspace) where
  document : Document
  config : Config
  layer : Layer
  bodyField : String
  generation : Option Generation
  held : workspace.Holds document
  read : document.read = .ok config
  layered : layerOf? config = some (layer, bodyField, generation)

/-- The members below a first one, which has no parent, from parent to child. A child refers to its
parent, which has to be a template; so only the last member can be a prompt, and it is not the
first. -/
inductive Lineage (first : Member workspace) : List (Member workspace) → Prop where
  | alone (template : first.config.kind = .template) (orphan : first.layer.implements = none) :
      Lineage first []
  | child {line : List (Member workspace)} {member : Member workspace} (above : Lineage first line)
      (implements : Implements workspace member.document (line.getLastD first).document) :
      Lineage first (line ++ [member])

def accumulated (body : Member workspace → Option String) (marker : String)
    (first : Member workspace) (line : List (Member workspace)) : String :=
  line.foldl (fun text member => (inject text (body member) marker).text) ((body first).getD "")

/-- The warnings about a member whose bodies take the place of those accumulated above it. -/
def replacements (first : Member workspace) (above : List (Member workspace))
    (member : Member workspace) : List Finding :=
  let parent := (above.getLastD first).document.path
  (if Replaces (accumulated (·.layer.positive) positiveMarker first above) member.layer.positive
      positiveMarker then
    [(Notice.bodyReplaced parent).finding member.document.path member.bodyField] else []) ++
  (if Replaces (accumulated (·.layer.negative) negativeMarker first above) member.layer.negative
      negativeMarker then
    [(Notice.negativeReplaced parent).finding member.document.path "negative-prompt"] else [])

def descended (first : Member workspace) (line : List (Member workspace)) : ResolvedConfig :=
  line.foldl (fun config member => config.extend member.layer member.generation)
    (.root first.layer first.generation)

theorem Member.under (member : Member workspace) :
    member.layer.ReadUnder member.document.path :=
  layer_source member.read member.layered

theorem Member.get?_declared {α β : Type} (declare : Path → α → β) (member : Member workspace)
    (own : NameMap α) :
    (own.mapValues (declare member.layer.source)).get? =
      fun name => (own.get? name).map (declare member.document.path) := by
  funext name
  rw [NameMap.get?_map_values, member.under.source]

theorem Member.outlook_starts {member : Member workspace}
    (template : member.config.kind = .template) (orphan : member.layer.implements = none) :
    outlook workspace member.document = .starts (.root member.layer member.generation) := by
  have noPrompt : member.config.kind ≠ .prompt := by
    rw [template]
    decide
  simp only [outlook, member.read, member.layered, orphan, if_neg noPrompt]

theorem Member.outlook_follows {member : Member workspace} {parent : Document}
    (implements : Implements workspace member.document parent) :
    outlook workspace member.document =
      .follows parent member.layer member.bodyField member.generation := by
  obtain ⟨layer, bodyField, generation, follows⟩ := implements.follows
  obtain ⟨config, reference, read, layered, _⟩ := outlook_follows_read follows
  obtain rfl := Except.ok.inj (member.read.symm.trans read)
  cases member.layered.symm.trans layered
  exact follows

theorem descended_concat (first : Member workspace) (line : List (Member workspace))
    (member : Member workspace) :
    descended first (line ++ [member]) =
      (descended first line).extend member.layer member.generation :=
  List.foldl_concat ..

theorem accumulated_concat (body : Member workspace → Option String) (marker : String)
    (first : Member workspace) (line : List (Member workspace)) (member : Member workspace) :
    accumulated body marker first (line ++ [member]) =
      (inject (accumulated body marker first line) (body member) marker).text :=
  List.foldl_concat ..

theorem Lineage.merged {first : Member workspace} {line : List (Member workspace)}
    (lineage : Lineage first line) :
    ∃ own, Merged workspace (line.getLastD first).document (descended first line) own := by
  induction lineage with
  | alone template orphan => exact ⟨[], .starts (Member.outlook_starts template orphan)⟩
  | child above implements ih =>
      obtain ⟨_, parentMerged⟩ := ih
      rw [List.getLastD_concat, descended_concat]
      exact ⟨_, .follows (Member.outlook_follows implements) parentMerged⟩

/-! ### What a line adds up to -/

theorem descended_source (first : Member workspace) (line : List (Member workspace)) :
    (descended first line).source = (line.getLastD first).document.path := by
  induction line using List.reverseRecOn with
  | nil => exact first.under.source
  | append_singleton line member ih =>
      rw [descended_concat, List.getLastD_concat]
      exact member.under.source

theorem descended_body (text : ResolvedConfig → String) (body : Member workspace → Option String)
    (marker : String) (first : Member workspace)
    (starts : text (.root first.layer first.generation) = (body first).getD "")
    (follows : ∀ base (member : Member workspace),
      text (base.extend member.layer member.generation) =
        (inject (text base) (body member) marker).text)
    (line : List (Member workspace)) :
    text (descended first line) = accumulated body marker first line := by
  induction line using List.reverseRecOn with
  | nil => exact starts
  | append_singleton line member ih =>
      rw [descended_concat, accumulated_concat, follows, ih]

/-- One lemma for the four maps of a config, each with what a member declares in it. -/
theorem descended_wins {α : Type} (map : ResolvedConfig → NameMap α)
    (own : Member workspace → NameMap α) (ordered : ∀ member, (own member).Ordered)
    (first : Member workspace) (starts : map (.root first.layer first.generation) = own first)
    (follows : ∀ base (member : Member workspace),
      map (base.extend member.layer member.generation) = (map base).merge (own member))
    (line : List (Member workspace)) :
    (map (descended first line)).LastWins ((first :: line).map fun member => (own member).get?) := by
  induction line using List.reverseRecOn with
  | nil =>
      change (map (.root first.layer first.generation)).LastWins [(own first).get?]
      rw [starts]
      exact NameMap.last_wins_alone (ordered first)
  | append_singleton line member ih =>
      rw [descended_concat, follows, ← List.cons_append, List.map_append]
      exact ih.merge (ordered member)

theorem descended_name (first : Member workspace) (line : List (Member workspace)) :
    (descended first line).name =
      (((first :: line).map fun member => member.layer.name).reverse.find? (· ≠ "")).getD "" := by
  induction line using List.reverseRecOn with
  | nil =>
      change first.layer.name = _
      by_cases blank : first.layer.name = "" <;> simp [blank]
  | append_singleton line member ih =>
      rw [descended_concat, ← List.cons_append, List.map_append, List.reverse_append,
        List.map_singleton, List.reverse_singleton, List.singleton_append, List.find?_cons]
      change (if member.layer.name.isEmpty then (descended first line).name
        else member.layer.name) = _
      by_cases blank : member.layer.name = ""
      · simp [blank, ih]
      · simp [blank]

/-! ### The warnings of a line -/

theorem extend_warnings_replacements (first : Member workspace) (above : List (Member workspace))
    (member : Member workspace) :
    (descended first above).extendWarnings member.layer member.bodyField =
      replacements first above member := by
  have positive := descended_body (·.positive) (·.layer.positive) positiveMarker first rfl
    (fun _ _ => rfl) above
  have negative := descended_body (·.negative) (·.layer.negative) negativeMarker first rfl
    (fun _ _ => rfl) above
  simp only [ResolvedConfig.extendWarnings, replacements, inject_replaced_iff, positive, negative,
    descended_source, member.under.source]

theorem replacements_concat (first member : Member workspace) (line : List (Member workspace)) :
    (line ++ [member]).zipIdx.flatMap (fun (below, index) =>
        replacements first ((line ++ [member]).take index) below) =
      line.zipIdx.flatMap (fun (below, index) => replacements first (line.take index) below) ++
        replacements first line member := by
  rw [List.zipIdx_append, List.flatMap_append]
  congr 1
  · apply List.flatMap_congr
    rintro ⟨below, index⟩ inside
    have within : index < line.length := by simpa using List.snd_lt_of_mem_zipIdx inside
    simp only [List.take_append_of_le_length (Nat.le_of_lt within)]
  · simp

/-- A resolver that remembers no config climbs the whole line and warns about every member of it
on the way back. -/
theorem Lineage.climbed {first : Member workspace} {line : List (Member workspace)}
    (lineage : Lineage first line) {passed : List Path} {resolver later : Resolver}
    {config : ResolvedConfig}
    (climb : Climb workspace passed (line.getLastD first).document resolver (.ok config) later)
    (fresh : resolver.configs = []) :
    config = descended first line ∧
      later.warnings = resolver.warnings ++
        line.zipIdx.flatMap fun (member, index) => replacements first (line.take index) member := by
  induction lineage generalizing passed resolver later config with
  | alone template orphan =>
      have alone := Member.outlook_starts template orphan
      cases climb with
      | recalls _ known => simp [fresh] at known
      | starts _ _ other => exact ⟨(Outlook.starts.inj (alone.symm.trans other)).symm, rfl⟩
      | merges _ _ other => cases alone.symm.trans other
  | @child line member above implements ih =>
      have alone := Member.outlook_follows implements
      rw [List.getLastD_concat] at climb
      cases climb with
      | recalls _ known => simp [fresh] at known
      | starts _ _ other => cases alone.symm.trans other
      | merges _ _ other grown climbed =>
          obtain ⟨rfl, rfl, rfl, rfl⟩ := Outlook.follows.inj (alone.symm.trans other)
          obtain ⟨rfl, warned⟩ := ih climbed fresh
          refine ⟨(descended_concat ..).symm, ?_⟩
          simp only [Resolver.keepConfig, warned, extend_warnings_replacements,
            replacements_concat, List.append_assoc, Resolver.withCache]

/-- A line of any length resolves, whatever the resolver was asked before. Of several declarations
of a name the nearest counts, and an import or chunk comes with the path of the member that declares
it; the name is the last that is not empty, and the bodies are put one into the other from the first
member down. A resolver without memory warns about exactly the members whose bodies take the place
of those above them. -/
theorem lineage_resolves (named : workspace.tree.WellNamed) {cache : Cache}
    (shown : workspace.Grown .empty cache) {first : Member workspace}
    {line : List (Member workspace)} (lineage : Lineage first line) {calls : List Call}
    (asked : ∀ call ∈ calls, workspace.Holds call.document) :
    let last := (line.getLastD first).document
    ∃ config,
      (resolve workspace last (afterCalls workspace (.start cache) calls)).1 = .ok config ∧
      config.parameters.LastWins
        ((first :: line).map fun member name => member.layer.parameters.get? name) ∧
      config.loras.LastWins
        ((first :: line).map fun member name => member.layer.loras.get? name) ∧
      config.imports.LastWins
        ((first :: line).map fun member name =>
          (member.layer.imports.get? name).map (⟨·, member.document.path⟩)) ∧
      config.chunks.LastWins
        ((first :: line).map fun member name =>
          (member.layer.chunks.get? name).map (⟨·, member.document.path⟩)) ∧
      config.name =
        (((first :: line).map fun member => member.layer.name).reverse.find? (· ≠ "")).getD "" ∧
      config.positive = accumulated (·.layer.positive) positiveMarker first line ∧
      config.negative = accumulated (·.layer.negative) negativeMarker first line ∧
      (resolve workspace last (.start cache)).2.warnings =
        line.zipIdx.flatMap fun (member, index) => replacements first (line.take index) member := by
  intro last
  obtain ⟨own, merged⟩ := lineage.merged
  have held : workspace.Holds last := (line.getLastD first).held
  have answered : ∀ resolver : Resolver, resolver.Sound workspace →
      (resolve workspace last resolver).1 = .ok (descended first line) := by
    intro resolver sound
    exact (merged.resolves named held sound).1
  have earlier : (afterCalls workspace (.start cache) calls).Sound workspace :=
    (after_calls_kept named asked (.start shown) (.start cache)).1
  refine ⟨descended first line, answered _ earlier, ?_, ?_, ?_, ?_, descended_name first line,
    ?_, ?_, ?_⟩
  · exact descended_wins (·.parameters) (·.layer.parameters) (fun member => member.under.parameters)
      first rfl (fun _ _ => rfl) line
  · exact descended_wins (·.loras) (·.layer.loras) (fun member => member.under.loras) first rfl
      (fun _ _ => rfl) line
  · have wins := descended_wins (·.imports)
      (fun member => ImportDecl.declare member.layer.source member.layer.imports)
      (fun member => NameMap.map_values_ordered _ member.under.imports) first rfl
      (fun _ _ => rfl) line
    simpa only [ImportDecl.declare, Member.get?_declared fun origin spec => ImportDecl.mk spec origin]
      using wins
  · have wins := descended_wins (·.chunks)
      (fun member => ChunkDecl.declare member.layer.source member.layer.chunks)
      (fun member => NameMap.map_values_ordered _ member.under.chunks) first rfl
      (fun _ _ => rfl) line
    simpa only [ChunkDecl.declare,
      Member.get?_declared fun origin reference => ChunkDecl.mk reference origin] using wins
  · exact descended_body (·.positive) (·.layer.positive) positiveMarker first rfl (fun _ _ => rfl)
      line
  · exact descended_body (·.negative) (·.layer.negative) negativeMarker first rfl (fun _ _ => rfl)
      line
  · have climb := resolve_climb named held (Sound.start shown).shown
    rw [answered _ (.start shown)] at climb
    exact (lineage.climbed climb rfl).2

def member? (workspace : Workspace) (location : Location) : Option (Member workspace) :=
  match found : workspace.read location with
  | .error _ => none
  | .ok document =>
      match read : document.read with
      | .error _ => none
      | .ok config =>
          match layered : layerOf? config with
          | none => none
          | some (layer, bodyField, generation) =>
              some ⟨document, config, layer, bodyField, generation, read_holds found, read, layered⟩

def threeGenerations : Workspace where
  tree := ⟨[(["a"], .file "template: \"fine, \x7bprompt\x7d\"\nnegative-prompt: ugly\n".toUTF8),
    (["b"], .file
      "implements: a\ntemplate: \"\x7bprompt\x7d, soft\"\nnegative-prompt: dull\n".toUTF8),
    (["c"], .file "implements: b\ngeneration: \x7b\x7d\nprompt: cat\n".toUTF8)]⟩
  directory := []

theorem three_generations_resolve :
    ∃ first middle last : Member threeGenerations,
      Lineage first [middle, last] ∧
      ∃ config, (resolve threeGenerations last.document (.start .empty)).1 = .ok config ∧
        config.positive = "fine, cat, soft" ∧ config.negative = "dull" ∧
        (resolve threeGenerations last.document (.start .empty)).2.warnings =
          [(Notice.negativeReplaced ⟨"/a"⟩).finding ⟨"/b"⟩ "negative-prompt"] := by
  have checked : (member? threeGenerations ["a"]).any (fun first =>
      (member? threeGenerations ["b"]).any fun middle =>
        (member? threeGenerations ["c"]).any fun last => decide (
          (first.config.kind = .template ∧ first.layer.implements = none) ∧
          (parent? threeGenerations middle.document).map Document.location =
            some first.document.location ∧
          (parent? threeGenerations last.document).map Document.location =
            some middle.document.location ∧
          accumulated (·.layer.positive) positiveMarker first [middle, last] = "fine, cat, soft" ∧
          accumulated (·.layer.negative) negativeMarker first [middle, last] = "dull" ∧
          ([middle, last].zipIdx.flatMap fun (member, index) =>
              replacements first ([middle, last].take index) member) =
            [(Notice.negativeReplaced ⟨"/a"⟩).finding ⟨"/b"⟩ "negative-prompt"])) = true := by
    decide +kernel
  simp only [Option.any_eq_true, decide_eq_true_eq] at checked
  obtain ⟨first, _, middle, _, last, _, ⟨template, orphan⟩, middleUp, lastUp, positiveText,
    negativeText, warnings⟩ := checked
  have upper : Lineage first [middle] :=
    Lineage.child (.alone template orphan) (implements_of_location first.held middleUp)
  have lineage : Lineage first [middle, last] :=
    Lineage.child upper (implements_of_location middle.held lastUp)
  have asked : ∀ call ∈ ([] : List Call), threeGenerations.Holds call.document := by simp
  obtain ⟨config, resolved, _, _, _, _, _, positive, negative, warned⟩ :=
    lineage_resolves (by decide +kernel) .same lineage asked
  exact ⟨first, middle, last, lineage, config, resolved, positive.trans positiveText,
    negative.trans negativeText, warned.trans warnings⟩

end Resolver

end PromptLoom
