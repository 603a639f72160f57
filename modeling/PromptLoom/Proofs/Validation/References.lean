import PromptLoom.Proofs.Chunk.Mentions
import PromptLoom.Proofs.Graph.Outlines
import PromptLoom.Proofs.Prompt.Completeness
import PromptLoom.Proofs.Prompt.Preparation

/-!
# Errors of references against full resolution

The check of references reads the bodies of a chain one by one, as they are written; a full
resolution reads what they are merged to. Where the resolution succeeds, an error of the check is
about text that it never meets: a placeholder that is in no expanded body, or a mention that no
merged body has.
-/

namespace PromptLoom

open Workspace Resolver

set_option autoImplicit false

variable {workspace : Workspace}

/-- A mention names a declared chunk, and the outline of the chunk has nothing to say about it. -/
def Declared.Fulfils (declared : Declared) (parsed : Except MentionError ChunkRef) : Prop :=
  ∃ ref outline, parsed = .ok ref ∧ declared.chunks.get? ref.name = some (some outline) ∧
    outline.findings ref = []

theorem Declared.mem_lifted_names {declared : Declared} {name imported : String}
    {outline : ChunkOutline} (known : declared.chunks.get? name = some (some outline))
    (inside : imported ∈ outline.imports) : name ++ "." ++ imported ∈ declared.scope :=
  List.mem_append_right _ (List.mem_flatMap.mpr
    ⟨(name, some outline), NameMap.mem_of_get? known, List.mem_map_of_mem inside⟩)

namespace Expansion

theorem lift_imports_names {chunkName : String} {own scope : Scope} {names : List String}
    (known : scope.NamesIn names)
    (lifted : ∀ name, own.contains name = true → chunkName ++ "." ++ name ∈ names) :
    (liftImports chunkName own scope).NamesIn names := by
  have each : ∀ entry ∈ own.entries, chunkName ++ "." ++ entry.1 ∈ names :=
    fun entry member => lifted entry.1 (NameMap.contains_of_mem member)
  unfold liftImports
  generalize own.entries = entries at each
  induction entries generalizing scope with
  | nil => exact known
  | cons entry rest ih =>
      obtain ⟨first, others⟩ := List.forall_mem_cons.mp each
      exact ih (known.insert first entry.2) others

/-- A state whose resolver is sound and whose scope holds declared names only. -/
structure Within (workspace : Workspace) (declared : Declared) (state : Expansion) : Prop where
  sound : state.resolver.Sound workspace
  names : state.scope.NamesIn declared.scope

section Covered

variable {graph : Graph} {config : ResolvedConfig} {declared : Declared}
  (named : workspace.tree.WellNamed) (charts : graph.Charts workspace [])
  (covers : Graph.Covers workspace graph declared config.imports config.chunks)

include named charts covers

theorem open_chunk_outline {name : String} {decl : ChunkDecl} {resolver later : Resolver}
    {chunk : ResolvedChunk} (sound : resolver.Sound workspace)
    (known : config.chunks.get? name = some decl)
    (opened : openChunk workspace name decl resolver = (.ok chunk, later)) :
    later.Sound workspace ∧ ∃ outline, declared.chunks.get? name = some (some outline) ∧
      outline.Tells chunk := by
  rcases leads : workspace.target decl.reference decl.origin (Config.chunkField name)
    with failure | document
  · have failed := open_reference_result sound.shown decl.reference decl.origin
      (Config.chunkField name)
    rcases run : workspace.openReference decl.reference decl.origin (Config.chunkField name)
      resolver.cache with ⟨result, cache⟩
    rw [run, leads] at failed
    obtain rfl : result = .error failure := failed
    simp only [openChunk, run] at opened
    cases opened
  obtain ⟨answer, after⟩ := open_chunk_answer named sound leads
  rw [opened] at answer after
  obtain ⟨⟨found, own⟩, merged, rfl⟩ : ∃ pair, chunkOutlook workspace document = .ok pair ∧
      pair.1 = chunk := by
    rcases merged : chunkOutlook workspace document with error | pair
    · rw [merged] at answer
      cases answer
    · rw [merged] at answer
      exact ⟨pair, rfl, (Except.ok.inj answer).symm⟩
  obtain ⟨inside, outlined⟩ := covers.outline_of charts known leads
  obtain ⟨outline, same, tells⟩ := charts.outline_of (target_holds leads) inside merged
  exact ⟨after, outline, same ▸ outlined, tells⟩

theorem expand_ref_within {field : String} {state : Expansion} {ref : ChunkRef}
    (within : state.Within workspace declared)
    (clean : (expandRef workspace config field state ref).2.errors = []) :
    (expandRef workspace config field state ref).2.Within workspace declared ∧
      declared.Fulfils (.ok ref) := by
  unfold expandRef at clean ⊢
  rcases known : config.chunks.get? ref.name with _ | decl
  · rw [known] at clean
    exact absurd clean (List.append_ne_nil_of_right_ne_nil _ (List.cons_ne_nil _ _))
  rcases opened : openChunk workspace ref.name decl state.resolver with ⟨failure | chunk, resolver⟩
  · simp only [known, opened] at clean
    exact absurd clean (List.append_ne_nil_of_right_ne_nil _ (List.cons_ne_nil _ _))
  obtain ⟨sound, outline, outlined, tells⟩ :=
    open_chunk_outline named charts covers within.sound known opened
  have grown := Scope.resolve_grown workspace chunk.imports resolver.cache
  rcases resolved : Scope.resolve workspace chunk.imports resolver.cache with ⟨failures | own, cache⟩
  · have some := Scope.resolve_errors_ne_nil (congrArg Prod.fst resolved)
    simp only [known, opened, resolved] at clean
    exact absurd clean (List.append_ne_nil_of_right_ne_nil _ some)
  rw [resolved] at grown
  simp only [known, opened, resolved] at clean ⊢
  have filled := (List.append_eq_nil_iff.mp clean).2
  have ownNames : own.NamesIn outline.imports := Scope.resolve_names resolved tells.imports
  refine ⟨⟨sound.with_cache grown, ?_⟩, ref, outline, rfl, outlined, ?_⟩
  · exact lift_imports_names within.names fun name inside =>
      Declared.mem_lifted_names outlined (ownNames name inside)
  · exact Chunk.fill_clean tells ownNames filled

theorem expand_parts_within {field : String} {state : Expansion} {parts : List BodyPart}
    (within : state.Within workspace declared)
    (clean : (expandParts workspace config field state parts).2.errors = []) :
    (expandParts workspace config field state parts).2.Within workspace declared ∧
      ∀ source parsed, .mention source parsed ∈ parts → declared.Fulfils parsed := by
  induction parts generalizing state with
  | nil =>
      refine ⟨within, ?_⟩
      intro source parsed member
      cases member
  | cons part rest ih =>
      cases part with
      | char c =>
          obtain ⟨after, fulfilled⟩ := ih within clean
          refine ⟨after, ?_⟩
          intro source parsed member
          rcases List.mem_cons.mp member with other | later
          · cases other
          · exact fulfilled source parsed later
      | mention text parse =>
          cases parse with
          | error problem =>
              -- the error of a malformed mention stays to the end
              have kept := expand_parts_errors workspace config field
                (state.fail ⟨config.source, some field, .malformedMention problem⟩) rest
              have failed := List.prefix_nil.mp ((show _ = [] from clean) ▸ kept)
              exact absurd failed (List.append_ne_nil_of_right_ne_nil _ (List.cons_ne_nil _ _))
          | ok ref =>
              have kept := expand_parts_errors workspace config field
                (expandRef workspace config field state ref).2 rest
              have before := List.prefix_nil.mp ((show _ = [] from clean) ▸ kept)
              obtain ⟨next, first⟩ := expand_ref_within named charts covers within before
              obtain ⟨after, fulfilled⟩ := ih next clean
              refine ⟨after, ?_⟩
              intro source parsed member
              rcases List.mem_cons.mp member with same | later
              · cases same
                exact first
              · exact fulfilled source parsed later

end Covered

end Expansion

/-! ### What a resolved prompt meets -/

def Resolution.mentions (resolution : Resolution) : List LocatedMention :=
  LocatedMention.ofText resolution.config.positive ++
    LocatedMention.ofText resolution.config.negative

def Resolution.placeholders (resolution : Resolution) : List Placeholder :=
  PromptLoom.placeholders resolution.prepared.positiveText ++
    PromptLoom.placeholders resolution.prepared.negativeText

/-- Everything that a resolved prompt meets is declared. -/
structure Declared.Meets (declared : Declared) (resolution : Resolution) : Prop where
  known : ∀ met ∈ resolution.placeholders, declared.isKnown met.name = true
  fulfilled : ∀ met ∈ resolution.mentions, declared.Fulfils met.parsed

theorem LocatedMention.mem_of_parts {parts : List BodyPart} {offset : Nat}
    {mention : LocatedMention} (member : mention ∈ ofParts offset parts) :
    ∃ source, .mention source mention.parsed ∈ parts := by
  rw [of_parts_places] at member
  obtain ⟨place, among, rfl⟩ := List.mem_map.mp member
  obtain ⟨front, part, behind, rfl, found, -, -⟩ := Text.mem_places.mp among
  cases part with
  | char c => cases found
  | mention source parsed =>
      refine ⟨source, List.mem_append_right front ?_⟩
      rw [ofPlace, ← Option.some.inj found]
      exact .head _

theorem prepare_names {separator : String} {config : ResolvedConfig} {scope : Scope}
    {resolver : Resolver} {draws : Draws} {prepared : Prepared}
    (ready : (prepare workspace separator config scope resolver draws).result = .ok prepared)
    {met : Placeholder}
    (member : met ∈ placeholders prepared.positiveText ++ placeholders prepared.negativeText)
    (free : Placeholder.isReserved met.name = false) :
    let first := Expansion.expandBody workspace config "prompt" config.positive
      ⟨resolver, scope, [], []⟩
    let second := Expansion.expandBody workspace config "negative-prompt" config.negative first.2
    second.2.scope.contains met.name = true := by
  intro first second
  obtain ⟨table, known, filled⟩ := prepare_table ready
  have listed : met.name ∈ prepared.slots.map Slot.name := by
    rw [SlotTable.filled_names filled, known.names]
    exact SlotTable.mem_slot_names.mpr ⟨⟨met, member, rfl⟩, free⟩
  obtain ⟨slot, inside, same⟩ := List.mem_map.mp listed
  obtain ⟨entry, _, named, _, set, found, _⟩ := SlotTable.filled_from filled inside
  rw [← same, named]
  exact NameMap.contains_eq_true_iff.mpr ⟨set, found⟩

section Covered

variable {graph : Graph} {config : ResolvedConfig} {declared : Declared}
  (named : workspace.tree.WellNamed) (charts : graph.Charts workspace [])
  (covers : Graph.Covers workspace graph declared config.imports config.chunks)

include named charts covers

theorem prepare_meets {separator : String} {scope : Scope} {resolver : Resolver} {draws : Draws}
    {prepared : Prepared} (sound : resolver.Sound workspace)
    (names : scope.NamesIn declared.imports)
    (ready : (prepare workspace separator config scope resolver draws).result = .ok prepared)
    (warnings : List Finding) : declared.Meets ⟨config, prepared, warnings⟩ := by
  have start : (Expansion.mk resolver scope [] []).Within workspace declared :=
    ⟨sound, fun name inside => List.mem_append_left _ (names name inside)⟩
  have clean := prepare_expanded ready
  have kept := Expansion.expand_parts_errors workspace config "negative-prompt"
    (Expansion.expandBody workspace config "prompt" config.positive ⟨resolver, scope, [], []⟩).2
    (BodyPart.ofText config.negative)
  have before := List.prefix_nil.mp ((show _ = [] from clean) ▸ kept)
  obtain ⟨next, positive⟩ := Expansion.expand_parts_within named charts covers start before
  obtain ⟨after, negative⟩ := Expansion.expand_parts_within named charts covers next clean
  constructor
  · intro met member
    cases reserved : Placeholder.isReserved met.name with
    | true => simp [Declared.isKnown, reserved]
    | false =>
        have inside := after.names _ (prepare_names ready member reserved)
        simp [Declared.isKnown, inside]
  · intro met member
    rcases List.mem_append.mp member with first | second
    · obtain ⟨source, part⟩ := LocatedMention.mem_of_parts first
      exact positive source met.parsed part
    · obtain ⟨source, part⟩ := LocatedMention.mem_of_parts second
      exact negative source met.parsed part

end Covered

theorem resolve_prompt_steps {separator : String} {entry : Document} {cache : Cache}
    {draws : Draws} {resolution : Resolution}
    (resolved : (resolvePrompt workspace separator entry cache draws).result = .ok resolution) :
    ∃ resolver scope later,
      Resolver.resolve workspace entry (.start cache) = (.ok resolution.config, resolver) ∧
      Scope.resolve workspace resolution.config.imports resolver.cache = (.ok scope, later) ∧
      (prepare workspace separator resolution.config scope { resolver with cache := later }
        draws).result = .ok resolution.prepared := by
  unfold resolvePrompt at resolved
  rcases run : Resolver.resolve workspace entry (.start cache) with ⟨failure | config, resolver⟩
  · rw [run] at resolved
    cases resolved
  rcases imported : Scope.resolve workspace config.imports resolver.cache with ⟨failures | scope, later⟩
  · simp only [run, imported] at resolved
    cases resolved
  simp only [run, imported] at resolved
  rcases ready : (prepare workspace separator config scope { resolver with cache := later }
      draws).result with failures | prepared
  · rw [ready] at resolved
    cases resolved
  rw [ready] at resolved
  obtain rfl := Except.ok.inj resolved
  exact ⟨resolver, scope, later, rfl, imported, ready⟩

/-- What an entry that resolves has met is what its chain declares. -/
theorem resolve_prompt_meets {graph : Graph} {entry : Document} {separator : String} {cache : Cache}
    {draws : Draws} {resolution : Resolution} (named : workspace.tree.WellNamed)
    (charts : graph.Charts workspace []) (shown : workspace.Grown .empty cache)
    (held : workspace.Holds entry) (inside : entry.location ∈ graph.locations)
    (resolved : (resolvePrompt workspace separator entry cache draws).result = .ok resolution) :
    (Declared.ofChain graph (graph.chain entry.location)).Meets resolution := by
  obtain ⟨resolver, scope, later, run, imported, ready⟩ := resolve_prompt_steps resolved
  have climb := resolve_climb named held (Sound.start shown).shown
  obtain ⟨sound, answered⟩ := climb.sound named held (.start shown)
  rw [run] at sound answered
  obtain ⟨own, merged⟩ := answered _ rfl
  have covers := charts.chain_covers merged held inside
  have grown := Scope.resolve_grown workspace resolution.config.imports resolver.cache
  rw [imported] at grown
  have names := Scope.resolve_names imported covers.imports
  exact prepare_meets named charts covers (sound.with_cache grown) names ready resolution.warnings

/-! ### Errors of the check -/

/-- The error of a body is about something that a resolved prompt has not met: a placeholder whose
name is on none of the expanded bodies, a malformed mention while all of the merged bodies are well
formed, a chunk that none of these mentions, or a placeholder of a chunk that each of these binds
while the one found does not. -/
inductive Unmet (resolution : Resolution) (path : Path) (field body : String) (finding : Finding) :
    Prop where
  | placeholder (found : LocatedPlaceholder) (written : found ∈ LocatedPlaceholder.ofText body)
      (equal : finding = .fault path field (.unknownPlaceholder found.placeholder.name))
      (unmet : ∀ met ∈ resolution.placeholders, met.name ≠ found.placeholder.name)
  | malformed (problem : MentionError) (start stop : Nat)
      (written : ⟨.error problem, start, stop⟩ ∈ LocatedMention.ofText body)
      (equal : finding = .fault path field (.malformedMention problem))
      (unmet : ∀ met ∈ resolution.mentions, ∃ ref, met.parsed = .ok ref)
  | chunk (ref : ChunkRef) (start stop : Nat)
      (written : ⟨.ok ref, start, stop⟩ ∈ LocatedMention.ofText body)
      (equal : finding = .fault path field (.unknownChunk ref.name))
      (unmet : ∀ met ∈ resolution.mentions, ∀ other, met.parsed = .ok other →
        other.name ≠ ref.name)
  | unfilled (ref : ChunkRef) (start stop : Nat) (source : Path) (name : String)
      (written : ⟨.ok ref, start, stop⟩ ∈ LocatedMention.ofText body)
      (equal : finding = .fault source "template" (.unfilledPlaceholder name ref.name))
      (unbound : ∀ binding ∈ ref.bindings, binding.1 ≠ name)
      (unmet : ∀ met ∈ resolution.mentions, ∀ other, met.parsed = .ok other →
        other.name = ref.name → ∃ binding ∈ other.bindings, binding.1 = name)

section Meets

variable {declared : Declared} {resolution : Resolution} (meets : declared.Meets resolution)
  {path : Path} {field body : String} {finding : Finding}

include meets

theorem Declared.Meets.fulfilled_ref {met : LocatedMention} (member : met ∈ resolution.mentions)
    {ref : ChunkRef} (parsed : met.parsed = .ok ref) :
    ∃ outline, declared.chunks.get? ref.name = some (some outline) ∧ outline.findings ref = [] := by
  obtain ⟨same, outline, equal, known, nothing⟩ := meets.fulfilled met member
  obtain rfl := Except.ok.inj (parsed.symm.trans equal)
  exact ⟨outline, known, nothing⟩

theorem Declared.Meets.unfilled_unmet {ref : ChunkRef} {outline : ChunkOutline} {start stop : Nat}
    (written : ⟨.ok ref, start, stop⟩ ∈ LocatedMention.ofText body)
    (known : declared.chunks.get? ref.name = some (some outline))
    (member : finding ∈ outline.findings ref) : Unmet resolution path field body finding := by
  obtain ⟨found, unready, rfl⟩ := List.mem_map.mp member
  obtain ⟨inside, nothing⟩ := List.mem_filter.mp unready
  simp only [Bool.not_eq_true', Bool.or_eq_false_iff, List.any_eq_false, beq_iff_eq] at nothing
  obtain ⟨⟨⟨unbound, free⟩, unfilled⟩, notImported⟩ := nothing
  refine .unfilled ref start stop outline.source found.name written rfl unbound ?_
  intro met memberMet other parsed same
  obtain ⟨_, otherKnown, clean⟩ := meets.fulfilled_ref memberMet parsed
  rw [same, known] at otherKnown
  obtain rfl := Option.some.inj (Option.some.inj otherKnown)
  -- nothing else stands ready for the name, so only a binding keeps the outline silent
  have ready := List.filter_eq_nil_iff.mp (List.map_eq_nil_iff.mp clean) found inside
  simp only [free, unfilled, notImported, Bool.or_false, Bool.not_eq_true, Bool.not_eq_false',
    List.any_eq_true, beq_iff_eq] at ready
  exact ready

theorem Declared.Meets.mention_unmet {mention : LocatedMention}
    (written : mention ∈ LocatedMention.ofText body)
    (member : finding ∈ declared.mentionFindings path field mention) :
    Unmet resolution path field body finding := by
  obtain ⟨parsed, start, stop⟩ := mention
  cases parsed with
  | error problem =>
      refine .malformed problem start stop written (List.mem_singleton.mp member) ?_
      intro met memberMet
      obtain ⟨ref, _, parsed, _⟩ := meets.fulfilled met memberMet
      exact ⟨ref, parsed⟩
  | ok ref =>
      simp only [Declared.mentionFindings] at member
      split at member
      · next unknown =>
          refine .chunk ref start stop written (List.mem_singleton.mp member) ?_
          intro met memberMet other parsed same
          obtain ⟨outline, known, _⟩ := meets.fulfilled_ref memberMet parsed
          rw [same, unknown] at known
          cases known
      · cases member
      · next outline known => exact meets.unfilled_unmet written known member

theorem Declared.Meets.body_unmet (member : finding ∈ declared.bodyFindings path field body) :
    Unmet resolution path field body finding := by
  rcases List.mem_append.mp member with mentioned | unknown
  · obtain ⟨mention, written, inside⟩ := List.mem_flatMap.mp mentioned
    exact meets.mention_unmet written inside
  · obtain ⟨found, unready, rfl⟩ := List.mem_map.mp unknown
    obtain ⟨written, stray⟩ := List.mem_filter.mp unready
    simp only [Bool.not_eq_true', Bool.or_eq_false_iff] at stray
    refine .placeholder found written rfl ?_
    intro met memberMet same
    have known := meets.known met memberMet
    rw [same, stray.2] at known
    cases known

end Meets

/-- Where an entry resolves in full, the check of references adds an error only for a body on the
chain of the entry, and about something that the resolved prompt has not met. -/
theorem reference_errors_unmet (named : workspace.tree.WellNamed) {path : Path} {separator : String}
    {cache later : Cache} {draws : Draws} {entry : Document} {resolution : Resolution}
    (shown : workspace.Grown .empty cache) (laterShown : workspace.Grown .empty later)
    (present : (Graph.ofEntry workspace path cache).1.entry = some entry)
    (resolved : (resolvePrompt workspace separator entry later draws).result = .ok resolution) :
    ∀ finding ∈ (Graph.ofEntry workspace path cache).1.referenceFindings,
      ∃ location ∈ (Graph.ofEntry workspace path cache).1.chain entry.location,
        ∃ config, (Graph.ofEntry workspace path cache).1.config? location = some config ∧
          ∃ body ∈ config.bodies,
            Unmet resolution (.ofLocation location) body.1 body.2 finding := by
  have charts := Graph.of_entry_charts path shown
  obtain ⟨held, met⟩ := charts.entry entry present
  have meets :=
    resolve_prompt_meets named charts laterShown held (Graph.Charts.met_inside met) resolved
  intro finding member
  unfold Graph.referenceFindings at member
  split at member
  · next other _ _ found _ =>
      obtain rfl := Option.some.inj (present.symm.trans found)
      obtain ⟨location, above, inside⟩ := List.mem_flatMap.mp member
      unfold Declared.documentFindings at inside
      split at inside
      · cases inside
      · next config known =>
          obtain ⟨body, written, own⟩ := List.mem_flatMap.mp inside
          exact ⟨location, above, config, known, body, written, meets.body_unmet own⟩
  · cases member

def replacedBody : Workspace where
  tree := ⟨[(["b"], .file
      "template: \"fine, \x7bprompt\x7d\"\nnegative-prompt: \"\x7bGhost\x7d\"\n".toUTF8),
    (["p"], .file
      "implements: b\ngeneration: \x7b\x7d\nprompt: cat\nnegative-prompt: blurry\n".toUTF8)]⟩
  directory := []

theorem replaced_body_checked :
    ∃ entry resolution, (Graph.ofEntry replacedBody ⟨"p"⟩ .empty).1.entry = some entry ∧
      (resolvePrompt replacedBody "," entry .empty (.seeded 0)).result = .ok resolution ∧
      (Graph.ofEntry replacedBody ⟨"p"⟩ .empty).1.referenceFindings.any Finding.isError = true := by
  have checked : (Graph.ofEntryWithin replacedBody 5 ⟨"p"⟩).any (fun graph =>
      graph.referenceFindings.any Finding.isError &&
      graph.entry.any fun entry =>
        (resolvePrompt replacedBody "," entry .empty (.seeded 0)).result.isOk) = true := by
    decide +kernel
  simp only [Option.any_eq_true, Bool.and_eq_true] at checked
  obtain ⟨graph, explored, alarms, entry, present, ended⟩ := checked
  rw [Graph.of_entry_within explored]
  rcases resolved : (resolvePrompt replacedBody "," entry .empty (.seeded 0)).result
    with errors | resolution
  · rw [resolved] at ended
    cases ended
  · exact ⟨entry, resolution, present, resolved, alarms⟩

/-- The check of references does add an error to a prompt that resolves. -/
theorem replaced_body_alarms : ¬ ∀ (workspace : Workspace) (path : Path) (separator : String)
    (draws : Draws) (entry : Document) (resolution : Resolution), workspace.tree.WellNamed →
    (Graph.ofEntry workspace path .empty).1.entry = some entry →
    (resolvePrompt workspace separator entry .empty draws).result = .ok resolution →
    (Graph.ofEntry workspace path .empty).1.referenceFindings.any Finding.isError = false := by
  intro quiet
  obtain ⟨entry, resolution, present, resolved, alarms⟩ := replaced_body_checked
  have silent := quiet replacedBody ⟨"p"⟩ "," (.seeded 0) entry resolution (by decide +kernel) present
    resolved
  cases alarms.symm.trans silent

theorem replaced_body_unmet :
    ∃ entry resolution, (resolvePrompt replacedBody "," entry .empty (.seeded 0)).result =
        .ok resolution ∧
      ∃ finding ∈ (Graph.ofEntry replacedBody ⟨"p"⟩ .empty).1.referenceFindings,
        finding.isError = true ∧
        ∃ location ∈ (Graph.ofEntry replacedBody ⟨"p"⟩ .empty).1.chain entry.location,
          ∃ config, (Graph.ofEntry replacedBody ⟨"p"⟩ .empty).1.config? location = some config ∧
            ∃ body ∈ config.bodies,
              Unmet resolution (.ofLocation location) body.1 body.2 finding := by
  obtain ⟨entry, resolution, present, resolved, alarms⟩ := replaced_body_checked
  obtain ⟨finding, member, grave⟩ := List.any_eq_true.mp alarms
  exact ⟨entry, resolution, resolved, finding, member, grave,
    reference_errors_unmet (by decide +kernel) .same .same present resolved finding member⟩

end PromptLoom
