import PromptLoom.Proofs.Chunk.Filling
import PromptLoom.Proofs.Prompt.Lifting
import PromptLoom.Proofs.Prompt.Readiness
import PromptLoom.Proofs.Prompt.Seams

/-!
# Mentions that do not depend on each other

An override or a default of a chunk is looked up in the scope of the caller, which holds the imports
lifted by the mentions before it. Where no chunk refers to an import that another mentioned chunk
lifts, every mention expands to what it expands to by itself, and the order of the mentions does not
decide whether the prompt can be prepared.
-/

namespace PromptLoom

open Text Workspace Resolver

set_option autoImplicit false

variable {workspace : Workspace}

def ValueRef.importName? (value : String) : Option String :=
  (parse? (trim value.toList)).map fun (name, _) => String.ofList name

/-- A chunk looks a name up in the scope of its caller: one of its overrides or defaults refers to
it, and it is no import of the chunk's own. -/
def ResolvedChunk.Consults (chunk : ResolvedChunk) (own : Scope) (name : String) : Prop :=
  own.get? name = none ∧ ∃ entry ∈ chunk.overrides.entries ++ chunk.defaults.entries,
    ValueRef.importName? entry.2 = some name

/-- One chunk looks up a name that a mention of another one lifts into the scope of the caller. -/
def ResolvedConfig.Entangled (workspace : Workspace) (config : ResolvedConfig)
    (reader lifter : String) : Prop :=
  reader ≠ lifter ∧ ∃ decl chunk own name set, config.chunks.get? reader = some decl ∧
    decl.outlook workspace reader = .ok (chunk, own) ∧ chunk.Consults own name ∧
    config.Lifts workspace lifter name set

/-- No two chunks that the bodies mention are entangled. -/
def ResolvedConfig.Unentangled (workspace : Workspace) (config : ResolvedConfig) : Prop :=
  ∀ reader ∈ config.mentioned, ∀ lifter ∈ config.mentioned,
    ¬ config.Entangled workspace reader lifter

/-! ### What a chunk reads from its caller -/

theorem ValueRef.resolve_congr {value : String} {own left right : Scope} (file : Path)
    (field : String)
    (same : ∀ name, importName? value = some name → own.get? name = none →
      left.get? name = right.get? name) :
    resolve value [own, left] file field = resolve value [own, right] file field := by
  unfold resolve
  dsimp only
  split
  · rfl
  rcases parsed : parse? (trim value.toList) with _ | ⟨name, key⟩
  · rfl
  have refers : importName? value = some (String.ofList name) := by
    rw [importName?, parsed]
    rfl
  have looked :
      lookup (String.ofList name) [own, left] = lookup (String.ofList name) [own, right] := by
    simp only [lookup, List.findSome?_cons, List.findSome?_nil]
    cases known : own.get? (String.ofList name) with
    | some set => rfl
    | none => rw [same _ refers known]
  simp only [looked]

namespace Chunk

variable {chunk : ResolvedChunk} {ref : ChunkRef} {own left right : Scope}

theorem filling_congr
    (same : ∀ name, chunk.Consults own name → left.get? name = right.get? name)
    (placeholder : Placeholder) :
    filling chunk ref own left placeholder = filling chunk ref own right placeholder := by
  have consulted : ∀ {map : NameMap String} {param value : String},
      (∀ entry ∈ map.entries, entry ∈ chunk.overrides.entries ++ chunk.defaults.entries) →
      map.get? param = some value → ∀ name, ValueRef.importName? value = some name →
      own.get? name = none → left.get? name = right.get? name := by
    intro map param value inside found name refers unknown
    exact same name ⟨unknown, (param, value), inside _ (NameMap.mem_of_get? found), refers⟩
  unfold filling
  dsimp only
  split
  · rfl
  split
  · rfl
  split
  · next found =>
      exact ValueRef.resolve_congr _ _
        (consulted (fun _ member => List.mem_append_left _ member) found)
  split
  · next found =>
      exact ValueRef.resolve_congr _ _
        (consulted (fun _ member => List.mem_append_right _ member) found)
  · rfl

/-- A chunk reads nothing else from the scope of its caller. -/
theorem fill_congr (same : ∀ name, chunk.Consults own name → left.get? name = right.get? name) :
    fill chunk ref own left = fill chunk ref own right := by
  have fills : replacement chunk ref own left = replacement chunk ref own right := by
    funext found
    rw [replacement, replacement, filling_congr same]
  have faults : fault? chunk ref own left = fault? chunk ref own right := by
    funext found
    rw [fault?, fault?, filling_congr same]
  rw [fill_eq, fill_eq, filledTexts, filledTexts, fills, faults]

end Chunk

namespace Expanded

open Expansion

variable {config : ResolvedConfig}

theorem of_ref_alone (field : String) (scope : Scope) (ref : ChunkRef) {names : List String}
    (idents : ∀ chunkName ∈ names, isIdent chunkName.toList = true)
    (apart : ∀ lifter ∈ names, ¬ config.Entangled workspace ref.name lifter) :
    let late := ofRef workspace config field (liftChunks workspace config scope names) ref
    let alone := ofRef workspace config field scope ref
    late.text = alone.text ∧ late.errors = alone.errors := by
  unfold ofRef
  rcases declared : config.chunks.get? ref.name with _ | decl
  · exact ⟨rfl, rfl⟩
  rcases opens : decl.outlook workspace ref.name with errors | ⟨chunk, own⟩
  · simp only [opens, and_self]
  have ownImports : config.ownImports workspace ref.name = own := by
    simp only [ResolvedConfig.ownImports, declared, opens]
  have filled : Chunk.fill chunk ref own
        (liftImports ref.name own (liftChunks workspace config scope names)) =
      Chunk.fill chunk ref own (liftImports ref.name own scope) := by
    apply Chunk.fill_congr
    intro name consults
    apply Option.ext
    intro set
    rw [← ownImports, get?_lift_own, get?_lift_own, get?_lift_chunks workspace config scope idents]
    have unlifted : ∀ lifter ∈ names, lifter ≠ ref.name → ∀ other,
        ¬ config.Lifts workspace lifter name other := by
      intro lifter member differ other lifts
      exact apart lifter member
        ⟨Ne.symm differ, decl, chunk, own, name, other, declared, opens, consults, lifts⟩
    constructor
    · rintro (lifts | ⟨none, ⟨lifter, member, lifts⟩ | ⟨_, known⟩⟩)
      · exact .inl lifts
      · by_cases same : lifter = ref.name
        · exact absurd (same ▸ lifts) (none set)
        · exact absurd lifts (unlifted lifter member same set)
      · exact .inr ⟨none, known⟩
    · rintro (lifts | ⟨none, known⟩)
      · exact .inl lifts
      · refine .inr ⟨none, .inr ⟨?_, known⟩⟩
        intro lifter member other lifts
        by_cases same : lifter = ref.name
        · exact none other (same ▸ lifts)
        · exact unlifted lifter member same other lifts
  simp only [opens, filled, and_self]

theorem of_part_alone (field : String) (scope : Scope) {part : BodyPart} {names : List String}
    (idents : ∀ chunkName ∈ names, isIdent chunkName.toList = true)
    (apart : ∀ reader ∈ part.chunkName?, ∀ lifter ∈ names,
      ¬ config.Entangled workspace reader lifter) :
    let late := ofPart workspace config field (liftChunks workspace config scope names) part
    let alone := ofPart workspace config field scope part
    late.text = alone.text ∧ late.errors = alone.errors ∧
      late.scope = liftChunks workspace config scope (names ++ part.chunkName?.toList) := by
  cases part with
  | char c =>
      simp only [ofPart, BodyPart.chunkName?, Option.toList_none, List.append_nil, and_self]
  | mention source parsed =>
      cases parsed with
      | error problem =>
          simp only [ofPart, BodyPart.chunkName?, Option.toList_none, List.append_nil, and_self]
      | ok ref =>
          obtain ⟨text, errors⟩ := of_ref_alone field scope ref idents (apart ref.name rfl)
          refine ⟨text, errors, ?_⟩
          rw [ofPart, of_ref_scope, BodyPart.chunkName?, Option.toList_some, liftChunks, liftChunks,
            List.foldl_append]
          rfl

theorem of_parts_alone (field : String) (scope : Scope) (names : List String)
    {parts : List BodyPart}
    (idents : ∀ chunkName ∈ names ++ parts.filterMap BodyPart.chunkName?,
      isIdent chunkName.toList = true)
    (apart : ∀ reader ∈ parts.filterMap BodyPart.chunkName?,
      ∀ lifter ∈ names ++ parts.filterMap BodyPart.chunkName?,
        ¬ config.Entangled workspace reader lifter) :
    let late := ofParts workspace config field (liftChunks workspace config scope names) parts
    late.text = parts.flatMap (fun part => (ofPart workspace config field scope part).text) ∧
      late.errors =
        parts.flatMap fun part => (ofPart workspace config field scope part).errors := by
  -- the induction is on the parts, with the chunks mentioned so far
  induction parts generalizing names with
  | nil => exact ⟨rfl, rfl⟩
  | cons part rest ih =>
      have listed : (part :: rest).filterMap BodyPart.chunkName? =
          part.chunkName?.toList ++ rest.filterMap BodyPart.chunkName? := by
        cases named : part.chunkName? with
        | none => rw [List.filterMap_cons_none named]; rfl
        | some name => rw [List.filterMap_cons_some named]; rfl
      rw [listed] at idents apart
      obtain ⟨text, error, after⟩ := of_part_alone field scope
        (fun chunkName member => idents chunkName (List.mem_append_left _ member))
        (fun reader mentioned lifter member => apart reader
          (List.mem_append_left _ (Option.mem_toList.mpr mentioned)) lifter
          (List.mem_append_left _ member))
      rw [← List.append_assoc] at idents apart
      obtain ⟨texts, errors⟩ := ih _ idents fun reader member =>
        apart reader (List.mem_append_right _ member)
      rw [← after] at texts errors
      simp only [ofParts, List.flatMap_cons]
      exact ⟨by rw [text, texts], by rw [error, errors]⟩

end Expanded

/-- A part of a body expanded with nothing before it: its text and its errors. -/
def Expansion.alone (workspace : Workspace) (config : ResolvedConfig) (field : String)
    (scope : Scope) (part : BodyPart) : List Char × List DocumentError :=
  let (text, state) := expandParts workspace config field ⟨.start .empty, scope, [], []⟩ [part]
  (text, state.errors)

theorem Expansion.alone_expanded (named : workspace.tree.WellNamed) (config : ResolvedConfig)
    (field : String) (scope : Scope) (part : BodyPart) :
    alone workspace config field scope part =
      ((Expanded.ofPart workspace config field scope part).text,
        (Expanded.ofPart workspace config field scope part).errors) := by
  obtain ⟨resolver, _, ran⟩ := expand_parts_anew named config field ⟨.start .empty, scope, [], []⟩
    (.start .same) [part]
  simp only [alone, ran, Expanded.ofParts, Expanded.after, List.append_nil, List.nil_append]

/-! ### Configs with the same chunks -/

section SameChunks

variable {config other : ResolvedConfig} (chunks : other.chunks = config.chunks)

include chunks

theorem ResolvedConfig.own_imports_congr :
    other.ownImports workspace = config.ownImports workspace := by
  funext chunkName
  simp only [ownImports, chunks]

theorem ResolvedConfig.Entangled.congr {reader lifter : String}
    (entangled : other.Entangled workspace reader lifter) :
    config.Entangled workspace reader lifter := by
  obtain ⟨differ, decl, chunk, own, name, set, declared, opens, consults, importName, same,
    found⟩ := entangled
  rw [chunks] at declared
  rw [own_imports_congr chunks] at found
  exact ⟨differ, decl, chunk, own, name, set, declared, opens, consults, importName, same, found⟩

theorem ResolvedConfig.Unentangled.congr (unentangled : config.Unentangled workspace)
    (mentioned : ∀ chunkName, chunkName ∈ other.mentioned ↔ chunkName ∈ config.mentioned) :
    other.Unentangled workspace := by
  intro reader readerMember lifter lifterMember entangled
  exact unentangled reader ((mentioned reader).mp readerMember) lifter
    ((mentioned lifter).mp lifterMember) (entangled.congr chunks)

theorem Expanded.of_part_congr (source : other.source = config.source) (field : String)
    (scope : Scope) (part : BodyPart) :
    ofPart workspace other field scope part = ofPart workspace config field scope part := by
  cases part with
  | char c => rfl
  | mention text parsed =>
      cases parsed with
      | ok ref => simp only [ofPart, ofRef, chunks, source]
      | error problem => simp only [ofPart, source]

theorem Expansion.lift_chunks_congr (scope : Scope) {names others : List String}
    (idents : ∀ chunkName ∈ names, isIdent chunkName.toList = true)
    (same : ∀ chunkName, chunkName ∈ others ↔ chunkName ∈ names) (name : String) :
    (liftChunks workspace other scope others).get? name =
      (liftChunks workspace config scope names).get? name := by
  have otherIdents : ∀ chunkName ∈ others, isIdent chunkName.toList = true :=
    fun chunkName member => idents chunkName ((same chunkName).mp member)
  have lifts : ∀ chunkName set, other.Lifts workspace chunkName name set ↔
      config.Lifts workspace chunkName name set := by
    intro chunkName set
    simp only [ResolvedConfig.Lifts, ResolvedConfig.own_imports_congr chunks]
  apply Option.ext
  intro set
  rw [get?_lift_chunks workspace other scope otherIdents,
    get?_lift_chunks workspace config scope idents]
  simp only [lifts, same]

end SameChunks

theorem BodyPart.Reordered.flat_map_nil {Item : Type} {first second : List BodyPart}
    (same : Reordered first second) {f : BodyPart → List Item} (chars : ∀ c, f (.char c) = []) :
    first.flatMap f = [] ↔ second.flatMap f = [] := by
  rw [List.flatMap_eq_nil_iff, List.flatMap_eq_nil_iff]
  constructor
  · intro nothing part member
    cases part with
    | char c => exact chars c
    | mention source parsed => exact nothing _ ((same.mention_mem source parsed).mpr member)
  · intro nothing part member
    cases part with
    | char c => exact chars c
    | mention source parsed => exact nothing _ ((same.mention_mem source parsed).mp member)

theorem BodyPart.Reordered.chunk_names {first second : List BodyPart}
    (same : Reordered first second) (chunkName : String) :
    chunkName ∈ first.filterMap chunkName? ↔ chunkName ∈ second.filterMap chunkName? := by
  simp only [List.mem_filterMap]
  constructor
  · rintro ⟨part, member, named⟩
    cases part with
    | char c => cases named
    | mention source parsed => exact ⟨_, (same.mention_mem source parsed).mp member, named⟩
  · rintro ⟨part, member, named⟩
    cases part with
    | char c => cases named
    | mention source parsed => exact ⟨_, (same.mention_mem source parsed).mpr member, named⟩

theorem ResolvedConfig.mentioned_reordered {config other : ResolvedConfig}
    (positive : BodyPart.Reordered (BodyPart.ofText config.positive)
      (BodyPart.ofText other.positive))
    (negative : BodyPart.Reordered (BodyPart.ofText config.negative)
      (BodyPart.ofText other.negative)) (chunkName : String) :
    chunkName ∈ other.mentioned ↔ chunkName ∈ config.mentioned := by
  rw [mentioned, mentioned, List.filterMap_append, List.filterMap_append, List.mem_append,
    List.mem_append, positive.chunk_names, negative.chunk_names]

theorem Expanded.bodies_alone {config : ResolvedConfig}
    (unentangled : config.Unentangled workspace) (scope : Scope) :
    let positive := ofParts workspace config "prompt" scope (BodyPart.ofText config.positive)
    let negative := ofParts workspace config "negative-prompt" positive.scope
      (BodyPart.ofText config.negative)
    positive.text = (BodyPart.ofText config.positive).flatMap (fun part =>
        (ofPart workspace config "prompt" scope part).text) ∧
      positive.errors = (BodyPart.ofText config.positive).flatMap (fun part =>
        (ofPart workspace config "prompt" scope part).errors) ∧
      negative.text = (BodyPart.ofText config.negative).flatMap (fun part =>
        (ofPart workspace config "negative-prompt" scope part).text) ∧
      negative.errors = (BodyPart.ofText config.negative).flatMap (fun part =>
        (ofPart workspace config "negative-prompt" scope part).errors) ∧
      negative.scope = Expansion.liftChunks workspace config scope config.mentioned := by
  intro positive negative
  have mentioned : config.mentioned =
      (BodyPart.ofText config.positive).filterMap BodyPart.chunkName? ++
        (BodyPart.ofText config.negative).filterMap BodyPart.chunkName? := List.filterMap_append
  have idents : ∀ chunkName ∈ config.mentioned, isIdent chunkName.toList = true :=
    fun _ member => ResolvedConfig.mentioned_ident member
  unfold ResolvedConfig.Unentangled at unentangled
  rw [mentioned] at unentangled idents
  obtain ⟨positiveText, positiveErrors⟩ := of_parts_alone "prompt" scope []
    (fun chunkName member => idents chunkName (List.mem_append_left _ member))
    (fun reader inside lifter member => unentangled reader (List.mem_append_left _ inside) lifter
      (List.mem_append_left _ member))
  obtain ⟨negativeText, negativeErrors⟩ := of_parts_alone "negative-prompt" scope _ idents
    (fun reader inside => unentangled reader (List.mem_append_right _ inside))
  have between : positive.scope = Expansion.liftChunks workspace config scope
      ((BodyPart.ofText config.positive).filterMap BodyPart.chunkName?) :=
    of_parts_scope config "prompt" scope (BodyPart.ofText config.positive)
  rw [← between] at negativeText negativeErrors
  exact ⟨positiveText, positiveErrors, negativeText, negativeErrors, bodies_scope config scope⟩

namespace Expansion

theorem expand_bodies_alone (named : workspace.tree.WellNamed) {resolver : Resolver}
    (sound : resolver.Sound workspace) (config : ResolvedConfig) {other : ResolvedConfig}
    (scope : Scope) (unentangled : other.Unentangled workspace)
    (source : other.source = config.source) (chunks : other.chunks = config.chunks) :
    let inPrompt := alone workspace config "prompt" scope
    let inNegative := alone workspace config "negative-prompt" scope
    let first := expandBody workspace other "prompt" other.positive ⟨resolver, scope, [], []⟩
    let second := expandBody workspace other "negative-prompt" other.negative first.2
    first.1 =
      String.ofList ((BodyPart.ofText other.positive).flatMap fun part => (inPrompt part).1) ∧
    second.1 =
      String.ofList ((BodyPart.ofText other.negative).flatMap fun part => (inNegative part).1) ∧
    second.2.errors = (BodyPart.ofText other.positive).flatMap (fun part => (inPrompt part).2) ++
      (BodyPart.ofText other.negative).flatMap (fun part => (inNegative part).2) ∧
    second.2.scope = liftChunks workspace other scope other.mentioned := by
  obtain ⟨firstText, secondText, later, errors⟩ := expand_bodies_anew named other scope sound
  have bodies := Expanded.bodies_alone unentangled scope
  simp only [Expanded.of_part_congr chunks source] at bodies
  obtain ⟨positiveText, positiveErrors, negativeText, negativeErrors, lifted⟩ := bodies
  simp only [alone_expanded named]
  refine ⟨firstText.trans (congrArg String.ofList positiveText),
    secondText.trans (congrArg String.ofList negativeText), errors.trans ?_, later.trans lifted⟩
  rw [positiveErrors, negativeErrors]

/-- Bodies with the same mentions in any order, where no chunk reads what another one lifts. Every
mention expands to what it expands to with nothing before it, the errors are those of the mentions,
and where no placeholder crosses the edge of an expansion the order of the mentions does not decide
whether the prompt can be prepared. -/
theorem mentions_expand_alone (named : workspace.tree.WellNamed) {resolver : Resolver}
    (sound : resolver.Sound workspace) {config other : ResolvedConfig} (scope : Scope)
    (unentangled : config.Unentangled workspace) (source : other.source = config.source)
    (chunks : other.chunks = config.chunks)
    (positive : BodyPart.Reordered (BodyPart.ofText config.positive)
      (BodyPart.ofText other.positive))
    (negative : BodyPart.Reordered (BodyPart.ofText config.negative)
      (BodyPart.ofText other.negative)) :
    let inPrompt := alone workspace config "prompt" scope
    let inNegative := alone workspace config "negative-prompt" scope
    let first := expandBody workspace other "prompt" other.positive ⟨resolver, scope, [], []⟩
    let second := expandBody workspace other "negative-prompt" other.negative first.2
    first.1 =
      String.ofList ((BodyPart.ofText other.positive).flatMap fun part => (inPrompt part).1) ∧
    second.1 =
      String.ofList ((BodyPart.ofText other.negative).flatMap fun part => (inNegative part).1) ∧
    second.2.errors = (BodyPart.ofText other.positive).flatMap (fun part => (inPrompt part).2) ++
      (BodyPart.ofText other.negative).flatMap (fun part => (inNegative part).2) ∧
    (BodyPart.Seamless (fun part => (inPrompt part).1) (BodyPart.ofText config.positive) →
      BodyPart.Seamless (fun part => (inNegative part).1) (BodyPart.ofText config.negative) →
      ∀ (separator : String) (draws otherDraws : Draws),
        (prepare workspace separator other scope resolver otherDraws).result.isOk =
          (prepare workspace separator config scope resolver draws).result.isOk) := by
  intro inPrompt inNegative first second
  have mentioned := ResolvedConfig.mentioned_reordered positive negative
  obtain ⟨firstText, secondText, errors, lifted⟩ :=
    expand_bodies_alone named sound config scope (unentangled.congr chunks mentioned) source chunks
  refine ⟨firstText, secondText, errors, ?_⟩
  intro positiveSeamless negativeSeamless separator draws otherDraws
  obtain ⟨ownFirst, ownSecond, ownErrors, ownLifted⟩ :=
    expand_bodies_alone named sound config scope unentangled rfl rfl
  have plain : ∀ field c, alone workspace config field scope (.char c) = ([c], []) := by
    intro field c
    rw [alone_expanded named]
    rfl
  have clean : second.2.errors = [] ↔
      (BodyPart.ofText config.positive).flatMap (fun part => (inPrompt part).2) ++
        (BodyPart.ofText config.negative).flatMap (fun part => (inNegative part).2) = [] := by
    rw [errors, List.append_eq_nil_iff, List.append_eq_nil_iff,
      positive.flat_map_nil fun c => congrArg Prod.snd (plain "prompt" c),
      negative.flat_map_nil fun c => congrArg Prod.snd (plain "negative-prompt" c)]
  have known : ∀ name, (liftChunks workspace other scope other.mentioned).get? name =
      (liftChunks workspace config scope config.mentioned).get? name :=
    lift_chunks_congr chunks scope (fun _ member => ResolvedConfig.mentioned_ident member) mentioned
  have written : ∀ found, found ∈ placeholders first.1 ++ placeholders second.1 ↔
      found ∈ placeholders (String.ofList
          ((BodyPart.ofText config.positive).flatMap fun part => (inPrompt part).1)) ++
        placeholders (String.ofList
          ((BodyPart.ofText config.negative).flatMap fun part => (inNegative part).1)) := by
    intro found
    rw [firstText, secondText, List.mem_append, List.mem_append]
    simp only [placeholders_of_list]
    rw [positiveSeamless.reordered_placeholders positive fun c =>
        congrArg Prod.fst (plain "prompt" c),
      negativeSeamless.reordered_placeholders negative fun c =>
        congrArg Prod.fst (plain "negative-prompt" c)]
  have succeeds : (prepare workspace separator other scope resolver otherDraws).result.isOk = true ↔
      second.2.errors = [] ∧ second.2.scope.Ready (placeholders first.1 ++ placeholders second.1) :=
    prepare_succeeds_iff
  have ownSucceeds :
      (prepare workspace separator config scope resolver draws).result.isOk = true ↔ _ :=
    prepare_succeeds_iff
  rw [ownErrors, ownLifted, ownFirst, ownSecond] at ownSucceeds
  rw [Bool.eq_iff_iff, succeeds, ownSucceeds, clean, lifted]
  refine and_congr_right fun _ => ⟨fun ready => ready.congr written known, fun ready => ?_⟩
  exact ready.congr (fun found => (written found).symm) (fun name => (known name).symm)

end Expansion

def moodBoard : Workspace where
  tree := ⟨[
    (["hue"], .file "type: x\nimports:\n  Hue: hues.yaml\ntemplate: warm\n".toUTF8),
    (["hues.yaml"], .file "red: crimson\n".toUTF8),
    (["shade"], .file ("type: x\noverrides:\n  Tone: Palette.red\n" ++
      "template: \"\x7bTone\x7d\"\n").toUTF8),
    (["tint"], .file ("type: x\noverrides:\n  Tone: B.Hue.red\n" ++
      "template: \"\x7bTone\x7d\"\n").toUTF8)]⟩
  directory := []

theorem mood_well_named : moodBoard.tree.WellNamed := by decide +kernel

def moodConfig (document positive : String) : ResolvedConfig where
  source := ⟨"/p"⟩
  name := ""
  parameters := .empty
  imports := .empty
  chunks := .ofList [("A", ⟨document, ⟨"/p"⟩⟩), ("B", ⟨"hue", ⟨"/p"⟩⟩)]
  loras := .empty
  positive := positive
  negative := ""
  generation := none

def moodScope : Scope := .ofList [("Palette", .ofList [("red", "scarlet")])]

theorem shade_unentangled : (moodConfig "shade" "@A @B").Unentangled moodBoard := by
  have mentioned : (moodConfig "shade" "@A @B").mentioned = ["A", "B"] := by decide +kernel
  have referred : ∀ reader ∈ ["A", "B"],
      (((moodConfig "shade" "@A @B").chunks.get? reader).all fun decl =>
        (decl.outlook moodBoard reader).toOption.all fun (chunk, _) =>
          (chunk.overrides.entries ++ chunk.defaults.entries).all fun entry =>
            ValueRef.importName? entry.2 == some "Palette") = true := by decide +kernel
  rw [ResolvedConfig.Unentangled, mentioned]
  rintro reader readerMember lifter lifterMember
    ⟨_, decl, chunk, own, name, set, declared, opens, ⟨_, entry, member, refers⟩, importName,
      same, _⟩
  have palette := referred reader readerMember
  simp only [declared, opens, Option.all_some, Except.toOption] at palette
  have looked := beq_iff_eq.mp (List.all_eq_true.mp palette entry member)
  obtain rfl := Option.some.inj (refers.symm.trans looked)
  have texts := congrArg String.toList same
  rcases List.mem_pair.mp lifterMember with rfl | rfl
  · simp at texts
  · simp at texts

theorem palette_mentions_reordered :
    (prepare moodBoard "," (moodConfig "shade" "@B @A") moodScope (.start .empty)
        (.seeded 0)).result.isOk =
      (prepare moodBoard "," (moodConfig "shade" "@A @B") moodScope (.start .empty)
        (.seeded 0)).result.isOk := by
  obtain ⟨_, _, _, same⟩ := Expansion.mentions_expand_alone mood_well_named (.start .same) moodScope
    shade_unentangled (rfl : (moodConfig "shade" "@B @A").source = _) rfl (by decide +kernel)
    (by decide +kernel)
  exact same (by decide +kernel) (by decide +kernel) "," (.seeded 0) (.seeded 0)

/-- A chunk that looks up what another one lifts can only be mentioned behind it. -/
theorem tint_mentions_ordered :
    BodyPart.Reordered (BodyPart.ofText "@B @A") (BodyPart.ofText "@A @B") ∧
    (prepare moodBoard "," (moodConfig "tint" "@B @A") moodScope (.start .empty)
        (.seeded 0)).result.isOk = true ∧
      (prepare moodBoard "," (moodConfig "tint" "@A @B") moodScope (.start .empty)
        (.seeded 0)).result.isOk = false := by
  decide +kernel

end PromptLoom
