import PromptLoom.Proofs.Chunk.Filling
import PromptLoom.Proofs.Inheritance.Calls
import PromptLoom.Proofs.Scope.Names
import PromptLoom.Proofs.Text.Cutting

/-!
# What a placeholder of a chunk is filled from

A chunk and its parent are two layers. What is bound to a placeholder counts before the overrides of
both layers, these before their defaults, and in each of them the chunk counts before its parent;
an import that one of the layers declares stands ready for a name that nothing is written for.
-/

namespace PromptLoom

open Text

set_option autoImplicit false

/-! ### Values -/

namespace ValueRef

/-- A value that is spelled as the name of an import and a key of it, blanks around it aside. -/
structure Refers (value importName key : String) : Prop where
  spelled : trim value.toList = importName.toList ++ '.' :: key.toList
  dotted : isDotted importName.toList = true
  filled : key ≠ ""
  keyed : ∀ c ∈ key.toList, isKeyChar c = true

/-- The text of a value that refers to no variation. -/
inductive Literal (value : String) : String → Prop where
  | escaped {text : String} (spelled : trim value.toList = '\x5c' :: text.toList) :
      Literal value text
  | plain (unescaped : ∀ text, trim value.toList ≠ '\x5c' :: text)
      (unrelated : ∀ importName key, ¬ Refers value importName key) : Literal value value

theorem parse?_eq_some {text name key : List Char} :
    parse? text = some (name, key) ↔
      text = name ++ '.' :: key ∧ isDotted name = true ∧ key ≠ [] ∧
        ∀ c ∈ key, isKeyChar c = true := by
  simp only [parse?, Option.filter_eq_some_iff, cut_at_last_char_eq_some, Bool.and_eq_true,
    Bool.not_eq_true', List.isEmpty_eq_false_iff, List.all_eq_true]
  constructor
  · rintro ⟨⟨whole, -⟩, ⟨dotted, filled⟩, keyed⟩
    exact ⟨whole, dotted, filled, keyed⟩
  · rintro ⟨whole, dotted, filled, keyed⟩
    have undotted : '.' ∉ key := fun member => absurd (keyed '.' member) (by decide)
    exact ⟨⟨whole, undotted⟩, ⟨dotted, filled⟩, keyed⟩

theorem Refers.parsed {value importName key : String} (refers : Refers value importName key) :
    parse? (trim value.toList) = some (importName.toList, key.toList) := by
  have filled : key.toList ≠ [] := fun empty => refers.filled (String.toList_eq_nil_iff.mp empty)
  exact parse?_eq_some.mpr ⟨refers.spelled, refers.dotted, filled, refers.keyed⟩

theorem refers_of_parsed {value : String} {name key : List Char}
    (parsed : parse? (trim value.toList) = some (name, key)) :
    Refers value (String.ofList name) (String.ofList key) := by
  obtain ⟨whole, dotted, filled, keyed⟩ := parse?_eq_some.mp parsed
  refine ⟨by simpa using whole, by simpa using dotted, ?_, by simpa using keyed⟩
  intro empty
  exact filled (by simpa using congrArg String.toList empty)

theorem Refers.unescaped {value importName key : String} (refers : Refers value importName key)
    (text : List Char) : trim value.toList ≠ '\x5c' :: text := by
  intro escaped
  have dotted := refers.dotted
  have spelled := refers.spelled.symm.trans escaped
  cases letters : importName.toList with
  | nil => simp [letters, isDotted, takeDotted, takeIdent] at dotted
  | cons c rest =>
      rw [letters] at spelled dotted
      obtain rfl := List.head_eq_of_cons_eq spelled
      have start : takeIdent ('\x5c' :: rest) = none := rfl
      rw [isDotted, take_dotted_none start] at dotted
      cases dotted

variable {value text importName key : String} {scopes : List Scope} {file : Path} {field : String}

theorem Literal.resolved (literal : Literal value text) :
    resolve value scopes file field = .ok text := by
  cases literal with
  | escaped spelled =>
      unfold resolve
      rw [spelled]
      exact congrArg _ String.ofList_toList
  | plain unescaped unrelated =>
      unfold resolve
      dsimp only
      split
      · next spelled => exact absurd spelled (unescaped _)
      rcases parsed : parse? (trim value.toList) with _ | ⟨name, key⟩
      · rfl
      · exact absurd (refers_of_parsed parsed) (unrelated _ _)

theorem Refers.resolved (refers : Refers value importName key) :
    resolve value scopes file field =
      match lookup importName scopes with
      | none => .error ⟨file, some field,
          .unknownValueImport (importName ++ "." ++ key) importName⟩
      | some set =>
          match set.get? key with
          | some variation => .ok variation.value
          | none => .error ⟨file, some field,
              .unknownValueKey (importName ++ "." ++ key) key importName⟩ := by
  have reference : String.ofList (trim value.toList) = importName ++ "." ++ key := by
    rw [refers.spelled]
    apply String.toList_inj.mp
    simp
  unfold resolve
  dsimp only
  split
  · next spelled => exact absurd spelled (refers.unescaped _)
  · rw [refers.parsed]
    cases looked : lookup importName scopes with
    | none => simp only [reference, String.ofList_toList, looked]
    | some set =>
        cases held : set.get? key <;> simp only [reference, String.ofList_toList, looked, held]

theorem literal_or_refers (value : String) :
    (∃ text, Literal value text) ∨ ∃ importName key, Refers value importName key := by
  by_cases related : ∃ importName key, Refers value importName key
  · exact .inr related
  · left
    by_cases escaped : ∃ text, trim value.toList = '\x5c' :: text
    · obtain ⟨text, spelled⟩ := escaped
      exact ⟨String.ofList text, .escaped (by simpa using spelled)⟩
    · exact ⟨value, .plain (fun text spelled => escaped ⟨text, spelled⟩)
        fun importName key refers => related ⟨importName, key, refers⟩⟩

end ValueRef

/-! ### Layers -/

inductive Layered (workspace : Workspace) (document : Document) :
    ChunkConfig → Option ChunkConfig → Prop where
  | alone {child : ChunkConfig} (read : document.read = .ok (.chunk child))
      (orphan : child.implements = none) : Layered workspace document child none
  | under {child parent : ChunkConfig} {reference : String} {other : Document}
      (read : document.read = .ok (.chunk child)) (implemented : child.implements = some reference)
      (leads : workspace.target reference document.path "implements" = .ok other)
      (parentRead : other.read = .ok (.chunk parent)) : Layered workspace document child (some parent)

/-- The body of a chunk is put in the place of every marker of its parent's body. Where there is no
marker, or no such body, the body of the chunk counts, and last the inherited one. -/
def ChunkConfig.mergedBody (child : ChunkConfig) (parent? : Option ChunkConfig) : String :=
  match child.body, parent?.bind ChunkConfig.body with
  | some own, some inherited =>
      if Text.contains inherited positiveMarker then
        String.ofList (replaceWord positiveMarker.toList own.toList inherited.toList)
      else own
  | some own, none => own
  | none, inherited => inherited.getD ""

/-- What a chunk declares by name is what the first of its layers declares. -/
structure ResolvedChunk.Merges (chunk : ResolvedChunk) (layers : List ChunkConfig) : Prop where
  ordered : chunk.imports.Ordered
  overrides : ∀ name, chunk.overrides.get? name =
    layers.findSome? fun layer => layer.overrides.get? name
  defaults : ∀ name, chunk.defaults.get? name =
    layers.findSome? fun layer => layer.defaults.get? name
  imports : ∀ name, chunk.imports.get? name =
    layers.findSome? fun layer => (layer.imports.get? name).map (⟨·, layer.source⟩)

theorem ResolvedChunk.root_merges {child : ChunkConfig} {path : Path}
    (under : child.ReadUnder path) : (root child).Merges [child] where
  ordered := NameMap.map_values_ordered _ under.imports
  overrides name := by rw [List.findSome?_singleton]; rfl
  defaults name := by rw [List.findSome?_singleton]; rfl
  imports name := by
    rw [List.findSome?_singleton]
    exact NameMap.get?_map_values ..

theorem ResolvedChunk.extend_merges {parent child : ChunkConfig} {path parentPath : Path}
    (above : parent.ReadUnder parentPath) (under : child.ReadUnder path) :
    (extend parent child).Merges [child, parent] where
  ordered := NameMap.merge_ordered (NameMap.map_values_ordered _ above.imports) _
  overrides name := by
    rw [find_some_pair]
    exact NameMap.get?_merge _ under.overrides name
  defaults name := by
    rw [find_some_pair]
    exact NameMap.get?_merge _ under.defaults name
  imports name := by
    have ordered : (ImportDecl.declare child.source child.imports).Ordered :=
      NameMap.map_values_ordered _ under.imports
    rw [find_some_pair, extend, NameMap.get?_merge _ ordered, ImportDecl.declare, ImportDecl.declare,
      NameMap.get?_map_values, NameMap.get?_map_values]

theorem Layered.of_outlook {workspace : Workspace} {document : Document} {chunk : ResolvedChunk}
    {own : List Finding} (merged : Resolver.chunkOutlook workspace document = .ok (chunk, own)) :
    ∃ child parent?, Layered workspace document child parent? ∧
      chunk.source = document.path ∧ chunk.body = child.mergedBody parent? ∧
      chunk.Merges (child :: parent?.toList) := by
  have source := Resolver.chunk_outlook_source merged
  obtain ⟨child, read, ⟨orphan, rfl, -⟩ |
    ⟨reference, other, parent, implemented, leads, parentRead, rfl, -⟩⟩ :=
    Resolver.chunk_outlook_read merged
  · refine ⟨child, none, .alone read orphan, source, ?_,
      ResolvedChunk.root_merges (Config.read_chunk read)⟩
    rw [ChunkConfig.mergedBody, ResolvedChunk.root]
    cases child.body <;> rfl
  · refine ⟨child, some parent, .under read implemented leads parentRead, source, ?_,
      ResolvedChunk.extend_merges (Config.read_chunk parentRead) (Config.read_chunk read)⟩
    rw [ChunkConfig.mergedBody, ResolvedChunk.extend, Option.bind_some]
    cases child.body with
    | none => rfl
    | some body =>
        cases parent.body with
        | none => rfl
        | some inherited =>
            simp only [inject, Option.getD_some]
            split <;> rfl

/-! ### Sources -/

namespace Chunk

/-- A text written for a placeholder: a value bound to it, which is taken as it is, or an override or
default, which may refer to a variation. -/
inductive Source where
  | bound (text : String)
  | value (field text : String)

/-- The texts written for a name in the order in which they count. -/
def sources (layers : List ChunkConfig) (ref : ChunkRef) (name : String) : List Source :=
  (ref.bindings.filter fun binding => binding.1 = name).map (fun binding => .bound binding.2) ++
    layers.filterMap (fun layer =>
      (layer.overrides.get? name).map (.value ("overrides." ++ name))) ++
    layers.filterMap fun layer => (layer.defaults.get? name).map (.value ("defaults." ++ name))

/-- Some declaration makes a name known, of several under one name the first. -/
def Registered (layers : List ChunkConfig) (name : String) : Prop :=
  ∃ declared spec, (layers.findSome? fun layer => layer.imports.get? declared) = some spec ∧
    name ∈ spec.registeredNames declared

/-- What becomes of a placeholder of a chunk that has its errors at a path. -/
inductive Outcome (layers : List ChunkConfig) (path : Path) (ref : ChunkRef) (own caller : Scope)
    (found : Placeholder) : Except DocumentError String → Prop where
  | reserved (taken : Placeholder.isReserved found.name = true) :
      Outcome layers path ref own caller found
        (.error ⟨path, some "template", .reservedInChunk found.name⟩)
  | bound {text : String} (free : Placeholder.isReserved found.name = false)
      (first : (sources layers ref found.name).head? = some (.bound text)) :
      Outcome layers path ref own caller found (.ok text)
  | literal {field value text : String} (free : Placeholder.isReserved found.name = false)
      (first : (sources layers ref found.name).head? = some (.value field value))
      (stands : ValueRef.Literal value text) : Outcome layers path ref own caller found (.ok text)
  | variation {field value importName key : String} {set : VariationSet} {entry : Variation}
      (free : Placeholder.isReserved found.name = false)
      (first : (sources layers ref found.name).head? = some (.value field value))
      (refers : ValueRef.Refers value importName key)
      (known : (own.get? importName).or (caller.get? importName) = some set)
      (held : set.get? key = some entry) : Outcome layers path ref own caller found (.ok entry.value)
  | unknownImport {field value importName key : String}
      (free : Placeholder.isReserved found.name = false)
      (first : (sources layers ref found.name).head? = some (.value field value))
      (refers : ValueRef.Refers value importName key)
      (unknown : (own.get? importName).or (caller.get? importName) = none) :
      Outcome layers path ref own caller found
        (.error ⟨path, some field, .unknownValueImport (importName ++ "." ++ key) importName⟩)
  | unknownKey {field value importName key : String} {set : VariationSet}
      (free : Placeholder.isReserved found.name = false)
      (first : (sources layers ref found.name).head? = some (.value field value))
      (refers : ValueRef.Refers value importName key)
      (known : (own.get? importName).or (caller.get? importName) = some set)
      (missing : set.get? key = none) :
      Outcome layers path ref own caller found
        (.error ⟨path, some field, .unknownValueKey (importName ++ "." ++ key) key importName⟩)
  | lifted (free : Placeholder.isReserved found.name = false)
      (unwritten : sources layers ref found.name = []) (registered : Registered layers found.name) :
      Outcome layers path ref own caller found
        (.ok (String.ofList (Chunk.lifted ref.name found).printed))
  | unfilled (free : Placeholder.isReserved found.name = false)
      (unwritten : sources layers ref found.name = [])
      (unregistered : ¬ Registered layers found.name) :
      Outcome layers path ref own caller found
        (.error ⟨path, some "template", .unfilledPlaceholder found.name ref.name⟩)

variable {layers : List ChunkConfig} {chunk : ResolvedChunk} {ref : ChunkRef} {own caller : Scope}
  {found : Placeholder}

theorem bound_head (ref : ChunkRef) (name : String) :
    ((ref.bindings.filter fun binding => binding.1 = name).map
      fun binding => Source.bound binding.2).head? = (bound? ref name).map .bound := by
  unfold bound?
  induction ref.bindings with
  | nil => rfl
  | cons binding rest ih =>
      obtain ⟨param, text⟩ := binding
      rw [lookup_entry]
      by_cases same : param = name
      · subst same
        simp
      · rw [List.filter_cons_of_neg (by simpa using same), ih, if_neg (Ne.symm same)]

theorem sources_head (merges : chunk.Merges layers) (name : String) :
    (sources layers ref name).head? =
      (((bound? ref name).map Source.bound).or
        ((chunk.overrides.get? name).map (.value ("overrides." ++ name)))).or
        ((chunk.defaults.get? name).map (.value ("defaults." ++ name))) := by
  have layered : ∀ (map : ChunkConfig → NameMap String) (field : String),
      (layers.filterMap fun layer => ((map layer).get? name).map (Source.value field)).head? =
        (layers.findSome? fun layer => (map layer).get? name).map (.value field) := by
    intro map field
    rw [List.head?_filterMap, List.map_findSome?]
    rfl
  rw [sources, List.head?_append, List.head?_append, bound_head, layered (·.overrides),
    layered (·.defaults), merges.overrides, merges.defaults]

/-- Filling goes by the first text written for a placeholder, and last by the imports. -/
theorem filling_eq (merges : chunk.Merges layers) :
    filling chunk ref own caller found =
      if Placeholder.isReserved found.name then
        .error ⟨chunk.source, some "template", .reservedInChunk found.name⟩
      else match (sources layers ref found.name).head? with
        | some (.bound text) => .ok text
        | some (.value field value) => ValueRef.resolve value [own, caller] chunk.source field
        | none =>
            if own.contains found.name then .ok (String.ofList (lifted ref.name found).printed)
            else .error ⟨chunk.source, some "template", .unfilledPlaceholder found.name ref.name⟩ := by
  rw [sources_head merges]
  unfold filling
  dsimp only
  cases bound? ref found.name with
  | some text => rfl
  | none =>
      cases chunk.overrides.get? found.name with
      | some value => rfl
      | none => cases chunk.defaults.get? found.name <;> rfl

theorem declared_spec (merges : chunk.Merges layers) (declared : String) :
    (chunk.imports.get? declared).map ImportDecl.spec =
      layers.findSome? fun layer => layer.imports.get? declared := by
  rw [merges.imports, List.map_findSome?]
  congr 1
  funext layer
  rw [Function.comp_apply]
  cases layer.imports.get? declared <;> rfl

theorem contains_iff_registered {workspace : Workspace} {cache : Cache}
    (merges : chunk.Merges layers)
    (opened : (Scope.resolve workspace chunk.imports cache).1 = .ok own) (name : String) :
    own.contains name = true ↔ Registered layers name := by
  constructor
  · intro known
    have inside := Scope.resolve_names (Prod.ext opened rfl)
      (fun entry member registered own => List.mem_flatMap_of_mem member own) name known
    obtain ⟨entry, member, registers⟩ := List.mem_flatMap.mp inside
    refine ⟨entry.1, entry.2.spec, ?_, registers⟩
    rw [← declared_spec merges, NameMap.get?_of_mem merges.ordered member, Option.map_some]
  · rintro ⟨declared, spec, found, registers⟩
    rw [← declared_spec merges] at found
    obtain ⟨decl, listed, rfl⟩ := Option.map_eq_some_iff.mp found
    exact Scope.resolve_registers opened _ (NameMap.mem_of_get? listed) name registers

section Outcomes

variable (merges : chunk.Merges layers)
  (registers : own.contains found.name = true ↔ Registered layers found.name)

include merges registers

theorem Outcome.filled {result : Except DocumentError String}
    (outcome : Outcome layers chunk.source ref own caller found result) :
    filling chunk ref own caller found = result := by
  have looked : ∀ name, ValueRef.lookup name [own, caller] =
      (own.get? name).or (caller.get? name) := fun name => find_some_pair _ own caller
  rw [filling_eq merges]
  cases outcome with
  | reserved taken => rw [if_pos taken]
  | bound free first => simp [free, first]
  | literal free first stands => simp [free, first, stands.resolved]
  | variation free first refers known held =>
      simp [free, first, refers.resolved, looked, known, held]
  | unknownImport free first refers unknown =>
      simp [free, first, refers.resolved, looked, unknown]
  | unknownKey free first refers known missing =>
      simp [free, first, refers.resolved, looked, known, missing]
  | lifted free unwritten registered => simp [free, unwritten, registers.mpr registered]
  | unfilled free unwritten unregistered =>
      have unknown : own.contains found.name = false :=
        eq_false_of_ne_true fun known => unregistered (registers.mp known)
      simp [free, unwritten, unknown]

omit merges registers in
theorem outcome_exists (layers : List ChunkConfig) (path : Path) (ref : ChunkRef)
    (own caller : Scope) (found : Placeholder) :
    ∃ result, Outcome layers path ref own caller found result := by
  cases free : Placeholder.isReserved found.name with
  | true => exact ⟨_, .reserved free⟩
  | false =>
      rcases first : (sources layers ref found.name).head? with _ | ⟨text⟩ | ⟨field, value⟩
      · have unwritten := List.head?_eq_none_iff.mp first
        by_cases registered : Registered layers found.name
        · exact ⟨_, .lifted free unwritten registered⟩
        · exact ⟨_, .unfilled free unwritten registered⟩
      · exact ⟨_, .bound free first⟩
      · rcases ValueRef.literal_or_refers value with ⟨text, stands⟩ | ⟨importName, key, refers⟩
        · exact ⟨_, .literal free first stands⟩
        · rcases known : (own.get? importName).or (caller.get? importName) with _ | set
          · exact ⟨_, .unknownImport free first refers known⟩
          · rcases held : set.get? key with _ | entry
            · exact ⟨_, .unknownKey free first refers known held⟩
            · exact ⟨_, .variation free first refers known held⟩

theorem outcome_iff (result : Except DocumentError String) :
    Outcome layers chunk.source ref own caller found result ↔
      filling chunk ref own caller found = result := by
  refine ⟨fun outcome => outcome.filled merges registers, fun filled => ?_⟩
  obtain ⟨other, outcome⟩ := outcome_exists layers chunk.source ref own caller found
  rw [← filled, outcome.filled merges registers]
  exact outcome

theorem filling_fails_iff :
    (∃ error, filling chunk ref own caller found = .error error) ↔
      Placeholder.isReserved found.name = true ∨
      (sources layers ref found.name = [] ∧ ¬ Registered layers found.name) ∨
      ∃ field value importName key,
        (sources layers ref found.name).head? = some (.value field value) ∧
        ValueRef.Refers value importName key ∧
        ∀ set, (own.get? importName).or (caller.get? importName) = some set →
          set.get? key = none := by
  constructor
  · rintro ⟨error, failed⟩
    cases (outcome_iff merges registers _).mpr failed with
    | reserved taken => exact .inl taken
    | unknownImport free first refers unknown =>
        refine .inr (.inr ⟨_, _, _, _, first, refers, fun set known => ?_⟩)
        cases unknown.symm.trans known
    | unknownKey free first refers known missing =>
        refine .inr (.inr ⟨_, _, _, _, first, refers, fun set again => ?_⟩)
        rw [← Option.some.inj (known.symm.trans again)]
        exact missing
    | unfilled free unwritten unregistered => exact .inr (.inl ⟨unwritten, unregistered⟩)
  · cases free : Placeholder.isReserved found.name with
    | true => exact fun _ => ⟨_, Outcome.filled merges registers (.reserved free)⟩
    | false =>
        rintro (taken | ⟨unwritten, unregistered⟩ |
          ⟨field, value, importName, key, first, refers, missing⟩)
        · cases taken
        · exact ⟨_, Outcome.filled merges registers (.unfilled free unwritten unregistered)⟩
        · rcases known : (own.get? importName).or (caller.get? importName) with _ | set
          · exact ⟨_, Outcome.filled merges registers (.unknownImport free first refers known)⟩
          · exact ⟨_, Outcome.filled merges registers
              (.unknownKey free first refers known (missing set known))⟩

end Outcomes

/-- A chunk that resolves is merged from its layers. Filling it keeps its body but for the
placeholders, each of which becomes what the first text written for it stands for, and last a
placeholder for an import; there is an error for each that nothing stands ready for. -/
theorem filled_by_precedence {workspace : Workspace} (named : workspace.tree.WellNamed)
    {document : Document} (held : workspace.Holds document) {resolver : Resolver}
    (sound : resolver.Sound workspace) {chunk : ResolvedChunk}
    (resolved : (resolver.resolveChunk workspace document).1 = .ok chunk) {cache : Cache}
    {own : Scope} (opened : (Scope.resolve workspace chunk.imports cache).1 = .ok own)
    (ref : ChunkRef) (caller : Scope) :
    ∃ child parent?, Layered workspace document child parent? ∧
      chunk.body = child.mergedBody parent? ∧
      (∀ declared, chunk.imports.get? declared = (child :: parent?.toList).findSome? fun layer =>
        (layer.imports.get? declared).map (⟨·, layer.source⟩)) ∧
      fill chunk ref own caller =
        (String.ofList
          ((Piece.ofText chunk.body).flatMap (Piece.filled (replacement chunk ref own caller))),
          (placeholders chunk.body).filterMap (fault? chunk ref own caller)) ∧
      ∀ found,
        (∀ result, Outcome (child :: parent?.toList) document.path ref own caller found result ↔
          filling chunk ref own caller found = result) ∧
        ((fault? chunk ref own caller found).isSome = true ↔
          Placeholder.isReserved found.name = true ∨
          (sources (child :: parent?.toList) ref found.name = [] ∧
            ¬ Registered (child :: parent?.toList) found.name) ∨
          ∃ field value importName key,
            (sources (child :: parent?.toList) ref found.name).head? =
              some (.value field value) ∧
            ValueRef.Refers value importName key ∧
            ∀ set, (own.get? importName).or (caller.get? importName) = some set →
              set.get? key = none) := by
  have step : Resolver.ChunkStep workspace document resolver _ _ :=
    Resolver.resolve_chunk_step sound.shown
  have answer := step.answer named held sound
  rw [resolved] at answer
  rcases outlook : Resolver.chunkOutlook workspace document with error | ⟨merged, warnings⟩
  · rw [outlook] at answer
    cases answer
  rw [outlook] at answer
  obtain rfl : chunk = merged := Except.ok.inj answer
  obtain ⟨child, parent?, layered, source, body, merges⟩ := Layered.of_outlook outlook
  refine ⟨child, parent?, layered, body, merges.imports, ?_, fun found => ?_⟩
  · rw [fill_eq, filledTexts, Piece.texts_flatten]
  · have registers := contains_iff_registered merges opened found.name
    have faulty : (fault? chunk ref own caller found).isSome = true ↔
        ∃ error, filling chunk ref own caller found = .error error := by
      simp only [Option.isSome_iff_exists, fault?_eq_some]
    rw [← source, faulty]
    exact ⟨outcome_iff merges registers, filling_fails_iff merges registers⟩

def paintedFace : Workspace where
  tree := ⟨[(["v.yaml"], .file "red: crimson\n".toUTF8),
    (["base"], .file ("type: x\nimports:\n  Hue: v.yaml\ndefaults:\n  Tone: warm\n" ++
      "overrides:\n  Shade: Hue.red\ntemplate: \"\x7bTone\x7d \x7bShade\x7d \x7bHue[1]\x7d\"\n").toUTF8),
    (["face"], .file ("type: x\nimplements: base\n" ++
      "defaults:\n  Tone: mellow\n  Shade: pale\n").toUTF8)]⟩
  directory := []

theorem painted_face_well_named : paintedFace.tree.WellNamed := by decide +kernel

theorem painted_face_filled : ∃ document chunk own, paintedFace.Holds document ∧
    (Resolver.resolveChunk paintedFace document (.start .empty)).1 = .ok chunk ∧
    (Scope.resolve paintedFace chunk.imports .empty).1 = .ok own ∧
    fill chunk ⟨"Face", []⟩ own .empty = ("mellow crimson \x7bFace.Hue[1]\x7d", []) ∧
    ∃ child parent?, Layered paintedFace document child parent? ∧
      Outcome (child :: parent?.toList) document.path ⟨"Face", []⟩ own .empty ⟨"Shade", none⟩
        (.ok "crimson") := by
  have checked : (paintedFace.read ["face"]).toOption.any (fun document =>
      (Resolver.resolveChunk paintedFace document (.start .empty)).1.toOption.any fun chunk =>
        (Scope.resolve paintedFace chunk.imports .empty).1.toOption.any fun own => decide (
          fill chunk ⟨"Face", []⟩ own .empty = ("mellow crimson \x7bFace.Hue[1]\x7d", []) ∧
          (filling chunk ⟨"Face", []⟩ own .empty ⟨"Shade", none⟩).toOption = some "crimson")) =
      true := by decide +kernel
  simp only [Option.any_eq_true, decide_eq_true_eq] at checked
  obtain ⟨document, found, chunk, resolved, own, opened, filled, shade⟩ := checked
  have held := Workspace.read_holds (Resolver.to_option_some found)
  have answered := Resolver.to_option_some resolved
  have scope := Resolver.to_option_some opened
  obtain ⟨child, parent?, layered, -, -, -, outcomes⟩ := filled_by_precedence
    painted_face_well_named held (.start .same) answered scope ⟨"Face", []⟩ .empty
  refine ⟨document, chunk, own, held, answered, scope, filled, child, parent?, layered, ?_⟩
  exact ((outcomes _).1 _).mpr (Resolver.to_option_some shade)

def shells : Workspace where
  tree := ⟨[(["a"], .file "type: x\ntemplate: \"a \x7bprompt\x7d b\"\n".toUTF8),
    (["c"], .file "type: x\nimplements: a\ntemplate: c\n".toUTF8),
    (["d"], .file ("type: x\noverrides:\n  Name: \\v1.5\n" ++
      "template: \"\x7bName\x7d\"\n").toUTF8)]⟩
  directory := []

theorem chunk_read {workspace : Workspace} {location : Location}
    {holds : ChunkConfig → ResolvedChunk → Bool}
    (checked : ((workspace.read location).toOption.any fun document =>
      (Resolver.resolveChunk workspace document (.start .empty)).1.toOption.any fun chunk =>
        document.read.toOption.any fun config => match config with
          | .chunk child => holds child chunk
          | _ => false) = true) :
    ∃ document child chunk, workspace.read location = .ok document ∧
      document.read = .ok (.chunk child) ∧
      (Resolver.resolveChunk workspace document (.start .empty)).1 = .ok chunk ∧
      holds child chunk = true := by
  simp only [Option.any_eq_true] at checked
  obtain ⟨document, found, chunk, resolved, config, read, held⟩ := checked
  cases config with
  | chunk child =>
      exact ⟨document, child, chunk, Resolver.to_option_some found, Resolver.to_option_some read,
        Resolver.to_option_some resolved, held⟩
  | template | prompt | variations => cases held

/-- A marker in the body of a parent keeps the text around it, and a backslash in front of a value is
not part of the text. -/
theorem shells_kept :
    (∃ document child chunk, shells.read ["c"] = .ok document ∧
      document.read = .ok (.chunk child) ∧
      (Resolver.resolveChunk shells document (.start .empty)).1 = .ok chunk ∧
      child.body = some "c" ∧ placeholders "c" = [] ∧
      fill chunk ⟨"C", []⟩ .empty .empty = ("a c b", [])) ∧
    ∃ document child chunk, shells.read ["d"] = .ok document ∧
      document.read = .ok (.chunk child) ∧
      (Resolver.resolveChunk shells document (.start .empty)).1 = .ok chunk ∧
      child.body = some "\x7bName\x7d" ∧ child.overrides.get? "Name" = some "\\v1.5" ∧
      fill chunk ⟨"D", []⟩ .empty .empty = ("v1.5", []) := by
  let inside (child : ChunkConfig) (chunk : ResolvedChunk) : Bool := decide (child.body = some "c" ∧
    placeholders "c" = [] ∧ fill chunk ⟨"C", []⟩ .empty .empty = ("a c b", []))
  let escaped (child : ChunkConfig) (chunk : ResolvedChunk) : Bool :=
    decide (child.body = some "\x7bName\x7d" ∧ child.overrides.get? "Name" = some "\\v1.5" ∧
      fill chunk ⟨"D", []⟩ .empty .empty = ("v1.5", []))
  constructor
  · obtain ⟨document, child, chunk, found, read, resolved, held⟩ :=
      @chunk_read shells ["c"] inside (by decide +kernel)
    exact ⟨document, child, chunk, found, read, resolved, of_decide_eq_true held⟩
  · obtain ⟨document, child, chunk, found, read, resolved, held⟩ :=
      @chunk_read shells ["d"] escaped (by decide +kernel)
    exact ⟨document, child, chunk, found, read, resolved, of_decide_eq_true held⟩

end Chunk

end PromptLoom
