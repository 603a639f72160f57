import PromptLoom.Document.Reading
import PromptLoom.Proofs.NameMap
import PromptLoom.Proofs.VariationSets

/-!
# What a document is read as

A document is read as the kind that its shape gives it, remembers the path that it was read under,
its maps are ordered by name, and the keys of a variation set are distinct. A document that cannot be
read has at least one fault, and all its faults are structural.
-/

namespace PromptLoom

set_option autoImplicit false

structure Layer.ReadUnder (layer : Layer) (path : Path) : Prop where
  source : layer.source = path
  parameters : layer.parameters.Ordered
  imports : layer.imports.Ordered
  chunks : layer.chunks.Ordered
  loras : layer.loras.Ordered

structure ChunkConfig.ReadUnder (chunk : ChunkConfig) (path : Path) : Prop where
  source : chunk.source = path
  imports : chunk.imports.Ordered
  defaults : chunk.defaults.Ordered
  overrides : chunk.overrides.Ordered

namespace Typed

theorem name_map_ordered {α : Type} {reader : Reader α} {value : Yaml.Value} {map : NameMap α}
    (read : nameMap reader value = some map) : map.Ordered := by
  unfold nameMap at read
  split at read
  · rw [← Option.some.inj read]
    exact NameMap.empty_ordered
  · obtain ⟨entries, _, rfl⟩ := Option.map_eq_some_iff.mp read
    exact NameMap.of_list_ordered entries
  · cases read

theorem field_ordered {α : Type} {reader : Reader α} {fields : List (String × Yaml.Value)}
    {name : String} {map : NameMap α}
    (read : fieldOr fields name .empty (nameMap reader) = some map) : map.Ordered := by
  unfold fieldOr at read
  split at read
  · rw [← Option.some.inj read]
    exact NameMap.empty_ordered
  · exact name_map_ordered read

theorem layer_read_under {source : Path} {bodyField : String} {others : List String}
    {entries : List (Yaml.Value × Yaml.Value)} {found : Layer}
    (read : layer source bodyField others entries = some found) : found.ReadUnder source := by
  simp only [layer, Option.bind_eq_bind, Option.bind_eq_some_iff, Option.pure_def,
    Option.some.injEq] at read
  obtain ⟨_, _, _, _, _, _, _, parameters, _, imports, _, chunks, _, loras, _, _, _, _, rfl⟩ := read
  exact ⟨rfl, field_ordered parameters, field_ordered imports, field_ordered chunks,
    field_ordered loras⟩

theorem template_read_under {source : Path} {entries : List (Yaml.Value × Yaml.Value)}
    {config : Config} (read : template source entries = some config) :
    ∃ found, config = .template found ∧ found.ReadUnder source := by
  obtain ⟨found, shared, rfl⟩ := Option.map_eq_some_iff.mp read
  exact ⟨found, rfl, layer_read_under shared⟩

theorem prompt_read_under {source : Path} {entries : List (Yaml.Value × Yaml.Value)}
    {config : Config} (read : prompt source entries = some config) :
    ∃ found settings, config = .prompt found settings ∧ found.ReadUnder source := by
  simp only [prompt, Option.bind_eq_bind, Option.bind_eq_some_iff, Option.pure_def,
    Option.some.injEq] at read
  obtain ⟨found, read, _, _, _, _, settings, _, rfl⟩ := read
  exact ⟨found, settings, rfl, layer_read_under read⟩

theorem chunk_read_under {source : Path} {entries : List (Yaml.Value × Yaml.Value)}
    {config : Config} (read : chunk source entries = some config) :
    ∃ found, config = .chunk found ∧ found.ReadUnder source := by
  simp only [chunk, Option.bind_eq_bind, Option.bind_eq_some_iff, Option.pure_def,
    Option.some.injEq] at read
  obtain ⟨_, _, _, _, _, _, _, _, _, imports, _, defaults, _, overrides, _, _, rfl⟩ := read
  exact ⟨_, rfl, rfl, field_ordered imports, field_ordered defaults, field_ordered overrides⟩

end Typed

namespace Config

/-! ### Keys of a mapping -/

theorem entries_distinct {value : Yaml.Value} {entries : List (Yaml.Value × Yaml.Value)}
    (mapping : value.entries? = some entries) (distinct : value.hasDistinctKeys = true) :
    Yaml.Value.entriesHaveDistinctKeys entries = true := by
  fun_induction Yaml.Value.untagged value with
  | case1 tag value ih => exact ih mapping distinct
  | case2 value plain =>
      cases value with
      | map own =>
          obtain rfl := Option.some.inj mapping
          exact distinct
      | tagged tag inner => exact absurd rfl (plain tag inner)
      | null | bool | int | float | text | list => cases mapping

theorem keys_apart {entries : List (Yaml.Value × Yaml.Value)}
    (distinct : Yaml.Value.entriesHaveDistinctKeys entries = true) :
    (entries.map Prod.fst).Pairwise fun first second => Yaml.Value.same first second = false := by
  induction entries with
  | nil => exact .nil
  | cons entry rest ih =>
      obtain ⟨key, content⟩ := entry
      simp only [Yaml.Value.entriesHaveDistinctKeys, Bool.and_eq_true, Bool.not_eq_true',
        List.any_eq_false] at distinct
      obtain ⟨⟨-, fresh⟩, others⟩ := distinct
      refine List.pairwise_cons.mpr ⟨?_, ih others⟩
      intro other member
      obtain ⟨later, inside, rfl⟩ := List.mem_map.mp member
      exact eq_false_of_ne_true (fresh later inside)

/-! ### Results of reading -/

theorem typed_kind {source : Path} {kind : Kind} {entries : List (Yaml.Value × Yaml.Value)}
    {config : Config} (typed : typed? source kind entries = some config) : config.kind = kind := by
  cases kind with
  | variationSet => rw [← Option.some.inj typed, Config.kind]
  | template =>
      obtain ⟨found, rfl, _⟩ := Typed.template_read_under typed
      rfl
  | prompt =>
      obtain ⟨found, settings, rfl, _⟩ := Typed.prompt_read_under typed
      rfl
  | chunk =>
      obtain ⟨found, rfl, _⟩ := Typed.chunk_read_under typed
      rfl

def faults (source : Path) (entries : List (Yaml.Value × Yaml.Value)) : List DocumentError :=
  (match Kind.ofEntries entries with
    | .variationSet => []
    | _ => entries.flatMap fun entry => keyFault source (Kind.ofEntries entries) entry.1) ++
    shapeFaults source (Kind.ofEntries entries) entries

/-- A mapping without faults is read as its typed document; where a field has another shape, that is
one fault more. -/
theorem read_mapping {source : Path} {value : Yaml.Value}
    {entries : List (Yaml.Value × Yaml.Value)} (mapping : value.entries? = some entries) :
    read source value = match typed? source (Kind.ofEntries entries) entries with
      | none => .error (faults source entries ++ [wholeFault source .invalidShape])
      | some config =>
          if (faults source entries).isEmpty then .ok config else .error (faults source entries) := by
  simp only [read, mapping]
  rfl

theorem read_unfaulted {source : Path} {value : Yaml.Value} {config : Config}
    (done : read source value = .ok config) :
    ∃ entries, value.entries? = some entries ∧
      typed? source (Kind.ofEntries entries) entries = some config ∧ faults source entries = [] := by
  rcases mapping : value.entries? with _ | entries
  · simp only [read, mapping] at done
    cases done
  rw [read_mapping mapping] at done
  split at done
  · cases done
  · next found typed =>
      split at done
      · next clean =>
          rw [Except.ok.inj done] at typed
          exact ⟨entries, rfl, typed, List.isEmpty_iff.mp clean⟩
      · cases done

theorem read_typed {source : Path} {value : Yaml.Value} {config : Config}
    (done : read source value = .ok config) :
    ∃ entries, value.entries? = some entries ∧
      typed? source (Kind.ofEntries entries) entries = some config := by
  obtain ⟨entries, mapping, typed, -⟩ := read_unfaulted done
  exact ⟨entries, mapping, typed⟩

theorem read_kind {source : Path} {value : Yaml.Value} {config : Config}
    (done : read source value = .ok config) : Kind.classify? value = some config.kind := by
  obtain ⟨entries, mapping, typed⟩ := read_typed done
  rw [Kind.classify?, mapping, typed_kind typed]
  rfl

theorem read_template {source : Path} {value : Yaml.Value} {layer : Layer}
    (done : read source value = .ok (.template layer)) : layer.ReadUnder source := by
  obtain ⟨entries, _, typed⟩ := read_typed done
  rw [← typed_kind typed] at typed
  obtain ⟨found, same, under⟩ := Typed.template_read_under typed
  rw [Config.template.inj same]
  exact under

theorem read_prompt {source : Path} {value : Yaml.Value} {layer : Layer} {generation : Generation}
    (done : read source value = .ok (.prompt layer generation)) : layer.ReadUnder source := by
  obtain ⟨entries, _, typed⟩ := read_typed done
  rw [← typed_kind typed] at typed
  obtain ⟨found, settings, same, under⟩ := Typed.prompt_read_under typed
  rw [(Config.prompt.inj same).1]
  exact under

theorem read_chunk {source : Path} {value : Yaml.Value} {chunk : ChunkConfig}
    (done : read source value = .ok (.chunk chunk)) : chunk.ReadUnder source := by
  obtain ⟨entries, _, typed⟩ := read_typed done
  rw [← typed_kind typed] at typed
  obtain ⟨found, same, under⟩ := Typed.chunk_read_under typed
  rw [Config.chunk.inj same]
  exact under

theorem read_variations {source : Path} {value : Yaml.Value} {set : VariationSet}
    (done : read source value = .ok (.variations set)) : set.keys.Nodup := by
  obtain ⟨entries, _, typed⟩ := read_typed done
  rw [← typed_kind typed] at typed
  rw [← Config.variations.inj (Option.some.inj typed)]
  exact VariationSet.of_list_keys_nodup _

theorem read_chunks_ordered {source : Path} {value : Yaml.Value} {config : Config}
    (done : read source value = .ok config) : config.chunks.Ordered := by
  cases config with
  | template layer => exact (read_template done).chunks
  | prompt layer generation => exact (read_prompt done).chunks
  | chunk | variations => exact NameMap.empty_ordered

/-- What a document is refused with: a root of another form, or all its faults, followed by one more
where a field has another shape. -/
theorem read_refused {source : Path} {value : Yaml.Value} {found : List DocumentError}
    (failed : read source value = .error found) :
    (value.entries? = none ∧ found = [wholeFault source .rootNotMapping]) ∨
    ∃ entries, value.entries? = some entries ∧
      ((typed? source (Kind.ofEntries entries) entries = none ∧
          found = faults source entries ++ [wholeFault source .invalidShape]) ∨
        found = faults source entries ∧ found ≠ []) := by
  rcases mapping : value.entries? with _ | entries
  · simp only [read, mapping, Except.error.injEq] at failed
    exact .inl ⟨rfl, failed.symm⟩
  rw [read_mapping mapping] at failed
  refine .inr ⟨entries, rfl, ?_⟩
  split at failed
  · next untyped => exact .inl ⟨untyped, (Except.error.inj failed).symm⟩
  · split at failed
    · cases failed
    · next faulty =>
        rw [← Except.error.inj failed]
        exact .inr ⟨rfl, fun none => faulty (List.isEmpty_iff.mpr none)⟩

theorem read_faults_ne_nil {source : Path} {value : Yaml.Value} {found : List DocumentError}
    (failed : read source value = .error found) : found ≠ [] := by
  rcases read_refused failed with ⟨-, rfl⟩ | ⟨entries, -, ⟨-, rfl⟩ | ⟨-, faulty⟩⟩
  · exact List.cons_ne_nil _ _
  · exact List.append_ne_nil_of_right_ne_nil _ (List.cons_ne_nil _ _)
  · exact faulty

theorem fault_if_category {condition : Bool} {source : Path} {field : String} {cause : Cause}
    {error : DocumentError} (member : error ∈ faultIf condition source field cause) :
    error.category = cause.category := by
  unfold faultIf at member
  split at member
  · rw [List.mem_singleton.mp member]
    rfl
  · cases member

theorem shape_faults_structural {source : Path} {kind : Kind}
    {entries : List (Yaml.Value × Yaml.Value)} {error : DocumentError}
    (member : error ∈ shapeFaults source kind entries) : error.category = .structural := by
  cases kind with
  | variationSet => cases member
  | template =>
      simp only [shapeFaults, textFault, List.mem_append, or_assoc] at member
      rcases member with found | found | found | found
      all_goals exact fault_if_category found
  | prompt =>
      simp only [shapeFaults, textFault, List.mem_append, or_assoc] at member
      rcases member with found | found | found | found | found | found
      all_goals exact fault_if_category found
  | chunk =>
      simp only [shapeFaults, textFault, List.mem_append, or_assoc] at member
      rcases member with found | found | found | found
      · exact fault_if_category found
      · exact fault_if_category found
      · split at found
        · cases found
        · cases found
        · rw [List.mem_singleton.mp found]
          rfl
      · exact fault_if_category found

theorem key_fault_structural {source : Path} {kind : Kind} {key : Yaml.Value}
    {error : DocumentError} (member : error ∈ keyFault source kind key) :
    error.category = .structural := by
  unfold keyFault at member
  split at member
  · rw [List.mem_singleton.mp member]
    rfl
  · split at member
    · cases member
    · rw [List.mem_singleton.mp member]
      rfl

theorem faults_structural {source : Path} {entries : List (Yaml.Value × Yaml.Value)}
    {error : DocumentError} (member : error ∈ faults source entries) :
    error.category = .structural := by
  rcases List.mem_append.mp member with own | shape
  · split at own
    · cases own
    · obtain ⟨_, _, found⟩ := List.mem_flatMap.mp own
      exact key_fault_structural found
  · exact shape_faults_structural shape

theorem read_faults_structural {source : Path} {value : Yaml.Value} {found : List DocumentError}
    (failed : read source value = .error found) :
    ∀ error ∈ found, error.category = .structural := by
  intro error member
  rcases read_refused failed with ⟨-, rfl⟩ | ⟨entries, -, ⟨-, rfl⟩ | ⟨rfl, -⟩⟩
  · rw [List.mem_singleton.mp member]
    rfl
  · rcases List.mem_append.mp member with before | last
    · exact faults_structural before
    · rw [List.mem_singleton.mp last]
      rfl
  · exact faults_structural member

end Config

end PromptLoom
