import PromptLoom.Proofs.Lists
import PromptLoom.Proofs.Reading.Strangers
import PromptLoom.Proofs.Validation.Agreement
import PromptLoom.Proofs.Validation.Phases

/-!
# What a document that is read has

A prompt needs a parent and a body, a template or a chunk one of the two. The check of the shape
sees to it that the fields are written, and the typed fields then hold what is written, with one
exception: a parent that is written as null counts as written and is none. All other documents have
the parts that their kind asks for.
-/

namespace PromptLoom

open Yaml (Value)

set_option autoImplicit false

/-- Null in the place of the reference to a parent. -/
def Yaml.Value.HasNullParent (value : Value) : Prop :=
  ∃ entries, value.entries? = some entries ∧ field? entries "implements" = some .null

namespace Config

def mainBody : Config → Option String
  | template layer => layer.positive
  | chunk c => c.body
  | prompt layer _ => layer.positive
  | variations _ => none

def Complete (config : Config) : Prop :=
  match config.kind with
  | .template | .chunk => config.mainBody.isSome = true ∨ config.implements.isSome = true
  | .prompt => config.implements.isSome = true ∧ config.mainBody.isSome = true
  | .variationSet => True

instance (config : Config) : Decidable config.Complete :=
  match shape : config.kind with
  | .template | .chunk =>
      decidable_of_iff (config.mainBody.isSome = true ∨ config.implements.isSome = true)
        (by rw [Complete, shape])
  | .prompt =>
      decidable_of_iff (config.implements.isSome = true ∧ config.mainBody.isSome = true)
        (by rw [Complete, shape])
  | .variationSet => isTrue (by rw [Complete, shape]; trivial)

end Config

/-! ### Fields -/

namespace Typed

variable {entries : List (Value × Value)} {fields : List (String × Value)} {known : List String}
  {name : String} {value : Value}

theorem named_entries_mem (read : namedEntries some entries = some fields)
    (member : (.text name, value) ∈ entries) : (name, value) ∈ fields := by
  induction entries generalizing fields with
  | nil => cases member
  | cons entry rest ih =>
      obtain ⟨key, content⟩ := entry
      simp only [namedEntries, Option.bind_eq_bind, Option.bind_eq_some_iff, Option.pure_def,
        Option.some.injEq] at read
      obtain ⟨own, named, same, rfl, others, further, rfl⟩ := read
      rcases List.mem_cons.mp member with here | later
      · obtain ⟨rfl, rfl⟩ := Prod.mk.inj here
        obtain rfl := Option.some.inj named
        exact List.mem_cons_self ..
      · exact List.mem_cons_of_mem _ (ih further later)

theorem lookup_of_mem (once : ((fields.map Prod.fst).filter known.contains).Nodup)
    (listed : known.contains name = true) (member : (name, value) ∈ fields) :
    fields.lookup name = some value := by
  induction fields with
  | nil => cases member
  | cons field rest ih =>
      obtain ⟨own, content⟩ := field
      rw [lookup_entry]
      by_cases same : name = own
      · subst same
        rw [if_pos rfl]
        rw [List.map_cons, List.filter_cons_of_pos listed, List.nodup_cons] at once
        rcases List.mem_cons.mp member with here | later
        · rw [(Prod.mk.inj here).2]
        · exact absurd (List.mem_filter.mpr ⟨List.mem_map_of_mem later, listed⟩) once.1
      · rw [if_neg same]
        have later : (name, value) ∈ rest := by
          rcases List.mem_cons.mp member with here | later
          · exact absurd (Prod.mk.inj here).1 same
          · exact later
        exact ih (once.sublist ((List.sublist_cons_self _ _).filter _)) later

theorem record_field (read : recordFields known entries = some fields)
    (listed : known.contains name = true) (written : Value.field? entries name = some value) :
    fields.lookup name = some value := by
  obtain ⟨named, once⟩ := Option.filter_eq_some_iff.mp read
  obtain ⟨⟨key, content⟩, found, rfl⟩ := Option.map_eq_some_iff.mp written
  -- only a key that is a text itself names a field; one under a tag does not
  have shape := List.find?_some found
  cases key with
  | text own =>
      obtain rfl := beq_iff_eq.mp shape
      exact lookup_of_mem (nodup_of_erase_dups_length (beq_iff_eq.mp once)) listed
        (named_entries_mem named (List.mem_of_find?_eq_some found))
  | null | bool | int | float | list | map | tagged => cases shape

theorem field_written {α : Type} {fallback found : α} {reader : Reader α}
    (read : recordFields known entries = some fields) (listed : known.contains name = true)
    (written : Value.field? entries name = some value)
    (taken : fieldOr fields name fallback reader = some found) : reader value = some found := by
  rwa [fieldOr, record_field read listed written] at taken

theorem layer_written {source : Path} {bodyField : String} {others : List String} {found : Layer}
    (read : layer source bodyField others entries = some found) :
    (∀ value, Value.field? entries "implements" = some value →
      optional text value = some found.implements) ∧
    ∀ value, Value.field? entries bodyField = some value →
      optional text value = some found.positive := by
  simp only [layer, Option.bind_eq_bind, Option.bind_eq_some_iff, Option.pure_def,
    Option.some.injEq] at read
  obtain ⟨fields, record, _, _, _, implements, _, _, _, _, _, _, _, _, _, positive, _, _, rfl⟩ :=
    read
  exact ⟨fun value written => field_written record (by simp) written implements,
    fun value written => field_written record (by simp) written positive⟩

theorem chunk_written {source : Path} {config : Config}
    (read : chunk source entries = some config) :
    ∃ found, config = .chunk found ∧
      (∀ value, Value.field? entries "implements" = some value →
        optional text value = some found.implements) ∧
      ∀ value, Value.field? entries "template" = some value →
        optional text value = some found.body := by
  simp only [chunk, Option.bind_eq_bind, Option.bind_eq_some_iff, Option.pure_def,
    Option.some.injEq] at read
  obtain ⟨fields, record, _, _, _, _, _, implements, _, _, _, _, _, _, _, body, rfl⟩ := read
  exact ⟨_, rfl, fun value written => field_written record (by simp) written implements,
    fun value written => field_written record (by simp) written body⟩

theorem optional_present {value : Value} {found : Option String}
    (read : optional text value = some found) (present : value ≠ .null) : found.isSome = true := by
  unfold optional at read
  split at read
  · exact absurd rfl present
  · obtain ⟨content, -, rfl⟩ := Option.map_eq_some_iff.mp read
    rfl

end Typed

namespace Config

variable {source : Path} {entries : List (Value × Value)} {value : Value} {config : Config}

theorem fault_if_clean {condition : Bool} {field : String} {cause : Cause}
    (clean : faultIf condition source field cause = []) : condition = false := by
  cases condition with
  | false => rfl
  | true => cases clean

theorem text_fault_clean {field : String} (clean : textFault source entries field = [])
    (written : Value.field? entries field = some value) : value ≠ .null := by
  rintro rfl
  have text := fault_if_clean clean
  rw [written] at text
  cases text

def bodyField : Kind → String
  | .prompt => "prompt"
  | _ => "template"

theorem typed_written {kind : Kind} (typed : typed? source kind entries = some config)
    (other : kind ≠ .variationSet) :
    (∀ value, Value.field? entries "implements" = some value →
      Typed.optional Typed.text value = some config.implements) ∧
    ∀ value, Value.field? entries (bodyField kind) = some value →
      Typed.optional Typed.text value = some config.mainBody := by
  cases kind with
  | variationSet => exact absurd rfl other
  | template =>
      obtain ⟨found, read, rfl⟩ := Option.map_eq_some_iff.mp typed
      exact Typed.layer_written read
  | prompt =>
      simp only [typed?, Typed.prompt, Option.bind_eq_bind, Option.bind_eq_some_iff,
        Option.pure_def, Option.some.injEq] at typed
      obtain ⟨found, read, _, _, _, _, _, _, rfl⟩ := typed
      exact Typed.layer_written read
  | chunk =>
      obtain ⟨found, rfl, parent, body⟩ := Typed.chunk_written typed
      exact ⟨parent, body⟩

theorem parent_present {kind : Kind} (typed : typed? source kind entries = some config)
    (other : kind ≠ .variationSet) (named : Value.field? entries "implements" ≠ some .null)
    (written : Value.hasField entries "implements" = true) : config.implements.isSome = true := by
  obtain ⟨value, found⟩ := Option.isSome_iff_exists.mp written
  refine Typed.optional_present ((typed_written typed other).1 value found) ?_
  rintro rfl
  exact named found

theorem body_present {kind : Kind} (typed : typed? source kind entries = some config)
    (other : kind ≠ .variationSet) (texts : textFault source entries (bodyField kind) = [])
    (written : Value.hasField entries (bodyField kind) = true) : config.mainBody.isSome = true := by
  obtain ⟨value, found⟩ := Option.isSome_iff_exists.mp written
  exact Typed.optional_present ((typed_written typed other).2 value found)
    (text_fault_clean texts found)

theorem part_written {kind : Kind} (plain : kind = .template ∨ kind = .chunk)
    (clean : shapeFaults source kind entries = []) :
    (Value.hasField entries "template" = true ∨ Value.hasField entries "implements" = true) ∧
      textFault source entries "template" = [] := by
  rcases plain with rfl | rfl
  all_goals simp only [shapeFaults, List.append_eq_nil_iff] at clean
  · obtain ⟨⟨⟨-, required⟩, texts⟩, -⟩ := clean
    have part := fault_if_clean required
    simp only [Bool.and_eq_false_iff, Bool.not_eq_false'] at part
    exact ⟨part, texts⟩
  · obtain ⟨⟨⟨-, required⟩, -⟩, texts⟩ := clean
    have part := fault_if_clean required
    simp only [Bool.and_eq_false_iff, Bool.not_eq_false'] at part
    exact ⟨part, texts⟩

theorem prompt_written (clean : shapeFaults source .prompt entries = []) :
    Value.hasField entries "implements" = true ∧ Value.hasField entries "prompt" = true ∧
      textFault source entries "prompt" = [] := by
  simp only [shapeFaults, List.append_eq_nil_iff] at clean
  obtain ⟨⟨⟨⟨⟨-, parentRequired⟩, bodyRequired⟩, -⟩, texts⟩, -⟩ := clean
  have parentWritten := fault_if_clean parentRequired
  have bodyWritten := fault_if_clean bodyRequired
  rw [Bool.not_eq_false'] at parentWritten bodyWritten
  exact ⟨parentWritten, bodyWritten, texts⟩

theorem complete_of_written {kind : Kind} (typed : typed? source kind entries = some config)
    (clean : shapeFaults source kind entries = [])
    (named : Value.field? entries "implements" ≠ some .null) : config.Complete := by
  unfold Complete
  rw [typed_kind typed]
  cases kind with
  | variationSet => trivial
  | template =>
      obtain ⟨part, texts⟩ := part_written (.inl rfl) clean
      exact part.imp (body_present typed (by decide) texts) (parent_present typed (by decide) named)
  | chunk =>
      obtain ⟨part, texts⟩ := part_written (.inr rfl) clean
      exact part.imp (body_present typed (by decide) texts) (parent_present typed (by decide) named)
  | prompt =>
      obtain ⟨parent, body, texts⟩ := prompt_written clean
      exact ⟨parent_present typed (by decide) named parent,
        body_present typed (by decide) texts body⟩

theorem read_complete (done : read source value = .ok config) (named : ¬ value.HasNullParent) :
    config.Complete := by
  obtain ⟨entries, mapping, typed, clean⟩ := read_unfaulted done
  exact complete_of_written typed (List.append_eq_nil_iff.mp clean).2
    fun null => named ⟨entries, mapping, null⟩

theorem null_parent_none (done : read source value = .ok config) (null : value.HasNullParent) :
    config.implements = none := by
  obtain ⟨entries, mapping, typed⟩ := read_typed done
  obtain ⟨others, again, written⟩ := null
  obtain rfl := Option.some.inj (mapping.symm.trans again)
  by_cases other : config.kind = .variationSet
  · cases config with
    | template | chunk | prompt => cases other
    | variations set => rfl
  · rw [← typed_kind typed] at typed
    exact (Option.some.inj ((typed_written typed other).1 .null written)).symm

/-- Null is no scalar, so a mapping with a null parent is no variation set. -/
theorem null_parent_config (done : read source value = .ok config) (null : value.HasNullParent) :
    config.kind ≠ .variationSet := by
  obtain ⟨entries, mapping, typed⟩ := read_typed done
  obtain ⟨others, again, written⟩ := null
  obtain rfl := Option.some.inj (mapping.symm.trans again)
  obtain ⟨⟨key, content⟩, found, rfl⟩ := Option.map_eq_some_iff.mp written
  rw [typed_kind typed]
  unfold Kind.ofEntries
  have deep : Value.isFlat entries = false := by
    refine Bool.eq_false_iff.mpr fun flat => ?_
    have scalars := List.all_eq_true.mp flat _ (List.mem_of_find?_eq_some found)
    simp [Value.scalarText?] at scalars
  simp only [deep, Bool.false_and]
  split
  · decide
  · split
    · decide
    · decide

/-- Under a null parent only a body makes a document complete, and never a prompt. -/
theorem null_parent_complete_iff (done : read source value = .ok config)
    (null : value.HasNullParent) :
    config.Complete ↔ config.kind ≠ .prompt ∧ config.mainBody.isSome = true := by
  have parentless := null_parent_none done null
  have other := null_parent_config done null
  unfold Complete
  rw [parentless]
  cases kind : config.kind with
  | template | chunk => simp
  | prompt => simp
  | variationSet => exact absurd kind other

theorem prompt_body (done : read source value = .ok config) (prompt : config.kind = .prompt) :
    config.mainBody.isSome = true := by
  obtain ⟨entries, -, typed, clean⟩ := read_unfaulted done
  have kind := (typed_kind typed).symm.trans prompt
  rw [kind] at typed
  have shape := (List.append_eq_nil_iff.mp clean).2
  rw [kind] at shape
  obtain ⟨-, body, texts⟩ := prompt_written shape
  exact body_present typed (by decide) texts body

end Config

/-! ### Documents and trees -/

theorem Graph.validated_node_read {workspace : Workspace} {separator : String} {path : Path}
    {cache : Cache} (shown : workspace.Grown .empty cache)
    (clean : (validate workspace separator path cache).1.hasErrors = false) :
    ∀ node ∈ (ofEntry workspace path cache).1.nodes, ∃ document config,
      workspace.Holds document ∧ document.location = node.location ∧
        document.read = .ok config ∧ node.config = some config := by
  have charts := of_entry_charts path shown
  have static := validate_static_clean clean
  simp only [staticFindings, List.any_append, Bool.or_eq_false_iff] at static
  obtain ⟨-, readable, -⟩ := structure_findings_clean static.1.1.1.1.1
  intro node member
  obtain ⟨document, held, place, known⟩ := charts.nodes node member
  have inside : document.location ∈ (ofEntry workspace path cache).1.locations := by
    rw [place]
    exact List.mem_map_of_mem member
  rcases read : document.read with faults | config
  · exact absurd readable (charts.unread document faults held inside read)
  · rw [read] at known
    exact ⟨document, config, held, place, read, known⟩

/-- A document that is read has the parts that its kind asks for, unless its parent is written as
null: then it has no parent, and has its parts only as a template or a chunk with a body. In a tree
that validates this holds of every document that the entry leads to. -/
theorem read_has_parts (source : Path) (value : Value) (workspace : Workspace) {cache : Cache}
    (shown : workspace.Grown .empty cache) (separator : String) (path : Path) :
    (∀ config, Config.read source value = .ok config →
      (¬ value.HasNullParent → config.Complete) ∧
      (value.HasNullParent → config.implements = none ∧
        (config.Complete ↔ config.kind ≠ .prompt ∧ config.mainBody.isSome = true)) ∧
      (config.kind = .prompt → config.mainBody.isSome = true)) ∧
    ((validate workspace separator path cache).1.hasErrors = false →
      ∀ node ∈ (Graph.ofEntry workspace path cache).1.nodes, ∃ document config,
        workspace.Holds document ∧ document.location = node.location ∧
          document.read = .ok config ∧ node.config = some config ∧
          (¬ document.value.HasNullParent → config.Complete)) := by
  constructor
  · intro config done
    exact ⟨Config.read_complete done, fun null =>
      ⟨Config.null_parent_none done null, Config.null_parent_complete_iff done null⟩,
      Config.prompt_body done⟩
  · intro clean node member
    obtain ⟨document, config, held, place, read, known⟩ :=
      Graph.validated_node_read shown clean node member
    exact ⟨document, config, held, place, read, known, Config.read_complete read⟩

def emptyChunk : Workspace where
  tree := ⟨[(["b"], .file "template: \"fine, \x7bprompt\x7d\"\n".toUTF8),
    (["c"], .file "type: x\nimplements: ~\n".toUTF8),
    (["p"], .file ("implements: b\ngeneration: \x7b\x7d\nchunks:\n  Part: c\n" ++
      "prompt: \"@Part\"\n").toUTF8)]⟩
  directory := []

theorem empty_chunk_checked :
    (validate emptyChunk "," ⟨"p"⟩ .empty).1.hasErrors = false ∧
      (Graph.ofEntry emptyChunk ⟨"p"⟩ .empty).1.nodes.map (fun node => node.config.map fun config =>
        (config.kind, decide config.Complete)) =
      [some (.prompt, true), some (.template, true), some (.chunk, false)] := by
  have checked : (Graph.ofEntryWithin emptyChunk 7 ⟨"p"⟩).any (fun graph =>
      !(graph.staticFindings emptyChunk .empty).1.any Finding.isError &&
      !(graph.resolutionFindings emptyChunk "," .empty).1.any Finding.isError &&
      graph.nodes.map (fun node => node.config.map fun config =>
        (config.kind, decide config.Complete)) ==
      [some (.prompt, true), some (.template, true), some (.chunk, false)]) = true := by
    decide +kernel
  simp only [Option.any_eq_true, Bool.and_eq_true, Bool.not_eq_true', beq_iff_eq] at checked
  obtain ⟨graph, explored, ⟨static, resolution⟩, nodes⟩ := checked
  have same := Graph.of_entry_within explored
  rw [same]
  exact ⟨validate_passes same static resolution, nodes⟩

theorem empty_chunk_validates : ¬ ∀ (workspace : Workspace) (separator : String) (path : Path),
    (validate workspace separator path .empty).1.hasErrors = false →
    ∀ node ∈ (Graph.ofEntry workspace path .empty).1.nodes, ∀ config, node.config = some config →
      config.Complete := by
  intro complete
  obtain ⟨clean, kinds⟩ := empty_chunk_checked
  have listed : some (Kind.chunk, false) ∈ (Graph.ofEntry emptyChunk ⟨"p"⟩ .empty).1.nodes.map
      (fun node => node.config.map fun config => (config.kind, decide config.Complete)) := by
    rw [kinds]
    decide
  obtain ⟨node, member, shape⟩ := List.mem_map.mp listed
  obtain ⟨config, known, parts⟩ := Option.map_eq_some_iff.mp shape
  exact of_decide_eq_false (Prod.mk.inj parts).2
    (complete emptyChunk "," ⟨"p"⟩ clean node member config known)

def warmChunk : Value := .map [(.text "type", .text "x"), (.text "template", .text "warm")]

def orphanPrompt : Value :=
  .map [(.text "generation", .map []), (.text "implements", .null), (.text "prompt", .text "cat")]

theorem warm_chunk_parts :
    (∃ config, Config.read ⟨"c"⟩ warmChunk = .ok config ∧ config.Complete) ∧
    (∃ config, Config.read ⟨"p"⟩ orphanPrompt = .ok config ∧ config.implements = none ∧
      config.mainBody.isSome = true) ∧
    ∀ node ∈ (Graph.ofEntry emptyChunk ⟨"p"⟩ .empty).1.nodes, ∃ document config,
      emptyChunk.Holds document ∧ document.location = node.location ∧
        document.read = .ok config ∧ node.config = some config ∧
        (¬ document.value.HasNullParent → config.Complete) := by
  have parts (source : Path) (value : Value) :=
    read_has_parts source value emptyChunk .same "," ⟨"p"⟩
  refine ⟨?_, ?_, (parts ⟨"c"⟩ warmChunk).2 empty_chunk_checked.1⟩
  · have reads : (Config.read ⟨"c"⟩ warmChunk).isOk = true := by decide +kernel
    rcases read : Config.read ⟨"c"⟩ warmChunk with faults | config
    · rw [read] at reads
      cases reads
    · refine ⟨config, rfl, ((parts ⟨"c"⟩ warmChunk).1 config read).1 ?_⟩
      rintro ⟨entries, mapping, null⟩
      rw [← Option.some.inj mapping] at null
      cases null
  · have reads : (Config.read ⟨"p"⟩ orphanPrompt).isOk = true := by decide +kernel
    rcases read : Config.read ⟨"p"⟩ orphanPrompt with faults | config
    · rw [read] at reads
      cases reads
    · obtain ⟨-, parent, body⟩ := (parts ⟨"p"⟩ orphanPrompt).1 config read
      have prompt := Option.some.inj ((Config.read_kind read).symm.trans rfl)
      exact ⟨config, rfl, (parent ⟨_, rfl, rfl⟩).1, body prompt⟩

end PromptLoom
