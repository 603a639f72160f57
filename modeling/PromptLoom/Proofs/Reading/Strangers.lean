import Mathlib.Data.List.Perm.Subperm
import PromptLoom.Proofs.Reading
import PromptLoom.Workspace

/-!
# Keys that a document may not have

Every kind of document has a list of fields. A key outside it is a stranger. Each stranger of a
document that is no variation set has a fault of its own, whatever else is wrong: most are found
among the keys, and the body of another kind by the check of the shape. So a document without a
fault has none, and one that is refused has a fault to show.
-/

namespace PromptLoom

open Yaml (Value)

set_option autoImplicit false

def Kind.hasKey (kind : Kind) : Value → Bool
  | .text name => kind.fields.contains name
  | _ => false

namespace Config

def otherBody : Kind → String
  | .prompt => "template"
  | _ => "prompt"

def otherBodyCause : Kind → Cause
  | .prompt => .bodyUnderTemplate
  | kind => .bodyUnderPrompt kind

def isOtherBody (kind : Kind) : Value → Bool
  | .text name => name == otherBody kind
  | _ => false

def strangers (kind : Kind) (entries : List (Value × Value)) : List Value :=
  (entries.map Prod.fst).filter fun key => !kind.hasKey key

def strangerFault (source : Path) (kind : Kind) : Value → DocumentError
  | .text name =>
      fault source name
        (if name = otherBody kind then otherBodyCause kind else .unknownField name kind)
  | _ => wholeFault source .fieldNameNotText

variable {source : Path} {kind : Kind} {entries : List (Value × Value)} {value : Value}

/-! ### Keys of a mapping -/

theorem has_key_iff {key : Value} :
    kind.hasKey key = true ↔ ∃ name, key = .text name ∧ name ∈ kind.fields := by
  cases key with
  | text name => simp [Kind.hasKey]
  | null | bool | int | float | list | map | tagged => simp [Kind.hasKey]

theorem has_field_iff {name : String} :
    Value.hasField entries name = true ↔ .text name ∈ entries.map Prod.fst := by
  simp only [Value.hasField, Value.field?, Option.isSome_map, List.find?_isSome, List.mem_map]
  constructor
  · rintro ⟨⟨key, content⟩, member, found⟩
    cases key with
    | text own => exact ⟨_, member, congrArg Value.text (beq_iff_eq.mp found)⟩
    | null | bool | int | float | list | map | tagged => cases found
  · rintro ⟨⟨key, content⟩, member, rfl⟩
    exact ⟨_, member, beq_self_eq_true name⟩

/-! ### Faults of strangers -/

/-- The check of a key passes over both names of bodies; one of them is a field of the kind. -/
theorem named_field_iff (config : kind ≠ .variationSet) (name : String) :
    (name = "prompt" ∨ name = "template" ∨ kind.fields.contains name = true) ↔
      kind.fields.contains name = true ∨ name = otherBody kind := by
  cases kind with
  | variationSet => exact absurd rfl config
  | template | chunk =>
      simp only [Kind.fields, otherBody, List.contains_eq_mem, decide_eq_true_eq, List.mem_cons]
      tauto
  | prompt =>
      simp only [Kind.fields, otherBody, List.contains_eq_mem, decide_eq_true_eq, List.mem_cons]
      tauto

theorem key_fault_eq (config : kind ≠ .variationSet) {key : Value}
    (plain : ∀ tag inner, key ≠ .tagged tag inner) :
    keyFault source kind key =
      if kind.hasKey key || isOtherBody kind key then [] else [strangerFault source kind key] := by
  cases key with
  | text name =>
      simp only [keyFault, Value.text?, Value.untagged, named_field_iff config name, Kind.hasKey,
        isOtherBody, strangerFault, Bool.or_eq_true, beq_iff_eq]
      split
      · rfl
      · next foreign => rw [if_neg fun same => foreign (.inr same)]
  | tagged tag inner => exact absurd rfl (plain tag inner)
  | null | bool | int | float | list | map => rfl

theorem key_faults_eq (config : kind ≠ .variationSet)
    (plain : ∀ entry ∈ entries, ∀ tag inner, entry.1 ≠ .tagged tag inner) :
    (entries.flatMap fun entry => keyFault source kind entry.1) =
      ((strangers kind entries).filter fun key => !isOtherBody kind key).map
        (strangerFault source kind) := by
  induction entries with
  | nil => rfl
  | cons entry rest ih =>
      obtain ⟨here, others⟩ := List.forall_mem_cons.mp plain
      rw [List.flatMap_cons, ih others, key_fault_eq config here, strangers, strangers,
        List.map_cons, List.filter_cons]
      cases kind.hasKey entry.1 with
      | true => rfl
      | false =>
          rw [Bool.not_false, if_pos rfl, List.filter_cons]
          cases isOtherBody kind entry.1 <;> rfl

theorem other_body_fault (config : kind ≠ .variationSet)
    (written : .text (otherBody kind) ∈ entries.map Prod.fst) :
    strangerFault source kind (.text (otherBody kind)) ∈ shapeFaults source kind entries := by
  have has := has_field_iff.mpr written
  cases kind with
  | variationSet => exact absurd rfl config
  | template | prompt | chunk =>
      simp only [otherBody] at has
      simp [shapeFaults, otherBody, has, faultIf, strangerFault, otherBodyCause]

theorem other_bodies_once (kind : Kind)
    (distinct : Value.entriesHaveDistinctKeys entries = true) :
    (strangers kind entries).filter (isOtherBody kind) = [] ∨
      (strangers kind entries).filter (isOtherBody kind) = [.text (otherBody kind)] := by
  have apart : ((strangers kind entries).filter (isOtherBody kind)).Pairwise
      fun first second => Value.same first second = false :=
    ((keys_apart distinct).filter _).filter _
  have named : ∀ key ∈ (strangers kind entries).filter (isOtherBody kind),
      key = .text (otherBody kind) := by
    intro key member
    have own := (List.mem_filter.mp member).2
    cases key with
    | text name => exact congrArg Value.text (beq_iff_eq.mp own)
    | null | bool | int | float | list | map | tagged => cases own
  generalize (strangers kind entries).filter (isOtherBody kind) = bodies at apart named
  match bodies with
  | [] => exact .inl rfl
  | [key] => exact .inr (congrArg (fun own => [own]) (named key (List.mem_singleton_self key)))
  | first :: second :: rest =>
      have unlike := List.rel_of_pairwise_cons apart (List.mem_cons_self ..)
      rw [named first (by simp), named second (by simp)] at unlike
      simp [Value.same] at unlike

theorem strangers_faulty (config : kind ≠ .variationSet)
    (plain : ∀ entry ∈ entries, ∀ tag inner, entry.1 ≠ .tagged tag inner)
    (distinct : Value.entriesHaveDistinctKeys entries = true) :
    ((strangers kind entries).map (strangerFault source kind)).Subperm
      ((entries.flatMap fun entry => keyFault source kind entry.1) ++
        shapeFaults source kind entries) := by
  have bodies : (((strangers kind entries).filter (isOtherBody kind)).map
      (strangerFault source kind)).Subperm (shapeFaults source kind entries) := by
    rcases other_bodies_once kind distinct with none | one
    · rw [none]
      exact List.nil_subperm
    · have written : .text (otherBody kind) ∈ entries.map Prod.fst := by
        have member : .text (otherBody kind) ∈ (strangers kind entries).filter (isOtherBody kind) :=
          one ▸ List.mem_singleton_self _
        exact (List.mem_filter.mp (List.mem_filter.mp member).1).1
      rw [one]
      exact List.singleton_subperm_iff.mpr (other_body_fault config written)
  have parted := (List.filter_append_perm (isOtherBody kind) (strangers kind entries)).map
    (strangerFault source kind)
  rw [List.map_append, ← key_faults_eq config plain] at parted
  exact parted.symm.subperm.trans
    (List.perm_append_comm.subperm.trans ((List.Subperm.refl _).append bodies))

theorem other_body_named (config : kind ≠ .variationSet) :
    (otherBody kind).toList <:+: (otherBodyCause kind).message.toList := by
  cases kind with
  | variationSet => exact absurd rfl config
  | template | prompt | chunk => exact of_decide_eq_true (by decide +kernel)

theorem unknown_field_named (kind : Kind) (name : String) :
    name.toList <:+: (Cause.unknownField name kind).message.toList := by
  have wording : (Cause.unknownField name kind).message =
      "unknown field `" ++ name ++ "` for a " ++ kind.label := rfl
  rw [wording, String.toList_append, String.toList_append, String.toList_append]
  exact (List.infix_append ..).trans (List.prefix_append ..).isInfix

theorem stranger_fault_names (config : kind ≠ .variationSet) (name : String) :
    name.toList <:+: (strangerFault source kind (.text name)).message.toList := by
  simp only [strangerFault, fault, DocumentError.message]
  split
  · next same =>
      rw [same]
      exact other_body_named config
  · exact unknown_field_named kind name

theorem stranger_fault_structural (config : kind ≠ .variationSet) (key : Value) :
    (strangerFault source kind key).category = .structural := by
  cases key with
  | text name =>
      simp only [strangerFault]
      split
      · cases kind with
        | variationSet => exact absurd rfl config
        | template | prompt | chunk => rfl
      · rfl
  | null | bool | int | float | list | map | tagged => rfl

/-- Where nothing else is wrong, the faults of strangers alone keep a document from being read. -/
theorem read_with_strangers (mapping : value.entries? = some entries)
    (some : faults source entries ≠ []) :
    ∃ found, read source value = .error found ∧ (faults source entries).Sublist found := by
  rw [read_mapping mapping]
  split
  · exact ⟨_, rfl, List.sublist_append_left ..⟩
  · rw [if_neg fun none => some (List.isEmpty_iff.mp none)]
    exact ⟨_, rfl, .refl _⟩

theorem strangers_among_faults (source : Path) (config : Kind.ofEntries entries ≠ .variationSet)
    (plain : ∀ entry ∈ entries, ∀ tag inner, entry.1 ≠ .tagged tag inner)
    (distinct : Value.entriesHaveDistinctKeys entries = true) :
    ((strangers (Kind.ofEntries entries) entries).map
      (strangerFault source (Kind.ofEntries entries))).Subperm (faults source entries) := by
  rw [faults]
  split
  · next variations => exact absurd variations config
  · exact strangers_faulty config plain distinct

/-- A document that is refused has a first fault. Under distinct keys without tags, a document that
is read as another kind than a variation set has fields of its kind only; one with strangers is
refused, with a structural fault of its own for each of them, which names a stranger that is a
text. -/
theorem strangers_reported (source : Path) (value : Value) :
    (∀ faults, read source value = .error faults →
      ∃ first rest, faults = first :: rest ∧ ∀ path, Document.firstFault path faults = first) ∧
    ∀ entries, value.entries? = some entries → value.hasDistinctKeys = true →
      (∀ entry ∈ entries, ∀ tag inner, entry.1 ≠ .tagged tag inner) →
      (∀ config, read source value = .ok config → config.kind ≠ .variationSet →
        ∀ entry ∈ entries, ∃ name, entry.1 = .text name ∧ name ∈ config.kind.fields) ∧
      (Kind.ofEntries entries ≠ .variationSet →
        strangers (Kind.ofEntries entries) entries ≠ [] →
        ∃ faults own, read source value = .error faults ∧
          ((strangers (Kind.ofEntries entries) entries).map own).Subperm faults ∧
          ∀ key ∈ strangers (Kind.ofEntries entries) entries,
            (own key).file = source ∧ (own key).category = .structural ∧
            ∀ name, key = .text name →
              (own key).field = some name ∧ name.toList <:+: (own key).message.toList) := by
  constructor
  · intro faults failed
    obtain ⟨first, rest, rfl⟩ := List.exists_cons_of_ne_nil (read_faults_ne_nil failed)
    exact ⟨first, rest, rfl, fun path => rfl⟩
  intro entries mapping distinct plain
  have apart := entries_distinct mapping distinct
  constructor
  · intro config done kind entry member
    obtain ⟨same, mapped, typed, clean⟩ := read_unfaulted done
    obtain rfl := Option.some.inj (mapping.symm.trans mapped)
    rw [typed_kind typed] at kind ⊢
    have none := strangers_among_faults source kind plain apart
    rw [clean, List.subperm_nil, List.map_eq_nil_iff, strangers, List.filter_eq_nil_iff] at none
    have known := none entry.1 (List.mem_map_of_mem member)
    exact has_key_iff.mp (by simpa using known)
  · intro config some
    have own := strangers_among_faults source config plain apart
    have faulty : faults source entries ≠ [] := by
      intro none
      rw [none, List.subperm_nil, List.map_eq_nil_iff] at own
      exact some own
    obtain ⟨found, failed, within⟩ := read_with_strangers mapping faulty
    refine ⟨found, strangerFault source (Kind.ofEntries entries), failed,
      own.trans within.subperm, fun key _ => ⟨?_, stranger_fault_structural config key, ?_⟩⟩
    · cases key <;> rfl
    · rintro name rfl
      exact ⟨rfl, stranger_fault_names config name⟩

def crowdedChunk : List (Value × Value) :=
  [(.text "type", .list []), (.text "prompt", .text "x"), (.int 2, .null), (.text "colour", .null)]

def plainChunk : List (Value × Value) := [(.text "type", .null), (.text "template", .text "x")]

theorem crowded_strangers_reported :
    (∃ (faults : List DocumentError) (own : Value → DocumentError),
      read ⟨"c"⟩ (.map crowdedChunk) = .error faults ∧
      [own (.text "prompt"), own (.int 2), own (.text "colour")].Subperm faults ∧
      (own (.text "prompt")).field = some "prompt" ∧
      (own (.text "colour")).field = some "colour" ∧
      ∃ first rest, faults = first :: rest ∧ Document.firstFault ⟨"c"⟩ faults = first) ∧
    ∃ config, read ⟨"c"⟩ (.map plainChunk) = .ok config ∧
      ∀ entry ∈ plainChunk, ∃ name, entry.1 = .text name ∧ name ∈ config.kind.fields := by
  constructor
  · obtain ⟨refused, others⟩ := strangers_reported ⟨"c"⟩ (.map crowdedChunk)
    obtain ⟨-, reported⟩ := others crowdedChunk rfl (by decide +kernel) (by simp [crowdedChunk])
    obtain ⟨faults, own, failed, within, told⟩ := reported (by decide) (by decide)
    have foreign : strangers (Kind.ofEntries crowdedChunk) crowdedChunk =
        [.text "prompt", .int 2, .text "colour"] := rfl
    rw [foreign] at within told
    obtain ⟨-, -, prompt⟩ := told (.text "prompt") (by simp)
    obtain ⟨-, -, colour⟩ := told (.text "colour") (by simp)
    obtain ⟨first, rest, begins, shown⟩ := refused faults failed
    exact ⟨faults, own, failed, within, (prompt _ rfl).1, (colour _ rfl).1, first, rest, begins,
      shown _⟩
  · obtain ⟨-, others⟩ := strangers_reported ⟨"c"⟩ (.map plainChunk)
    obtain ⟨known, -⟩ := others plainChunk rfl (by decide +kernel) (by simp [plainChunk])
    obtain ⟨config, done⟩ : ∃ config, read ⟨"c"⟩ (.map plainChunk) = .ok config := ⟨_, rfl⟩
    have kind : Kind.classify? (.map plainChunk) = some config.kind := read_kind done
    have other : config.kind ≠ .variationSet := by
      intro same
      rw [same] at kind
      exact absurd kind (by decide)
    exact ⟨config, done, known config done other⟩

end Config

end PromptLoom
