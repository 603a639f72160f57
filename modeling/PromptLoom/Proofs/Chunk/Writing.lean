import PromptLoom.Proofs.Chunk.Mentions

/-!
# Mentions as they are written

A reference with values is written as its name, the word `with`, and its bindings between commas. Such
a text is read back as the same reference: the braces close where they were opened for the mention, a
comma inside a value is no end of a binding, and the first colon of a binding stands behind its
parameter. How deep braces and brackets nest inside the values makes no difference.
-/

namespace PromptLoom

open Text

set_option autoImplicit false

/-! ### Braces of texts in a row -/

namespace Text.BraceBalanced

variable {one other : List Char}

theorem append (first : BraceBalanced one) (second : BraceBalanced other) :
    BraceBalanced (one ++ other) where
  opened front begins := by
    rcases List.prefix_or_prefix_of_prefix begins (List.prefix_append one other) with
      inside | ⟨behind, rfl⟩
    · exact first.opened front inside
    · have later := second.opened behind ((List.prefix_append_right_inj one).mp begins)
      have settled := first.settled
      rw [List.count_append, List.count_append]
      omega
  settled := by
    rw [List.count_append, List.count_append, first.settled, second.settled]

theorem free {text : List Char} (plain : ∀ c ∈ text, isBrace c = false) : BraceBalanced text where
  opened front begins := by
    have none : '}' ∉ front := fun member =>
      absurd (plain '}' (begins.subset member)) (by decide)
    rw [List.count_eq_zero.mpr none]
    exact Nat.zero_le _
  settled := by
    have noOpening : '{' ∉ text := fun member => absurd (plain '{' member) (by decide)
    have noClosing : '}' ∉ text := fun member => absurd (plain '}' member) (by decide)
    rw [List.count_eq_zero.mpr noOpening, List.count_eq_zero.mpr noClosing]

theorem joined {glue : List Char} {parts : List (List Char)} (between : BraceBalanced glue)
    (balanced : ∀ part ∈ parts, BraceBalanced part) : BraceBalanced (join glue parts) := by
  fun_induction join glue parts with
  | case1 => exact free (List.forall_mem_nil _)
  | case2 part => exact balanced part (List.mem_singleton_self part)
  | case3 part next parts ih =>
      obtain ⟨first, others⟩ := List.forall_mem_cons.mp balanced
      exact (first.append between).append (ih others)

end Text.BraceBalanced

namespace ChunkRef

/-- A character when brackets count as braces. -/
def asBrace (c : Char) : Char := if c = '[' then '{' else if c = ']' then '}' else c

/-- Every comma stands inside braces or brackets, some of which may stand open before the text. -/
def CommasInside (depth : Nat) (text : List Char) : Prop :=
  ∀ front, front ++ [','] <+: text →
    (front.map asBrace).count '}' < (front.map asBrace).count '{' + depth

instance (depth : Nat) (text : List Char) : Decidable (CommasInside depth text) :=
  decidable_of_iff (∀ front ∈ text.inits, front ++ [','] <+: text →
      (front.map asBrace).count '}' < (front.map asBrace).count '{' + depth) <| by
    simp only [List.mem_inits]
    exact ⟨fun inside front begins => inside front ((List.prefix_append _ _).trans begins) begins,
      fun inside front _ => inside front⟩

/-- A text that is not cut at its commas: braces and brackets, counted alike, are balanced, and every
comma stands inside some. -/
structure Uncut (text : List Char) : Prop where
  nested : BraceBalanced (text.map asBrace)
  commas : CommasInside 0 text

instance (text : List Char) : Decidable (Uncut text) :=
  decidable_of_iff (BraceBalanced (text.map asBrace) ∧ CommasInside 0 text)
    ⟨fun both => ⟨both.1, both.2⟩, fun uncut => ⟨uncut.nested, uncut.commas⟩⟩

/-- A parameter that can be bound: trimmed and not empty, without colons, commas, braces and
brackets. -/
structure IsParam (param : List Char) : Prop where
  filled : param ≠ []
  trimmed : trim param = param
  plain : ∀ c ∈ param, c ∉ [':', ',', '{', '}', '[', ']']

instance (param : List Char) : Decidable (IsParam param) :=
  decidable_of_iff (param ≠ [] ∧ trim param = param ∧
      param.all (fun c => c ∉ [':', ',', '{', '}', '[', ']']) = true) <| by
    simp only [List.all_eq_true, decide_eq_true_iff]
    exact ⟨fun all => ⟨all.1, all.2.1, all.2.2⟩, fun isParam => ⟨isParam.1, isParam.2, isParam.3⟩⟩

/-- A value that a parameter can be bound to: trimmed and not empty, with balanced braces, and not cut
at its commas. -/
structure IsValue (value : List Char) : Prop where
  filled : value ≠ []
  trimmed : trim value = value
  balanced : BraceBalanced value
  uncut : Uncut value

instance (value : List Char) : Decidable (IsValue value) :=
  decidable_of_iff (value ≠ [] ∧ trim value = value ∧ BraceBalanced value ∧ Uncut value)
    ⟨fun all => ⟨all.1, all.2.1, all.2.2.1, all.2.2.2⟩,
      fun isValue => ⟨isValue.1, isValue.2, isValue.3, isValue.4⟩⟩

structure IsWritable (ref : ChunkRef) : Prop where
  named : isIdent ref.name.toList = true
  bound : ref.bindings ≠ []
  params : ∀ binding ∈ ref.bindings, IsParam binding.1.toList
  values : ∀ binding ∈ ref.bindings, IsValue binding.2.toList

def writtenBinding (binding : String × String) : List Char :=
  binding.1.toList ++ ':' :: binding.2.toList

def inside (ref : ChunkRef) : List Char :=
  ref.name.toList ++ " with ".toList ++ join ", ".toList (ref.bindings.map writtenBinding)

def written (ref : ChunkRef) : List Char := '@' :: '{' :: (ref.inside ++ ['}'])

def textInFront (text : List Char) : List (List Char) → List (List Char)
  | [] => [text]
  | part :: parts => (text ++ part) :: parts

theorem text_in_front_cons (c : Char) (text : List Char) (parts : List (List Char)) :
    textInFront (c :: text) parts = inFrontOf c (textInFront text parts) := by
  cases parts <;> rfl

theorem in_front_ne_nil (c : Char) (parts : List (List Char)) : inFrontOf c parts ≠ [] := by
  cases parts <;> exact List.cons_ne_nil _ _

theorem split_top_level_ne_nil (depth : Nat) (text : List Char) : splitTopLevel depth text ≠ [] := by
  cases text with
  | nil => exact List.cons_ne_nil _ _
  | cons c rest =>
      rw [splitTopLevel]
      split
      · exact in_front_ne_nil c _
      split
      · exact in_front_ne_nil c _
      split
      · exact List.cons_ne_nil _ _
      · exact in_front_ne_nil c _

theorem CommasInside.tail {depth next : Nat} {c : Char} {text : List Char}
    (commas : CommasInside depth (c :: text))
    (counted : [asBrace c].count '{' + depth = [asBrace c].count '}' + next) :
    CommasInside next text := by
  intro front begins
  have longer := commas (c :: front) (List.cons_prefix_cons.mpr ⟨rfl, begins⟩)
  rw [List.map_cons, ← List.singleton_append, List.count_append, List.count_append] at longer
  omega

/-- A text that settles what stands open before it, braces and brackets counted alike, goes to the
first part whole, if its commas stand inside. -/
theorem split_top_level_settled {depth : Nat} {text : List Char}
    (settles : Settles depth (text.map asBrace)) (commas : CommasInside depth text)
    (rest : List Char) :
    splitTopLevel depth (text ++ rest) = textInFront text (splitTopLevel 0 rest) := by
  -- the induction is on the text
  induction text generalizing depth with
  | nil =>
      obtain rfl := settles_nil.mp settles
      obtain ⟨part, parts, cut⟩ :=
        List.exists_cons_of_ne_nil (split_top_level_ne_nil 0 rest)
      rw [List.nil_append, cut, textInFront, List.nil_append]
  | cons c text ih =>
      rw [List.map_cons] at settles
      rw [List.cons_append, splitTopLevel, text_in_front_cons]
      by_cases opening : c = '{' ∨ c = '['
      · have brace : asBrace c = '{' := by rcases opening with rfl | rfl <;> rfl
        rw [brace, settles_open] at settles
        rw [if_pos opening, ih settles (commas.tail (by rw [brace]; simp; omega))]
      · rw [if_neg opening]
        by_cases closing : c = '}' ∨ c = ']'
        · have brace : asBrace c = '}' := by rcases closing with rfl | rfl <;> rfl
          rw [brace, settles_close] at settles
          obtain ⟨outer, rfl, later⟩ := settles
          rw [if_pos closing, Nat.add_sub_cancel,
            ih later (commas.tail (by rw [brace]; simp; omega))]
        · obtain ⟨noBrace, noBracket⟩ := not_or.mp opening
          obtain ⟨noClosing, noEnd⟩ := not_or.mp closing
          have other : asBrace c = c := by rw [asBrace, if_neg noBracket, if_neg noEnd]
          rw [other, settles_other noBrace noClosing] at settles
          have inside : ¬ (c = ',' ∧ depth = 0) := by
            rintro ⟨rfl, rfl⟩
            exact absurd (commas [] (by simp)) (Nat.lt_irrefl 0)
          rw [if_neg closing, if_neg inside,
            ih settles (commas.tail (by simp [other, noBrace, noClosing]))]

theorem split_top_level_joined {parts : List (List Char)} (some : parts ≠ [])
    (uncut : ∀ part ∈ parts, Uncut part) : splitTopLevel 0 (join [','] parts) = parts := by
  have whole (part : List Char) (one : Uncut part) (rest : List Char) :
      splitTopLevel 0 (part ++ rest) = textInFront part (splitTopLevel 0 rest) :=
    split_top_level_settled (settles_zero.mpr one.nested) one.commas rest
  fun_induction join [','] parts with
  | case1 => exact absurd rfl some
  | case2 part =>
      have alone := whole part (uncut part (List.mem_singleton_self part)) []
      rwa [List.append_nil, splitTopLevel, textInFront, List.append_nil] at alone
  | case3 part next parts ih =>
      obtain ⟨first, others⟩ := List.forall_mem_cons.mp uncut
      have cut : splitTopLevel 0 ([','] ++ join [','] (next :: parts)) =
          [] :: splitTopLevel 0 (join [','] (next :: parts)) := by
        rw [List.singleton_append, splitTopLevel]
        simp
      rw [List.append_assoc, whole part first, cut, ih (List.cons_ne_nil _ _) others, textInFront,
        List.append_nil]

namespace Uncut

variable {one other text : List Char}

theorem append (first : Uncut one) (second : Uncut other) : Uncut (one ++ other) where
  nested := by
    rw [List.map_append]
    exact first.nested.append second.nested
  commas front begins := by
    rcases List.prefix_or_prefix_of_prefix begins (List.prefix_append one other) with
      inside | ⟨behind, whole⟩
    · exact first.commas front inside
    · rcases List.eq_nil_or_concat' behind with rfl | ⟨middle, last, rfl⟩
      · rw [List.append_nil] at whole
        exact first.commas front (whole ▸ List.prefix_refl one)
      · rw [← List.append_assoc] at whole
        obtain ⟨rfl, same⟩ := List.append_inj' whole rfl
        obtain rfl := List.singleton_inj.mp same
        rw [List.append_assoc] at begins
        have later := second.commas middle ((List.prefix_append_right_inj one).mp begins)
        have settled := first.nested.settled
        rw [List.map_append, List.count_append, List.count_append]
        omega

theorem free (plain : ∀ c ∈ text, c ∉ [',', '{', '}', '[', ']']) : Uncut text where
  nested := by
    refine .free fun c member => ?_
    obtain ⟨d, inside, rfl⟩ := List.mem_map.mp member
    have other := plain d inside
    simp only [List.mem_cons, List.not_mem_nil, or_false, not_or] at other
    obtain ⟨-, noBrace, noClosing, noBracket, noEnd⟩ := other
    rw [asBrace, if_neg noBracket, if_neg noEnd]
    simp [isBrace, noBrace, noClosing]
  commas front begins := by
    have comma : ',' ∈ text := begins.subset (by simp)
    exact absurd (by simp) (plain ',' comma)

end Uncut

/-! ### Bindings -/

theorem IsParam.uncut {param : List Char} (isParam : IsParam param) : Uncut param :=
  .free fun c member => mt (List.mem_cons_of_mem ':') (isParam.plain c member)

theorem IsParam.balanced {param : List Char} (isParam : IsParam param) : BraceBalanced param := by
  refine .free fun c member => ?_
  have other := isParam.plain c member
  simp only [List.mem_cons, List.not_mem_nil, or_false, not_or] at other
  simp [isBrace, other]

theorem parse_binding_spaced (text : List Char) : parseBinding (' ' :: text) = parseBinding text := by
  have blank : isBlank ' ' = true := by decide
  unfold parseBinding
  rw [cutAtChar, if_neg (by decide), trim_cons blank]
  rcases cutAtChar ':' text with _ | ⟨before, after⟩
  · rfl
  · simp only [Option.map_some, trim_cons blank]

section Binding

variable {binding : String × String} (isParam : IsParam binding.1.toList)
  (isValue : IsValue binding.2.toList)
include isParam isValue

theorem parse_binding_written : parseBinding (writtenBinding binding) = .ok binding := by
  have noColon : ':' ∉ binding.1.toList := fun member => isParam.plain ':' member (by simp)
  have cut : cutAtChar ':' (writtenBinding binding) =
      some (binding.1.toList, binding.2.toList) := cut_at_char_eq_some.mpr ⟨rfl, noColon⟩
  have filled : (binding.1.toList.isEmpty || binding.2.toList.isEmpty) = false := by
    rw [List.isEmpty_eq_false_iff.mpr isParam.filled, List.isEmpty_eq_false_iff.mpr isValue.filled]
    rfl
  simp only [parseBinding, cut, isParam.trimmed, isValue.trimmed, filled, Bool.false_eq_true,
    if_false, String.ofList_toList]

theorem written_binding_uncut : Uncut (writtenBinding binding) := by
  have colon : Uncut [':'] := .free fun c member => by simp_all
  rw [writtenBinding, List.append_cons]
  exact (isParam.uncut.append colon).append isValue.uncut

theorem written_binding_balanced : BraceBalanced (writtenBinding binding) := by
  have colon : BraceBalanced [':'] := by decide
  rw [writtenBinding, List.append_cons]
  exact (isParam.balanced.append colon).append isValue.balanced

theorem written_binding_bare : Bare (writtenBinding binding) := by
  have front := isParam.trimmed ▸ trim_bare binding.1.toList
  have behind := isValue.trimmed ▸ trim_bare binding.2.toList
  have around := front.around behind isParam.filled isValue.filled [':']
  rwa [List.append_assoc] at around

end Binding

theorem written_binding_filled (binding : String × String) : writtenBinding binding ≠ [] := by
  simp [writtenBinding]

theorem written_binding_solid (binding : String × String) :
    isAllBlank (writtenBinding binding) = false := by
  refine List.all_eq_false.mpr ⟨':', by simp [writtenBinding], by decide⟩

theorem parse_bindings_map {texts : String × String → List Char} {bindings : List (String × String)}
    (each : ∀ binding ∈ bindings, parseBinding (texts binding) = .ok binding) :
    parseBindings (bindings.map texts) = .ok bindings := by
  induction bindings with
  | nil => rfl
  | cons binding rest ih =>
      obtain ⟨first, others⟩ := List.forall_mem_cons.mp each
      rw [List.map_cons, parseBindings, first, ih others]
      rfl

theorem join_spaced (first : List Char) (rest : List (List Char)) :
    join ", ".toList (first :: rest) = join [','] (first :: rest.map (' ' :: ·)) := by
  have glue : ", ".toList = [',', ' '] := rfl
  induction rest generalizing first with
  | nil => rfl
  | cons next rest ih =>
      have spaced : ' ' :: join [','] (next :: rest.map (' ' :: ·)) =
          join [','] ((' ' :: next) :: rest.map (' ' :: ·)) := by cases rest <;> rfl
      rw [join, ih, List.map_cons, join, ← spaced, glue]
      simp

/-! ### References -/

namespace IsWritable

variable {ref : ChunkRef} (writable : ref.IsWritable)
include writable

theorem name_plain {c : Char} (member : c ∈ ref.name.toList) : isIdentRest c = true := by
  have ident := writable.named
  rcases named : ref.name.toList with _ | ⟨first, others⟩
  · rw [named] at member
    cases member
  · rw [named] at ident member
    obtain ⟨start, all⟩ := Bool.and_eq_true_iff.mp ident
    rcases List.mem_cons.mp member with rfl | later
    · exact ident_starts_rest start
    · exact List.all_eq_true.mp all c later

theorem name_filled : ref.name.toList ≠ [] := by
  intro none
  have ident := writable.named
  rw [none] at ident
  cases ident

theorem name_bare : Bare ref.name.toList := by
  refine ⟨fun c first => ?_, fun c last => ?_⟩
  · exact ident_not_blank (writable.name_plain (List.mem_of_mem_head? first))
  · exact ident_not_blank (writable.name_plain (List.mem_of_mem_getLast? last))

theorem inside_bare : Bare ref.inside := by
  have some : ref.bindings.map writtenBinding ≠ [] := by simpa using writable.bound
  have filled : ∀ text ∈ ref.bindings.map writtenBinding, text ≠ [] := by
    intro text member
    obtain ⟨binding, -, rfl⟩ := List.mem_map.mp member
    exact written_binding_filled binding
  have bare : ∀ text ∈ ref.bindings.map writtenBinding, Bare text := by
    intro text member
    obtain ⟨binding, among, rfl⟩ := List.mem_map.mp member
    exact written_binding_bare (writable.params binding among) (writable.values binding among)
  exact writable.name_bare.around (joined_bare filled bare) writable.name_filled
    (joined_filled some filled) " with ".toList

theorem parse_bindings_written : parseBindings
    ((splitTopLevel 0 (join ", ".toList (ref.bindings.map writtenBinding))).filter
      fun part => !isAllBlank part) = .ok ref.bindings := by
  obtain ⟨first, rest, listed⟩ := List.exists_cons_of_ne_nil writable.bound
  have read (binding : String × String) (member : binding ∈ ref.bindings) :=
    parse_binding_written (writable.params binding member) (writable.values binding member)
  have uncut (binding : String × String) (member : binding ∈ ref.bindings) :=
    written_binding_uncut (writable.params binding member) (writable.values binding member)
  rw [listed] at read uncut ⊢
  obtain ⟨readFirst, readRest⟩ := List.forall_mem_cons.mp read
  obtain ⟨uncutFirst, uncutRest⟩ := List.forall_mem_cons.mp uncut
  have space : Uncut [' '] := .free fun c member => by simp_all
  have cut : splitTopLevel 0 (join ", ".toList ((first :: rest).map writtenBinding)) =
      writtenBinding first :: rest.map fun binding => ' ' :: writtenBinding binding := by
    rw [List.map_cons, join_spaced, List.map_map]
    refine split_top_level_joined (List.cons_ne_nil _ _) ?_
    rintro part (_ | ⟨_, member⟩)
    · exact uncutFirst
    · obtain ⟨binding, among, rfl⟩ := List.mem_map.mp member
      exact space.append (uncutRest binding among)
  have kept : ∀ part ∈ writtenBinding first :: rest.map (fun binding => ' ' :: writtenBinding binding),
      (!isAllBlank part) = true := by
    rintro part (_ | ⟨_, member⟩)
    · rw [written_binding_solid]
      rfl
    · obtain ⟨binding, -, rfl⟩ := List.mem_map.mp member
      rw [isAllBlank, List.all_cons, ← isAllBlank, written_binding_solid, Bool.and_false]
      rfl
  have others : parseBindings (rest.map fun binding => ' ' :: writtenBinding binding) = .ok rest :=
    parse_bindings_map fun binding member => by
      rw [parse_binding_spaced, readRest binding member]
  rw [cut, List.filter_eq_self.mpr kept, parseBindings, readFirst, others]
  rfl

theorem parse_inside : parse ref.inside = .ok ref := by
  have clear : ' ' ∉ ref.name.toList := fun member =>
    absurd (ident_not_blank (writable.name_plain member)) (by decide)
  have cut : cutAtWord " with ".toList ref.inside = some (ref.name.toList,
      join ", ".toList (ref.bindings.map writtenBinding)) := by
    rw [inside, List.append_assoc]
    exact cut_at_word_behind clear _
  simp only [parse, writable.inside_bare.trim, cut, writable.name_bare.trim, writable.named,
    if_true, writable.parse_bindings_written, String.ofList_toList]
  rfl

theorem inside_balanced : BraceBalanced ref.inside := by
  have name : BraceBalanced ref.name.toList := .free (ident_without_braces writable.named)
  have word : BraceBalanced " with ".toList := by decide
  have comma : BraceBalanced ", ".toList := by decide
  refine (name.append word).append (comma.joined fun text member => ?_)
  obtain ⟨binding, among, rfl⟩ := List.mem_map.mp member
  exact written_binding_balanced (writable.params binding among) (writable.values binding among)

theorem written_reads (after : List Char) : BodyPart.Written after ref.written (.ok ref) := by
  have braced : BodyPart.Written after ref.written (parse ref.inside) :=
    .braced writable.inside_balanced
  rwa [writable.parse_inside] at braced

end IsWritable

end ChunkRef

/-! ### Mentions in a text -/

namespace LocatedMention

def moved (offset : Nat) (located : LocatedMention) : LocatedMention :=
  ⟨located.parsed, offset + located.start, offset + located.stop⟩

theorem of_parts_moved (offset further : Nat) (parts : List BodyPart) :
    ofParts (offset + further) parts = (ofParts further parts).map (moved offset) := by
  induction parts generalizing further with
  | nil => rfl
  | cons part rest ih =>
      cases part with
      | char c => rw [ofParts, ofParts, Nat.add_assoc, ih]
      | mention source parsed => rw [ofParts, ofParts, Nat.add_assoc, ih, List.map_cons, moved]

theorem of_parts_append (offset : Nat) (front behind : List BodyPart) :
    ofParts offset (front ++ behind) = ofParts offset front ++
      ofParts (offset + byteLength (front.flatMap BodyPart.printed)) behind := by
  induction front generalizing offset with
  | nil => rfl
  | cons part rest ih =>
      have further : offset + byteLength part.printed +
          byteLength (rest.flatMap BodyPart.printed) =
          offset + byteLength ((part :: rest).flatMap BodyPart.printed) := by
        rw [List.flatMap_cons, byte_length_append, Nat.add_assoc]
      cases part with
      | char c => rw [List.cons_append, ofParts, ofParts, ih, further]
      | mention source parsed =>
          rw [List.cons_append, ofParts, ofParts, ih, further, List.cons_append]

theorem of_text_closed {text : String}
    (closed : ∀ located ∈ ofText text, located.parsed ≠ .error .unterminated)
    (source : List Char) : .mention source (.error .unterminated) ∉ BodyPart.ofText text := by
  intro member
  obtain ⟨front, behind, parts⟩ := List.append_of_mem member
  have located : ∃ located ∈ ofText text, located.parsed = .error .unterminated := by
    rw [ofText, parts, of_parts_append, ofParts]
    exact ⟨_, List.mem_append_right _ (List.mem_cons_self ..), rfl⟩
  obtain ⟨located, among, open_⟩ := located
  exact closed located among open_

theorem of_text_nil : ofText "" = [] := by
  rw [ofText, BodyPart.ofText, String.toList_empty, BodyPart.scan]
  rfl

/-- A reference that is written behind a text that ends in no word and leaves no mention open is one
mention more, and what stands behind is scanned as on its own. -/
theorem of_text_around {ref : ChunkRef} (writable : ref.IsWritable) {front : String}
    (boundary : endsInWord front.toList = false)
    (closed : ∀ located ∈ ofText front, located.parsed ≠ .error .unterminated) (behind : String) :
    ofText (front ++ String.ofList ref.written ++ behind) =
      ofText front ++ ⟨.ok ref, byteLength front.toList,
        byteLength front.toList + byteLength ref.written⟩ ::
        (ofText behind).map (moved (byteLength front.toList + byteLength ref.written)) := by
  have ended : endsInWord (front.toList ++ ref.written) = false := by
    have closing : isWordChar '}' = false := by decide +kernel
    rw [ChunkRef.written, ← List.cons_append, ← List.cons_append, ← List.append_assoc,
      ends_in_word_concat, closing]
  have later := BodyPart.scan_scanned (front.toList ++ ref.written) behind.toList
  rw [ended] at later
  have mentioned : BodyPart.Scanned front.toList
      (.mention ref.written (.ok ref) :: BodyPart.ofText behind) :=
    .mention boundary (writable.written_reads _) later
  rw [← BodyPart.flat_map_printed_of_text front] at mentioned
  have parts := BodyPart.Scanned.append (BodyPart.of_text_scanned front) (of_text_closed closed)
    (fun c sign => by obtain rfl := Option.some.inj sign; decide) mentioned
  have whole : BodyPart.ofText (front ++ String.ofList ref.written ++ behind) =
      BodyPart.ofText front ++ .mention ref.written (.ok ref) :: BodyPart.ofText behind := by
    rw [← parts.scan_eq, List.flatMap_append, List.flatMap_cons,
      BodyPart.flat_map_printed_of_text, BodyPart.flat_map_printed_of_text, BodyPart.ofText]
    simp only [String.toList_append, String.toList_ofList, List.append_assoc]
    rfl
  have further := of_parts_moved (byteLength front.toList + byteLength ref.written) 0
    (BodyPart.ofText behind)
  rw [Nat.add_zero] at further
  rw [ofText, whole, of_parts_append, ofParts, BodyPart.flat_map_printed_of_text, Nat.zero_add,
    BodyPart.printed, further]
  rfl

/-- A reference with bindings is read back from its text: alone the text is one mention of it, and so
it is wherever the text stands. -/
theorem written_read_back {ref : ChunkRef} (writable : ref.IsWritable) :
    ofText (String.ofList ref.written) = [⟨.ok ref, 0, byteLength ref.written⟩] ∧
      ∀ front behind : String, endsInWord front.toList = false →
        (∀ located ∈ ofText front, located.parsed ≠ .error .unterminated) →
        ofText (front ++ String.ofList ref.written ++ behind) =
          ofText front ++ ⟨.ok ref, byteLength front.toList,
            byteLength front.toList + byteLength ref.written⟩ ::
            (ofText behind).map (moved (byteLength front.toList + byteLength ref.written)) := by
  refine ⟨?_, fun front behind boundary closed => of_text_around writable boundary closed behind⟩
  have alone := @of_text_around ref writable "" rfl (by simp [of_text_nil]) ""
  simpa [of_text_nil, byteLength] using alone

def nestedRef : ChunkRef :=
  ⟨"Face", [("Hair", "\x7bH[#0,1]\x7d"), ("Eye tone", "[a,\x7bB:c\x7d]")]⟩

theorem nested_read_back : nestedRef.IsWritable ∧
    ofText (String.ofList nestedRef.written) =
      [⟨.ok nestedRef, 0, byteLength nestedRef.written⟩] := by
  have writable : nestedRef.IsWritable := {
    named := by decide +kernel
    bound := List.cons_ne_nil _ _
    params := by decide +kernel
    values := by decide +kernel }
  exact ⟨writable, (written_read_back writable).1⟩

end LocatedMention

end PromptLoom
