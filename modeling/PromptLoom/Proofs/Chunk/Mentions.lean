import PromptLoom.Proofs.Chunk.Scanning
import PromptLoom.Proofs.Text.Cutting
import PromptLoom.Proofs.Text.Offsets

/-!
# Where chunks are mentioned

The mentions of a text, by byte offset. They can be looked for without scanning the text into parts,
from one sign to the next, with every text that is looked at cut out of the whole one: no cut goes
beyond the end or into a character, and the mentions are those among the parts.
-/

namespace PromptLoom

open Text

set_option autoImplicit false

namespace ChunkRef

theorem parse_binding_error {text : List Char} {problem : MentionError}
    (failed : parseBinding text = .error problem) :
    problem = .malformedBinding (String.ofList (trim text)) := by
  unfold parseBinding at failed
  split at failed
  · exact (Except.error.inj failed).symm
  · dsimp only at failed
    split at failed
    · exact (Except.error.inj failed).symm
    · cases failed

theorem parse_bindings_error {texts : List (List Char)} {problem : MentionError}
    (failed : parseBindings texts = .error problem) :
    ∃ text, problem = .malformedBinding text := by
  induction texts with
  | nil => cases failed
  | cons text rest ih =>
      rw [parseBindings] at failed
      rcases first : parseBinding text with problem | binding
      · rw [first] at failed
        obtain rfl := Except.error.inj failed
        exact ⟨_, parse_binding_error first⟩
      · rcases later : parseBindings rest with problem | bindings
        · rw [first, later] at failed
          obtain rfl := Except.error.inj failed
          exact ih later
        · rw [first, later] at failed
          cases failed

theorem parse_terminated (inside : List Char) : parse inside ≠ .error .unterminated := by
  intro failed
  unfold parse at failed
  extract_lets text at failed
  split at failed
  next name list divided =>
  split at failed
  · rcases read : parseBindings _ with problem | bindings
    · obtain ⟨text, rfl⟩ := parse_bindings_error read
      rw [read] at failed
      cases failed
    · rw [read] at failed
      cases failed
  · cases failed

end ChunkRef

namespace LocatedMention

def ofPlace (place : Place (List Char × Except MentionError ChunkRef)) : LocatedMention :=
  ⟨place.item.2, place.start, place.stop⟩

theorem of_parts_places (offset : Nat) (parts : List BodyPart) : ofParts offset parts =
    (places BodyPart.printed BodyPart.mentioned? offset parts).map ofPlace := by
  induction parts generalizing offset with
  | nil => rfl
  | cons part rest ih =>
      cases part with
      | char c => exact ih _
      | mention source parsed => exact congrArg (_ :: ·) (ih _)

theorem of_written_unterminated {after source : List Char} {parsed : Except MentionError ChunkRef}
    (written : BodyPart.Written after source parsed) (unclosed : parsed = .error .unterminated) :
    after = [] := by
  cases written with
  | bare ident longest => cases unclosed
  | braced balanced => cases ChunkRef.parse_terminated _ unclosed
  | unterminated last unclosed => exact last

theorem of_text_written {text : String} {located : LocatedMention} (member : located ∈ ofText text) :
    ∃ before source after, text.toList = before ++ (source ++ after) ∧
      byteLength before = located.start ∧ located.start + byteLength source = located.stop ∧
      endsInWord before = false ∧ BodyPart.Written after source located.parsed := by
  rw [ofText, of_parts_places] at member
  obtain ⟨⟨item, begins, ends⟩, among, rfl⟩ := List.mem_map.mp member
  obtain ⟨front, part, behind, parts, found, start, stop⟩ := mem_places.mp among
  have scanned := BodyPart.of_text_scanned text
  have whole := BodyPart.flat_map_printed_of_text text
  rw [parts] at scanned whole
  cases part with
  | char c => cases found
  | mention source parsed =>
      obtain ⟨boundary, written⟩ := scanned.mention_at
      rw [List.nil_append] at boundary
      obtain rfl : (source, parsed) = item := Option.some.inj found
      refine ⟨front.flatMap BodyPart.printed, source, behind.flatMap BodyPart.printed, ?_, ?_,
        stop.symm, boundary, written⟩
      · rw [← whole, List.flatMap_append, List.flatMap_cons]
        rfl
      · exact (start.trans (Nat.zero_add _)).symm

/-! ### Looking for mentions by byte offset -/

/-- What a sign at a byte offset begins, if it begins a mention, and the offset to look on from. Every
text that is looked at is cut out of the whole one, and a cut that fails leaves no answer. -/
def begun? (text : List Char) (sign : Nat) : Option (Option LocatedMention × Nat) :=
  match slice? text 0 sign, slice? text (sign + 1) (byteLength text) with
  | some before, some after =>
      if endsInWord before then some (none, sign + 1)
      else match after with
        | '{' :: inside =>
            match takeBraced 0 inside with
            | none => some (some ⟨.error .unterminated, sign, byteLength text⟩, byteLength text)
            | some (inner, _) =>
                let closing := 1 + byteLength inner
                let stop := sign + 1 + closing + 1
                (slice? after 1 closing).map fun written =>
                  (some ⟨ChunkRef.parse written, sign, stop⟩, stop)
        | _ =>
            match takeIdent after with
            | none => some (none, sign + 1)
            | some (name, _) =>
                let stop := sign + 1 + byteLength name
                some (some ⟨.ok ⟨String.ofList name, []⟩, sign, stop⟩, stop)
  | _, _ => none

theorem sign_within {text rest gap after : List Char} {start : Nat}
    (cut : slice? text start (byteLength text) = some rest)
    (found : cutAtChar '@' rest = some (gap, after)) : start < byteLength text := by
  obtain ⟨before, behind, same, begins, ends⟩ := slice_iff.mp cut
  obtain ⟨rfl, -⟩ := cut_at_char_eq_some.mp found
  have sign : Char.utf8Size '@' = 1 := rfl
  rw [byte_length_append, byteLength, sign] at ends
  omega

/-- The mentions from a byte offset on, looked for from one sign to the next. There is no answer if
the offset to look on from lies no further on. -/
def seek? (text : List Char) (start : Nat) : Option (List LocatedMention) :=
  match cut : slice? text start (byteLength text) with
  | none => none
  | some rest =>
      match found : cutAtChar '@' rest with
      | none => some []
      | some (gap, _) =>
          have := sign_within cut found
          match begun? text (start + byteLength gap) with
          | none => none
          | some (mention, next) =>
              if start < next then (seek? text next).map (mention.toList ++ ·) else none
termination_by byteLength text - start

theorem slice_behind (before text : List Char) :
    slice? (before ++ text) (byteLength before) (byteLength (before ++ text)) = some text :=
  slice_iff.mpr ⟨before, [], by simp, rfl, (byte_length_append before text).symm⟩

theorem slice_in_front (before text : List Char) :
    slice? (before ++ text) 0 (byteLength before) = some before :=
  slice_iff.mpr ⟨[], text, rfl, rfl, Nat.zero_add _⟩

theorem sign_size : byteLength ['@'] = 1 := rfl

theorem slice_behind_sign (before rest : List Char) : slice? (before ++ '@' :: rest)
    (byteLength before + 1) (byteLength (before ++ '@' :: rest)) = some rest := by
  rw [← sign_size, ← byte_length_append, List.append_cons]
  exact slice_behind _ rest

/-- What a sign begins by offsets is what a mention takes off the text. -/
theorem begun?_eq (before rest : List Char) :
    begun? (before ++ '@' :: rest) (byteLength before) =
      some (match if endsInWord before then none else BodyPart.mention? ('@' :: rest) with
        | some (.mention source parsed, _, _) =>
            (some ⟨parsed, byteLength before, byteLength before + byteLength source⟩,
              byteLength before + byteLength source)
        | _ => (none, byteLength before + 1)) := by
  rw [begun?, slice_in_front, slice_behind_sign]
  dsimp only
  split
  · rfl
  by_cases braced : ∃ inside, rest = '{' :: inside
  · obtain ⟨inside, rfl⟩ := braced
    rw [BodyPart.mention?_braced]
    rcases closed : takeBraced 0 inside with _ | ⟨inner, after⟩
    · simp only [closed, byte_length_append]
    · obtain rfl := take_braced_parts closed
      have written : slice? ('{' :: (inner ++ '}' :: after)) 1 (1 + byteLength inner) =
          some inner := slice_iff.mpr ⟨['{'], '}' :: after, rfl, rfl, rfl⟩
      have size : byteLength before + 1 + (1 + byteLength inner) + 1 =
          byteLength before + byteLength ('@' :: '{' :: (inner ++ ['}'])) := by
        have whole : byteLength ('@' :: '{' :: (inner ++ ['}'])) = 1 + (1 + byteLength inner + 1) :=
          byte_length_append ('@' :: '{' :: inner) ['}']
        omega
      simp only [closed, written, size, Option.map_some]
  · have bare : ∀ c ∈ rest.head?, c ≠ '{' := by
      rintro c first rfl
      exact braced (List.head?_eq_some_iff.mp first)
    rw [BodyPart.mention?_bare bare]
    split
    · next inside _ => cases bare '{' rfl rfl
    · rcases takeIdent rest with _ | ⟨name, after⟩
      · rfl
      · have size : byteLength before + 1 + byteLength name =
            byteLength before + byteLength ('@' :: name) := Nat.add_assoc ..
        simp only [size, Option.map_some]

theorem scan_plain {gap : List Char} (clear : '@' ∉ gap) (before rest : List Char) :
    BodyPart.scan (endsInWord before) (gap ++ rest) =
      gap.map BodyPart.char ++ BodyPart.scan (endsInWord (before ++ gap)) rest := by
  induction gap generalizing before with
  | nil => simp
  | cons c gap ih =>
      obtain ⟨other, clear⟩ := not_or.mp (mt List.mem_cons.mpr clear)
      rw [List.cons_append, BodyPart.scan_char fun _ => BodyPart.mention?_other (Ne.symm other) _,
        ← ends_in_word_concat before, ih clear, List.append_assoc]
      rfl

theorem of_parts_characters (offset : Nat) (gap : List Char) (parts : List BodyPart) :
    ofParts offset (gap.map BodyPart.char ++ parts) =
      ofParts (offset + byteLength gap) parts := by
  induction gap generalizing offset with
  | nil => rfl
  | cons c gap ih =>
      have next : ofParts offset ((c :: gap).map BodyPart.char ++ parts) =
          ofParts (offset + byteLength [c]) (gap.map BodyPart.char ++ parts) := rfl
      rw [next, ih, Nat.add_assoc, ← byte_length_append]
      rfl

/-- Looking for mentions by offset never cuts a text beyond its end or within a character, always
goes on further on, and finds the mentions among the parts. -/
theorem seek?_eq (before text : List Char) : seek? (before ++ text) (byteLength before) =
    some (ofParts (byteLength before) (BodyPart.scan (endsInWord before) text)) := by
  -- the induction is on the text behind the offset: a sign that begins nothing is a character more,
  -- and a mention ends before the rest
  induction size : text.length using Nat.strongRecOn generalizing before text with
  | ind bound ih =>
      rw [seek?]
      split
      · next failed => cases failed.symm.trans (slice_behind before text)
      next rest cut =>
      obtain rfl : text = rest := Option.some.inj ((slice_behind before text).symm.trans cut)
      split
      · next none =>
          have clear : '@' ∉ text := by
            intro member
            obtain ⟨gap, tail, rfl, clear⟩ := List.eq_append_cons_of_mem member
            cases none.symm.trans (cut_at_char_eq_some.mpr ⟨rfl, clear⟩)
          have scanned := scan_plain clear before []
          rw [List.append_nil, BodyPart.scan] at scanned
          rw [scanned, of_parts_characters]
          rfl
      next gap tail found =>
      obtain ⟨rfl, clear⟩ := cut_at_char_eq_some.mp found
      have shorter : tail.length < bound := by
        simp only [List.length_append, List.length_cons] at size
        omega
      have onward : byteLength before ≤ byteLength (before ++ gap) := by
        rw [byte_length_append]
        exact Nat.le_add_right ..
      rw [scan_plain clear, of_parts_characters]
      dsimp only
      rw [← byte_length_append, ← List.append_assoc, begun?_eq]
      generalize before ++ gap = here at onward
      by_cases plain : endsInWord here = false → BodyPart.mention? ('@' :: tail) = none
      · have nothing : (if endsInWord here then none else BodyPart.mention? ('@' :: tail)) =
            none := by
          split
          · rfl
          · next boundary => exact plain (Bool.eq_false_iff.mpr boundary)
        have later := ih tail.length shorter (here ++ ['@']) tail rfl
        rw [byte_length_append, sign_size, ends_in_word_concat, List.append_assoc] at later
        rw [nothing, BodyPart.scan_char plain]
        dsimp only
        rw [if_pos (Nat.lt_succ_of_le onward)]
        exact congrArg (Option.map _) later
      · obtain ⟨boundary, begins⟩ := Classical.not_imp.mp plain
        obtain ⟨⟨part, inWord, after⟩, taken⟩ := Option.ne_none_iff_exists'.mp begins
        obtain ⟨whole, fewer⟩ := BodyPart.mention?_append taken
        obtain ⟨source, parsed, rfl, written, continued⟩ := BodyPart.mention?_written taken
        have begun : (if endsInWord here then none else BodyPart.mention? ('@' :: tail)) =
            some (.mention source parsed, inWord, after) := by
          rw [if_neg (Bool.eq_false_iff.mp boundary), taken]
        have within : after.length < bound := Nat.lt_of_lt_of_le fewer shorter
        have later := ih after.length within (here ++ source) after rfl
        rw [List.append_assoc, ← continued here, byte_length_append] at later
        rw [begun, boundary, BodyPart.scan_mention taken, show '@' :: tail = _ from whole]
        have forward : byteLength before < byteLength here + byteLength source := by
          have some := written.some
          omega
        dsimp only
        rw [if_pos forward]
        exact congrArg (Option.map _) later

/-! ### The mentions of a text -/

theorem of_text_unterminated {text : String} {located : LocatedMention}
    (member : located ∈ ofText text) (unclosed : located.parsed = .error .unterminated) :
    located.stop = byteLength text.toList := by
  obtain ⟨before, source, after, whole, start, stop, -, written⟩ := of_text_written member
  obtain rfl := of_written_unterminated written unclosed
  rw [whole, List.append_nil, byte_length_append, start, stop]

theorem of_text_apart (text : String) :
    (ofText text).Pairwise fun one other => one.stop ≤ other.start := by
  rw [ofText, of_parts_places, List.pairwise_map]
  exact places_apart

theorem of_text_some {text : String} {located : LocatedMention} (member : located ∈ ofText text) :
    located.start < located.stop := by
  obtain ⟨_, _, _, _, _, stop, _, written⟩ := of_text_written member
  have some := written.some
  omega

theorem of_text_within {text : String} {located : LocatedMention} (member : located ∈ ofText text) :
    located.stop ≤ byteLength text.toList := by
  obtain ⟨before, source, after, whole, start, stop, -, -⟩ := of_text_written member
  rw [whole, byte_length_append, byte_length_append, start]
  omega

theorem of_text_last {text : String} {located : LocatedMention} (member : located ∈ ofText text)
    (unclosed : located.parsed = .error .unterminated) : located ∉ (ofText text).dropLast := by
  intro early
  have apart := of_text_apart text
  have others := List.ne_nil_of_mem member
  have last := List.getLast_mem others
  rw [← List.dropLast_append_getLast others, List.pairwise_append] at apart
  have behind := apart.2.2 located early _ (.head _)
  have stops := of_text_unterminated member unclosed
  have some := of_text_some last
  have within := of_text_within last
  omega

theorem of_text_complete {text : String} {before after : List Char}
    (whole : text.toList = before ++ '@' :: after) (boundary : endsInWord before = false)
    (outside : ∀ located ∈ ofText text,
      byteLength before < located.start ∨ located.stop ≤ byteLength before) :
    BeginsNothing after := by
  rw [← BodyPart.flat_map_printed_of_text] at whole
  rcases part_or_place BodyPart.mentioned? 0 whole with
    ⟨front, part, behind, left, right, parts, free, printing, rfl, rfl⟩ | ⟨place, among, start, stop⟩
  · cases part with
    | mention source parsed => cases free
    | char c =>
        rcases List.singleton_eq_append_iff.mp printing with ⟨rfl, same⟩ | ⟨-, more⟩
        · obtain ⟨rfl, rfl⟩ := List.cons_eq_cons.mp same
          have scanned := BodyPart.of_text_scanned text
          rw [parts] at scanned
          rw [List.append_nil] at boundary
          exact scanned.sign_at boundary
        · cases more
  · have member : ofPlace place ∈ ofText text := by
      rw [ofText, of_parts_places]
      exact List.mem_map_of_mem among
    have apart : byteLength before < place.start ∨ place.stop ≤ byteLength before :=
      outside _ member
    omega

/-- The mentions of a text: looking for them by byte offset goes through, they stand apart, each is
written where no word goes on, only the last may be left open, and with what stands between them they
make up the text; and no other sign begins one. -/
theorem of_text_partition (text : String) :
    seek? text.toList 0 = some (ofText text) ∧
      (ofText text).Pairwise (fun one other => one.stop ≤ other.start) ∧
      (∀ located ∈ ofText text, located.start < located.stop ∧
        ∃ before source after, text.toList = before ++ (source ++ after) ∧
          byteLength before = located.start ∧ located.start + byteLength source = located.stop ∧
          endsInWord before = false ∧ BodyPart.Written after source located.parsed) ∧
      (∀ located ∈ ofText text, located.parsed = .error .unterminated →
        located.stop = byteLength text.toList ∧ located ∉ (ofText text).dropLast) ∧
      (∃ spans, ofText text = spans.map ofPlace ∧
        spliced? text.toList (·.1) 0 spans = some text.toList) ∧
      ∀ before after, text.toList = before ++ '@' :: after → endsInWord before = false →
        (∀ located ∈ ofText text,
          byteLength before < located.start ∨ located.stop ≤ byteLength before) →
        ∀ c ∈ after.head?, c ≠ '{' ∧ isIdentStart c = false := by
  refine ⟨seek?_eq [] text.toList, of_text_apart text,
    fun located member => ⟨of_text_some member, of_text_written member⟩, ?_, ?_,
    fun before after => of_text_complete⟩
  · intro located member unclosed
    exact ⟨of_text_unterminated member unclosed, of_text_last member unclosed⟩
  · have kept : ∀ part ∈ BodyPart.ofText text, ∀ item ∈ part.mentioned?,
        item.1 = part.printed := by
      rintro (c | ⟨source, parsed⟩) - item ⟨⟩
      rfl
    have back := spliced_back kept
    rw [BodyPart.flat_map_printed_of_text] at back
    exact ⟨_, of_parts_places 0 _, back⟩

end LocatedMention

end PromptLoom
