import PromptLoom.Chunk.Mention
import PromptLoom.Proofs.Text.Balance
import PromptLoom.Proofs.Text.Placeholders

/-!
# Scanning a body for mentions

A mention begins with a sign that does not continue a word. It is a sign and the longest identifier
behind it, or a sign and a text in balanced braces, or a sign, an opening brace that never closes and
all the rest. A body is scanned into such mentions and characters, and no sign left among the
characters could begin another mention. Only one list of parts of a text is like this, and the parts
of two texts in a row are those of each, where the first leaves no mention open.
-/

namespace PromptLoom

open Text

set_option autoImplicit false

theorem take_braced_iff {depth : Nat} {text inner after : List Char} :
    takeBraced depth text = some (inner, after) ↔
      text = inner ++ '}' :: after ∧ Settles depth inner := by
  constructor
  · intro found
    refine ⟨take_braced_parts found, ?_⟩
    fun_induction takeBraced depth text generalizing inner after with
    | case1 => cases found
    | case2 rest =>
        obtain ⟨rfl, rfl⟩ := Prod.mk.inj (Option.some.inj found)
        exact settles_nil.mpr rfl
    | case3 rest outer ih =>
        obtain ⟨⟨i, a⟩, deeper, same⟩ := Option.map_eq_some_iff.mp found
        obtain ⟨rfl, rfl⟩ := Prod.mk.inj same
        exact settles_close.mpr ⟨outer, rfl, ih deeper⟩
    | case4 depth rest ih =>
        obtain ⟨⟨i, a⟩, deeper, same⟩ := Option.map_eq_some_iff.mp found
        obtain ⟨rfl, rfl⟩ := Prod.mk.inj same
        exact settles_open.mpr (ih deeper)
    | case5 depth c rest closing opening ih =>
        obtain ⟨⟨i, a⟩, deeper, same⟩ := Option.map_eq_some_iff.mp found
        obtain ⟨rfl, rfl⟩ := Prod.mk.inj same
        exact (settles_other opening closing).mpr (ih deeper)
  · rintro ⟨rfl, settles⟩
    induction inner generalizing depth with
    | nil =>
        obtain rfl := settles_nil.mp settles
        rfl
    | cons c rest ih =>
        by_cases closing : c = '}'
        · subst closing
          obtain ⟨outer, rfl, later⟩ := settles_close.mp settles
          rw [List.cons_append, takeBraced, ih later, Option.map_some]
        · by_cases opening : c = '{'
          · subst opening
            rw [List.cons_append, takeBraced, ih (settles_open.mp settles), Option.map_some]
          · rw [List.cons_append, takeBraced, ih ((settles_other opening closing).mp settles),
              Option.map_some]
            · exact closing
            · exact opening

/-- What may stand behind a sign where no mention begins. -/
def Text.BeginsNothing (after : List Char) : Prop :=
  ∀ c ∈ after.head?, c ≠ '{' ∧ isIdentStart c = false

namespace BodyPart

/-- A mention as it is written before the rest of a text, and what it says. -/
inductive Written (after : List Char) : List Char → Except MentionError ChunkRef → Prop where
  | bare {name : List Char} (ident : isIdent name = true)
      (longest : ∀ c ∈ after.head?, isIdentRest c = false) :
      Written after ('@' :: name) (.ok ⟨String.ofList name, []⟩)
  | braced {inside : List Char} (balanced : BraceBalanced inside) :
      Written after ('@' :: '{' :: (inside ++ ['}'])) (ChunkRef.parse inside)
  | unterminated {rest : List Char} (last : after = [])
      (unclosed : ∀ inside behind, rest = inside ++ '}' :: behind → ¬ BraceBalanced inside) :
      Written after ('@' :: '{' :: rest) (.error .unterminated)

theorem mention?_other {c : Char} (other : c ≠ '@') (rest : List Char) :
    mention? (c :: rest) = none := by
  unfold mention?
  split
  · next same => cases other (List.cons_eq_cons.mp same).1
  · next same => cases other (List.cons_eq_cons.mp same).1
  · rfl

theorem mention?_braced (inside : List Char) : mention? ('@' :: '{' :: inside) =
    match takeBraced 0 inside with
    | none => some (.mention ('@' :: '{' :: inside) (.error .unterminated), false, [])
    | some (inner, after) =>
        some (.mention ('@' :: '{' :: (inner ++ ['}'])) (ChunkRef.parse inner), false, after) :=
  rfl

theorem mention?_bare {rest : List Char} (bare : ∀ c ∈ rest.head?, c ≠ '{') :
    mention? ('@' :: rest) = (takeIdent rest).map fun (name, after) =>
      (.mention ('@' :: name) (.ok ⟨String.ofList name, []⟩), true, after) := by
  unfold mention?
  split
  · next inside same =>
      obtain rfl := (List.cons_eq_cons.mp same).2
      cases bare '{' rfl rfl
  · next tail _ same =>
      obtain rfl := (List.cons_eq_cons.mp same).2
      rfl
  · next other => cases other rest rfl

theorem mention?_none {rest : List Char} (none : mention? ('@' :: rest) = none) :
    BeginsNothing rest := by
  intro c first
  obtain ⟨tail, rfl⟩ : ∃ tail, rest = c :: tail := List.head?_eq_some_iff.mp first
  have notBrace : c ≠ '{' := by
    rintro rfl
    rw [mention?_braced] at none
    split at none
    · cases none
    · cases none
  refine ⟨notBrace, ?_⟩
  rw [mention?_bare (fun d head => by obtain rfl := Option.some.inj head; exact notBrace)] at none
  have unnamed := Option.map_eq_none_iff.mp none
  rw [takeIdent] at unnamed
  split at unnamed
  · cases unnamed
  · next start => simpa using start

/-- A mention that is found is written there, and what follows is scanned as behind its text. -/
theorem mention?_written {rest after : List Char} {part : BodyPart} {inWord : Bool}
    (found : mention? ('@' :: rest) = some (part, inWord, after)) :
    ∃ source parsed, part = .mention source parsed ∧ Written after source parsed ∧
      ∀ before, scan inWord after = scan (endsInWord (before ++ source)) after := by
  by_cases braced : ∃ inside, rest = '{' :: inside
  · obtain ⟨inside, rfl⟩ := braced
    rw [mention?_braced] at found
    split at found
    · next open_ =>
        obtain ⟨rfl, same⟩ := Prod.mk.inj (Option.some.inj found)
        obtain ⟨-, rfl⟩ := Prod.mk.inj same
        refine ⟨_, _, rfl, .unterminated rfl ?_, fun before => by rw [scan, scan]⟩
        rintro inside behind rfl balanced
        cases open_.symm.trans (take_braced_iff.mpr ⟨rfl, settles_zero.mpr balanced⟩)
    · next inner behind closed =>
        obtain ⟨rfl, same⟩ := Prod.mk.inj (Option.some.inj found)
        obtain ⟨rfl, rfl⟩ := Prod.mk.inj same
        refine ⟨_, _, rfl, .braced (settles_zero.mp (take_braced_iff.mp closed).2), ?_⟩
        intro before
        have ended : before ++ '@' :: '{' :: (inner ++ ['}']) =
            before ++ '@' :: '{' :: inner ++ ['}'] := by simp
        have closing : isWordChar '}' = false := by decide +kernel
        rw [ended, ends_in_word_concat, closing]
  · have bare : ∀ c ∈ rest.head?, c ≠ '{' := by
      rintro c first rfl
      exact braced (List.head?_eq_some_iff.mp first)
    rw [mention?_bare bare] at found
    obtain ⟨⟨name, behind⟩, named, same⟩ := Option.map_eq_some_iff.mp found
    obtain ⟨rfl, rest⟩ := Prod.mk.inj same
    obtain ⟨rfl, rfl⟩ := Prod.mk.inj rest
    obtain ⟨rfl, ident, longest⟩ := take_ident_iff.mp named
    refine ⟨_, _, rfl, .bare ident longest, fun before => ?_⟩
    rw [List.append_cons, ends_in_word_ident ident]

/-- The parts of a text behind another: every mention stands where no word goes on, and no sign left
over could begin one. -/
inductive Scanned : List Char → List BodyPart → Prop where
  | done {before : List Char} : Scanned before []
  | char {before : List Char} {c : Char} {rest : List BodyPart}
      (plain : c = '@' → endsInWord before = false → BeginsNothing (rest.flatMap printed))
      (others : Scanned (before ++ [c]) rest) : Scanned before (.char c :: rest)
  | mention {before source : List Char} {parsed : Except MentionError ChunkRef}
      {rest : List BodyPart} (boundary : endsInWord before = false)
      (written : Written (rest.flatMap printed) source parsed)
      (others : Scanned (before ++ source) rest) : Scanned before (.mention source parsed :: rest)

theorem scan_mention {text after : List Char} {part : BodyPart} {inWord : Bool}
    (found : mention? text = some (part, inWord, after)) :
    scan false text = part :: scan inWord after := by
  cases text with
  | nil => cases found
  | cons c rest =>
      rw [scan]
      split
      · next other =>
          obtain ⟨rfl, same⟩ := Prod.mk.inj (Option.some.inj (other.symm.trans found))
          obtain ⟨rfl, rfl⟩ := Prod.mk.inj same
          rfl
      · next none => cases none.symm.trans found

theorem scan_char {afterWord : Bool} {c : Char} {rest : List Char}
    (none : afterWord = false → mention? (c :: rest) = none) :
    scan afterWord (c :: rest) = .char c :: scan (isWordChar c) rest := by
  rw [scan]
  split
  · next found =>
      split at found
      · cases found
      · next boundary => cases (none (Bool.eq_false_iff.mpr boundary)).symm.trans found
  · rfl

theorem scan_scanned (before text : List Char) :
    Scanned before (scan (endsInWord before) text) := by
  induction size : text.length using Nat.strongRecOn generalizing before text with
  | ind bound ih =>
      cases text with
      | nil =>
          rw [scan]
          exact .done
      | cons c rest =>
          by_cases plain : endsInWord before = false → mention? (c :: rest) = none
          · rw [scan_char plain]
            refine .char ?_ ?_
            · rintro rfl boundary
              rw [flat_map_printed_scan]
              exact mention?_none (plain boundary)
            · rw [← ends_in_word_concat before]
              exact ih rest.length (by simp [← size]) _ rest rfl
          · obtain ⟨boundary, begins⟩ := Classical.not_imp.mp plain
            obtain ⟨⟨part, inWord, after⟩, found⟩ := Option.ne_none_iff_exists'.mp begins
            obtain rfl : c = '@' := by
              by_contra other
              exact begins (mention?_other other rest)
            have shorter := (mention?_append found).2
            obtain ⟨source, parsed, rfl, written, continued⟩ := mention?_written found
            rw [boundary, scan_mention found]
            refine .mention boundary ?_ ?_
            · rwa [flat_map_printed_scan]
            · rw [continued before]
              exact ih after.length (size ▸ shorter) _ after rfl

theorem of_text_scanned (text : String) : Scanned [] (ofText text) :=
  scan_scanned [] text.toList

theorem flat_map_printed_of_text (text : String) : (ofText text).flatMap printed = text.toList :=
  flat_map_printed_scan false text.toList

namespace Scanned

variable {before : List Char} {front behind : List BodyPart}

theorem drop_front (scanned : Scanned before (front ++ behind)) :
    Scanned (before ++ front.flatMap printed) behind := by
  induction front generalizing before with
  | nil => simpa using scanned
  | cons part rest ih =>
      rw [List.flatMap_cons, ← List.append_assoc]
      cases scanned with
      | char plain others => exact ih others
      | mention boundary written others => exact ih others

theorem mention_at {source : List Char} {parsed : Except MentionError ChunkRef}
    (scanned : Scanned before (front ++ .mention source parsed :: behind)) :
    endsInWord (before ++ front.flatMap printed) = false ∧
      Written (behind.flatMap printed) source parsed := by
  cases scanned.drop_front with
  | mention boundary written others => exact ⟨boundary, written⟩

theorem sign_at (scanned : Scanned before (front ++ .char '@' :: behind))
    (boundary : endsInWord (before ++ front.flatMap printed) = false) :
    BeginsNothing (behind.flatMap printed) := by
  cases scanned.drop_front with
  | char plain others => exact plain rfl boundary

end Scanned

/-! ### Texts in a row -/

section Rows

variable {before after source : List Char} {parsed : Except MentionError ChunkRef}

theorem mention?_of_written (written : Written after source parsed) :
    ∃ inWord, mention? (source ++ after) = some (.mention source parsed, inWord, after) := by
  cases written with
  | @bare name ident longest =>
      have taken := take_ident_iff.mpr ⟨rfl, ident, longest⟩
      refine ⟨true, ?_⟩
      rw [List.cons_append, mention?_bare, taken]
      · rfl
      · intro c first
        rcases name with _ | ⟨d, name⟩
        · cases ident
        · obtain rfl := Option.some.inj first
          obtain ⟨start, -⟩ := Bool.and_eq_true_iff.mp ident
          rintro rfl
          cases start
  | @braced inside balanced =>
      have closed : takeBraced 0 (inside ++ '}' :: after) = some (inside, after) :=
        take_braced_iff.mpr ⟨rfl, settles_zero.mpr balanced⟩
      refine ⟨false, ?_⟩
      rw [List.cons_append, List.cons_append, List.append_assoc, List.singleton_append,
        mention?_braced, closed]
  | @unterminated rest last unclosed =>
      obtain rfl := last
      refine ⟨false, ?_⟩
      rw [List.append_nil, mention?_braced]
      split
      · rfl
      · next inner behind closed =>
          obtain ⟨whole, settles⟩ := take_braced_iff.mp closed
          cases unclosed inner behind whole (settles_zero.mp settles)

theorem mention?_nothing {rest : List Char} (nothing : BeginsNothing rest) :
    mention? ('@' :: rest) = none := by
  rw [mention?_bare fun c first => (nothing c first).1, Option.map_eq_none_iff]
  cases rest with
  | nil => rfl
  | cons c rest => rw [takeIdent, if_neg (by simp [(nothing c rfl).2])]

namespace Scanned

/-- Only one list of parts is a scan of its text. -/
theorem scan_eq {parts : List BodyPart} (scanned : Scanned before parts) :
    scan (endsInWord before) (parts.flatMap printed) = parts := by
  induction scanned with
  | done =>
      rw [List.flatMap_nil, scan]
  | @char before c rest plain others ih =>
      have nothing : endsInWord before = false → mention? (c :: rest.flatMap printed) = none := by
        intro boundary
        by_cases sign : c = '@'
        · subst sign
          exact mention?_nothing (plain rfl boundary)
        · exact mention?_other sign _
      rw [ends_in_word_concat] at ih
      rw [List.flatMap_cons]
      exact (scan_char nothing).trans (congrArg (_ :: ·) ih)
  | @mention before source parsed rest boundary written others ih =>
      obtain ⟨inWord, found⟩ := mention?_of_written written
      have sign : ∃ tail, source ++ rest.flatMap printed = '@' :: tail := by
        cases written <;> exact ⟨_, rfl⟩
      obtain ⟨tail, begins⟩ := sign
      have continued : scan inWord (rest.flatMap printed) =
          scan (endsInWord (before ++ source)) (rest.flatMap printed) := by
        rw [begins] at found
        obtain ⟨_, _, same, -, continued⟩ := mention?_written found
        obtain ⟨rfl, rfl⟩ := BodyPart.mention.inj same
        exact continued before
      rw [List.flatMap_cons, boundary]
      exact (scan_mention found).trans (congrArg (_ :: ·) (continued.trans ih))

/-- Parts of two texts in a row are parts of the whole, if no mention of the first is left open and
the second goes on with nothing that the first could end in. -/
theorem append {front behind : List BodyPart} (first : Scanned before front)
    (closed : ∀ source, .mention source (.error .unterminated) ∉ front)
    (apart : ∀ c ∈ (behind.flatMap printed).head?, c ≠ '{' ∧ isIdentRest c = false)
    (second : Scanned (before ++ front.flatMap printed) behind) :
    Scanned before (front ++ behind) := by
  have onward (rest : List BodyPart) {c : Char}
      (head : c ∈ ((rest ++ behind).flatMap printed).head?) :
      c ∈ (rest.flatMap printed).head? ∨ c ≠ '{' ∧ isIdentRest c = false := by
    rw [List.flatMap_append, List.head?_append, Option.mem_def, Option.or_eq_some_iff] at head
    exact head.imp id fun later => apart c later.2
  induction first with
  | done => simpa using second
  | @char before c rest plain others ih =>
      rw [List.flatMap_cons, ← List.append_assoc] at second
      refine .char (fun sign boundary d head => ?_) (ih ?_ second)
      · rcases onward rest head with inside | ⟨brace, word⟩
        · exact plain sign boundary d inside
        · exact ⟨brace, (Bool.or_eq_false_iff.mp word).1⟩
      · exact fun source member => closed source (List.mem_cons_of_mem _ member)
  | @mention before source parsed rest boundary written others ih =>
      rw [List.flatMap_cons, ← List.append_assoc] at second
      refine .mention boundary ?_ (ih ?_ second)
      · cases written with
        | bare ident longest =>
            refine .bare ident fun c head => ?_
            rcases onward rest head with inside | ⟨-, word⟩
            · exact longest c inside
            · exact word
        | braced balanced => exact .braced balanced
        | unterminated last unclosed => cases closed _ (List.mem_cons_self ..)
      · exact fun source member => closed source (List.mem_cons_of_mem _ member)

end Scanned

end Rows

def mentioned? : BodyPart → Option (List Char × Except MentionError ChunkRef)
  | char _ => none
  | mention source parsed => some (source, parsed)

theorem Written.some {after source : List Char} {parsed : Except MentionError ChunkRef}
    (written : Written after source parsed) : 0 < byteLength source := by
  have sign := Char.utf8Size_pos '@'
  cases written
  all_goals
    rw [byteLength]
    omega

end BodyPart

end PromptLoom
