import PromptLoom.Proofs.Text.Idempotence
import PromptLoom.Proofs.Text.Occurrences

/-!
# How a finished text looks

Laying out a text keeps its contents in their order and leaves no blank and no mark where none
belongs. The parts of a finished line show where its marks stand: behind the first part each one is
a space and a piece of content, and only the last one may be missing. What is said of several lines
at once follows from the tokens of the text, which are settled.
-/

namespace PromptLoom.Text.Layout

set_option autoImplicit false

variable {mark line : List Char} {list : List Token}

/-! ### Marks on a line -/

/-- No two separators stand side by side. -/
def Single (list : List Token) : Prop :=
  List.IsChain (fun token next => ¬ (token = .separator ∧ next = .separator)) list

theorem Settled.single {afterContent : Bool} (settled : Settled afterContent list) :
    Single list := by
  induction list generalizing afterContent with
  | nil => exact .nil
  | cons token rest ih =>
      cases token with
      | content text => exact List.isChain_cons.mpr ⟨fun _ _ both => (nomatch both.1), ih settled⟩
      | newline => exact List.isChain_cons.mpr ⟨fun _ _ both => (nomatch both.1), ih settled⟩
      | separator =>
          refine List.isChain_cons.mpr ⟨?_, ih settled.2.2⟩
          intro next follows both
          cases rest with
          | nil => cases follows
          | cons token rest =>
              obtain rfl : token = .separator := (Option.some.inj follows).trans both.2
              cases settled.2.2.1

/-- What stands behind the first part of a line: each part is a space and a piece of content, but
the last one may be missing. -/
def SetParts (mark : List Char) : List (List Char) → Prop
  | [] => True
  | part :: parts =>
      (part = [] ∧ parts = [] ∨ ∃ piece, Piece mark piece ∧ part = ' ' :: piece) ∧
        SetParts mark parts

theorem SetParts.behind {parts more : List (List Char)} (set : SetParts mark (parts ++ more)) :
    SetParts mark more := by
  induction parts with
  | nil => exact set
  | cons part parts ih => exact ih set.2

theorem cut_line_free (free : mark ≠ [] → ¬ mark <:+: line) : cutLine mark line = [line] := by
  cases mark with
  | nil => rfl
  | cons first others => exact split_at_word_free (free (List.cons_ne_nil first others))

theorem cut_line_around (unbordered : Unbordered mark) (some : mark ≠ [])
    (before after : List Char) :
    cutLine mark (before ++ (mark ++ after)) = cutLine mark before ++ cutLine mark after := by
  cases mark with
  | nil => exact absurd rfl some
  | cons first others => exact unbordered.cut_around before after

theorem cut_line_space (bare : Bare mark) (some : mark ≠ []) (line : List Char) :
    cutLine mark (' ' :: line) = (cutLine mark line).modifyHead (List.cons ' ') := by
  cases mark with
  | nil => exact absurd rfl some
  | cons first others =>
      apply split_at_word_cons
      intro start
      have blank := bare.1 first rfl
      rw [(List.cons_prefix_cons.mp start).1] at blank
      cases blank

theorem cut_line_ne_nil (mark line : List Char) : cutLine mark line ≠ [] := by
  cases mark with
  | nil => exact List.cons_ne_nil line []
  | cons first others => exact split_at_word_ne_nil first others line

theorem join_cut_line (some : mark ≠ []) (line : List Char) :
    join mark (cutLine mark line) = line := by
  cases mark with
  | nil => exact absurd rfl some
  | cons first others => exact join_split_at_word first others line

theorem cut_set_line (unbordered : Unbordered mark) (bare : Bare mark) (some : mark ≠ [])
    {text : List Char} (free : mark ≠ [] → ¬ mark <:+: text) : ∀ line : List Token,
    WellSet mark line → Single line → (∀ token ∈ line.head?, token.isContent = false) →
    ∃ parts, cutLine mark (text ++ setLine mark line) = text :: parts ∧ SetParts mark parts
  | [], _, _, _ => ⟨[], by rw [setLine, List.append_nil, cut_line_free free], trivial⟩
  | .content _ :: _, _, _, start => Bool.noConfusion (start _ rfl)
  | .newline :: _, well, _, _ => absurd (List.mem_cons_self ..) well.one_line
  | [.separator], _, _, _ => by
      refine ⟨[[]], ?_, .inl ⟨rfl, rfl⟩, trivial⟩
      rw [setLine, setLine, cut_line_around unbordered some, cut_line_free free,
        cut_line_free nowhere, List.singleton_append]
      intro _ _ wrong
      cases wrong
  | .separator :: .separator :: _, _, single, _ =>
      absurd ⟨rfl, rfl⟩ ((List.isChain_cons.mp single).1 _ rfl)
  | .separator :: .newline :: _, well, _, _ => absurd (List.mem_cons_self ..) well.tail.one_line
  -- The induction takes a separator and the content behind it at a time.
  | .separator :: .content next :: rest, well, single, _ => by
      have piece : Piece mark next := well.tail.proper (.content next) (List.mem_cons_self ..)
      obtain ⟨parts, cut, set⟩ := cut_set_line unbordered bare some piece.free rest well.tail.tail
        (List.isChain_cons.mp (List.isChain_cons.mp single).2).2 well.tail.behind_content
      refine ⟨(' ' :: next) :: parts, ?_, .inr ⟨next, piece, rfl⟩, set⟩
      rw [setLine, setLine, cut_line_around unbordered some, cut_line_free free,
        cut_line_space bare some, cut, List.modifyHead_cons, List.singleton_append]

/-- The parts of a line that is set: content or nothing, and then what stands behind the marks. -/
theorem cut_line_set (unbordered : Unbordered mark) (bare : Bare mark) (some : mark ≠ [])
    {line : List Token} (well : WellSet mark line) (single : Single line) :
    ∃ lead parts, cutLine mark (setLine mark line) = lead :: parts ∧
      (lead = [] ∨ Piece mark lead) ∧ SetParts mark parts := by
  rcases line with _ | ⟨text | _ | _, rest⟩
  · exact ⟨[], [], cut_line_free nowhere, .inl rfl, trivial⟩
  · have piece : Piece mark text := well.proper (.content text) (List.mem_cons_self ..)
    obtain ⟨parts, cut, set⟩ := cut_set_line unbordered bare some piece.free rest well.tail
      (List.isChain_cons.mp single).2 well.behind_content
    exact ⟨text, parts, cut, .inr piece, set⟩
  · obtain ⟨parts, cut, set⟩ := cut_set_line unbordered bare some nowhere (.separator :: rest) well
      single (by simp [Token.isContent])
    exact ⟨[], parts, cut, .inl rfl, set⟩
  · exact absurd (List.mem_cons_self ..) well.one_line

/-- A mark stands directly behind content, or at the start of its line. The content reaches back to
the start of the line, or to a mark and the one space behind it. -/
def FollowsContent (mark before : List Char) : Prop :=
  before = [] ∨ ∃ front piece, before = front ++ piece ∧ Piece mark piece ∧
    (front = [] ∨ mark ++ [' '] <:+ front)

/-- A mark stands before one space and content, or at the end of its line. The content reaches to
the end of the line or to a mark. -/
def PrecedesContent (mark after : List Char) : Prop :=
  after = [] ∨ ∃ piece rest, after = ' ' :: (piece ++ rest) ∧ Piece mark piece ∧
    (rest = [] ∨ mark <+: rest)

theorem SetParts.precedes {parts : List (List Char)} (set : SetParts mark parts) :
    PrecedesContent mark (join mark parts) := by
  cases parts with
  | nil => exact .inl rfl
  | cons part more =>
      rcases set.1 with ⟨rfl, rfl⟩ | ⟨piece, content, rfl⟩
      · exact .inl rfl
      · right
        cases more with
        | nil => exact ⟨piece, [], by rw [join, List.append_nil], content, .inl rfl⟩
        | cons next more =>
            refine ⟨piece, mark ++ join mark (next :: more), ?_, content, .inr ?_⟩
            · rw [join, List.append_assoc, List.cons_append]
            · exact List.prefix_append ..

theorem join_concat {glue part : List Char} {parts : List (List Char)} (some : parts ≠ []) :
    join glue (parts ++ [part]) = join glue parts ++ glue ++ part := by
  fun_induction join glue parts with
  | case1 => exact absurd rfl some
  | case2 first => rfl
  | case3 first next parts ih =>
      have longer := ih (List.cons_ne_nil next parts)
      simp only [List.cons_append, join, List.append_assoc] at longer ⊢
      rw [longer]

theorem marks_of_parts (unbordered : Unbordered mark) (some : mark ≠ []) {lead : List Char}
    {parts : List (List Char)} {before after : List Char}
    (cut : cutLine mark (before ++ (mark ++ after)) = lead :: parts)
    (start : lead = [] ∨ Piece mark lead) (set : SetParts mark parts) :
    FollowsContent mark before ∧ PrecedesContent mark after := by
  rw [cut_line_around unbordered some] at cut
  obtain ⟨front, last, ends⟩ := (List.eq_nil_or_concat' _).resolve_left
    (cut_line_ne_nil mark before)
  have beforeText := join_cut_line some before
  have afterText := join_cut_line some after
  rw [ends] at cut beforeText
  rw [List.append_assoc] at cut
  cases front with
  | nil =>
      obtain ⟨rfl, rfl⟩ := List.cons.inj cut
      rw [← afterText]
      refine ⟨?_, set.precedes⟩
      obtain rfl : last = before := beforeText
      exact start.imp id fun piece => ⟨[], last, rfl, piece, .inl rfl⟩
  | cons first front =>
      obtain ⟨rfl, rfl⟩ := List.cons.inj cut
      have behind := set.behind
      rw [← afterText]
      refine ⟨?_, behind.2.precedes⟩
      rcases behind.1 with ⟨-, none⟩ | ⟨piece, content, rfl⟩
      · exact absurd none (cut_line_ne_nil mark after)
      · right
        rw [← beforeText, join_concat (List.cons_ne_nil first front)]
        refine ⟨join mark (first :: front) ++ (mark ++ [' ']), piece, ?_, content, .inr ?_⟩
        · simp
        · exact List.suffix_append ..

/-! ### Blank lines -/

theorem drop_repeated_apart (afterBlank : Bool) (lines : List (List Char)) :
    List.IsChain (fun line next => line ≠ [] ∨ next ≠ []) (dropRepeatedBlanks afterBlank lines) ∧
      (afterBlank = true → [] ∉ (dropRepeatedBlanks afterBlank lines).head?) := by
  fun_induction dropRepeatedBlanks afterBlank lines with
  | case1 =>
      refine ⟨.nil, ?_⟩
      intro _ none
      cases none
  | case2 line rest _ ih => exact ⟨ih.1, fun _ => ih.2 rfl⟩
  | case3 afterBlank line rest _ first ih =>
      refine ⟨List.isChain_cons.mpr ⟨?_, ih.1⟩, fun after => absurd after first⟩
      intro next follows
      right
      rintro rfl
      exact ih.2 rfl follows
  | case4 _ line rest filled ih =>
      have some : line ≠ [] := fun none => filled (List.isEmpty_iff.mpr none)
      refine ⟨List.isChain_cons.mpr ⟨fun _ _ => .inl some, ih.1⟩, ?_⟩
      intro _ first
      exact some (Option.some.inj first)

theorem compact_apart (lines : List (List Char)) :
    List.IsChain (fun line next => line ≠ [] ∨ next ≠ []) (compact lines) ∧
      [] ∉ (compact lines).head? ∧ [] ∉ (compact lines).getLast? := by
  obtain ⟨apart, first⟩ := drop_repeated_apart true lines
  have front : compact lines <+: dropRepeatedBlanks true lines := List.rdropWhile_prefix _ _
  have kept := List.IsChain.prefix apart front
  refine ⟨kept, ?_, ?_⟩
  · intro blank
    obtain ⟨more, joined⟩ := front
    apply first rfl
    rw [← joined]
    exact List.mem_head?_append_of_mem_head? blank
  · intro blank
    obtain ⟨some, last⟩ := List.mem_getLast?_eq_getLast blank
    apply List.rdropWhile_last_not List.isEmpty _ some
    exact List.isEmpty_iff.mpr last.symm

/-! ### The finished text -/

/-- The lines of a text. The empty text has none. -/
def textLines (text : List Char) : List (List Char) :=
  if text = [] then [] else splitAtChar '\n' text

/-- A text in its layout, with a mark between the items of a list. -/
structure LaidOut (mark text : List Char) : Prop where
  lines_bare : ∀ line ∈ textLines text, Bare line
  blanks_apart : List.IsChain (fun line next => line ≠ [] ∨ next ≠ []) (textLines text)
  first_filled : [] ∉ (textLines text).head?
  last_filled : [] ∉ (textLines text).getLast?
  no_mark_first : ¬ mark <+: text
  no_mark_last : ¬ mark <:+ text
  no_mark_alone : mark ∉ textLines text
  marks_set : ∀ before after, before ++ (mark ++ after) ∈ textLines text →
    FollowsContent mark before ∧ PrecedesContent mark after
  marks_apart : ∀ before between after,
    text = before ++ (mark ++ (between ++ (mark ++ after))) → contents mark between ≠ []

theorem text_lines_joined {lines : List (List Char)} (one_line : ∀ line ∈ lines, '\n' ∉ line)
    (first : [] ∉ lines.head?) : textLines (join ['\n'] lines) = lines := by
  cases lines with
  | nil => rfl
  | cons line more =>
      have some : join ['\n'] (line :: more) ≠ [] := by
        have filled : line ≠ [] := fun none => first (by rw [none]; rfl)
        cases more with
        | nil => exact filled
        | cons next more => simp [join, filled]
      rw [textLines, if_neg some, split_joined (List.cons_ne_nil line more) one_line]

theorem Settled.content_between {front between back : List Token} {afterContent : Bool}
    (settled : Settled afterContent (front ++ .separator :: (between ++ .separator :: back))) :
    between.any Token.isContent = true := by
  induction front generalizing afterContent with
  | nil =>
      have behind : Settled false (between ++ .separator :: back) := settled.2.2
      clear settled
      induction between with
      | nil => cases behind.1
      | cons token rest ih =>
          cases token with
          | content text => rfl
          | newline => exact ih behind
          | separator => cases behind.1
  | cons token rest ih =>
      cases token with
      | content text => exact ih settled
      | newline => exact ih settled
      | separator => exact ih settled.2.2

theorem Settled.content_behind {front back : List Token} {afterContent : Bool}
    (settled : Settled afterContent (front ++ .separator :: back)) :
    back.any Token.isContent = true := by
  induction front generalizing afterContent with
  | nil => exact settled.2.1
  | cons token rest ih =>
      cases token with
      | content text => exact ih settled
      | newline => exact ih settled
      | separator => exact ih settled.2.2

variable {lines : List (List Char)}

theorem tokens_nil (mark : List Char) : tokens mark [] = [] := of_line_free nowhere

theorem tokens_joined (finished : ∀ line ∈ lines, Finished mark line) :
    tokens mark (join ['\n'] lines) = parted .newline (lines.map (ofLine mark)) := by
  cases lines with
  | nil => exact tokens_nil mark
  | cons line more =>
      rw [tokens, split_joined (List.cons_ne_nil line more) fun text member =>
        (finished text member).one_line]

theorem laid_out (unbordered : Unbordered mark) (bare : Bare mark) (some : mark ≠ [])
    (one_line : '\n' ∉ mark) (finished : ∀ line ∈ lines, Finished mark line)
    (settled : Settled false (tokens mark (join ['\n'] lines)))
    (apart : List.IsChain (fun line next => line ≠ [] ∨ next ≠ []) lines)
    (first : [] ∉ lines.head?) (last : [] ∉ lines.getLast?) :
    LaidOut mark (join ['\n'] lines) := by
  have shown : textLines (join ['\n'] lines) = lines :=
    text_lines_joined (fun line member => (finished line member).one_line) first
  constructor
  · rw [shown]
    exact fun line member => (finished line member).bare
  · rwa [shown]
  · rwa [shown]
  · rwa [shown]
  · rintro ⟨after, start⟩
    have read := tokens_around unbordered some one_line [] after
    rw [List.nil_append, start, tokens_nil, List.nil_append] at read
    rw [read] at settled
    cases settled.1
  · rintro ⟨before, ending⟩
    have read := tokens_around unbordered some one_line before []
    rw [List.append_nil, ending, tokens_nil] at read
    rw [read] at settled
    cases settled.content_behind
  · rw [shown]
    intro alone
    have cleaned := (finished mark alone).clean
    rw [cleanLine, bare.trim, if_pos rfl] at cleaned
    exact some cleaned.symm
  · rw [shown]
    intro before after member
    have line := finished _ member
    have single : Single (ofLine mark (before ++ (mark ++ after))) := by
      rw [tokens_joined finished, parted_eq] at settled
      exact List.IsChain.infix settled.single
        (infix_intercalate _ (List.mem_map_of_mem member))
    have well : WellSet mark (ofLine mark (before ++ (mark ++ after))) :=
      ⟨line.tokens, spaced_of_line mark _, proper_of_line line.one_line⟩
    obtain ⟨lead, parts, cut, start, set⟩ := cut_line_set unbordered bare some well single
    rw [line.read] at cut
    exact marks_of_parts unbordered some cut start set
  · intro before between after whole
    rw [whole, tokens_around unbordered some one_line, tokens_around unbordered some one_line]
      at settled
    exact contents_some settled.content_between

theorem compact_texts (readable : Readable mark) (text : List Char) :
    ((compact ((setLines mark (kept mark text)).map (cleanLine mark))).flatMap
      (ofLine mark)).filterMap Token.text? = contents mark text := by
  have flat : (linesOf (kept mark text)).flatten.filterMap Token.text? =
      (kept mark text).filterMap Token.text? := by
    conv_rhs => rw [← parted_lines (kept mark text), filter_map_parted rfl]
    rw [List.filterMap_flatten, List.flatMap]
  calc _ = ((linesOf (kept mark text)).flatMap tidy).filterMap Token.text? := by
        rw [layout_read readable text]
    _ = (linesOf (kept mark text)).flatten.filterMap Token.text? :=
        texts_of_contents (tidy_lines _).2
    _ = (kept mark text).filterMap Token.text? := flat
    _ = (tokens mark text).filterMap Token.text? :=
        texts_of_contents (drop_surplus_contents false _)
    _ = contents mark text := texts_of_tokens mark text

theorem kept_laid_out (unbordered : Unbordered mark) (bare : Bare mark) (some : mark ≠ [])
    (one_line : '\n' ∉ mark) (text : List Char) :
    let laid := join ['\n'] (compact ((setLines mark (kept mark text)).map (cleanLine mark)))
    contents mark laid = contents mark text ∧ LaidOut mark laid := by
  intro laid
  have readable : Readable mark := ⟨bare, .inr unbordered.not_overlaps⟩
  obtain ⟨finished, settled⟩ := layout_finished readable text
  have read := tokens_joined finished
  constructor
  · rw [← texts_of_tokens, read, filter_map_parted rfl, List.flatMap_map,
      ← List.filterMap_flatMap, compact_texts readable text]
  · obtain ⟨apart, first, last⟩ :=
      compact_apart ((setLines mark (kept mark text)).map (cleanLine mark))
    apply laid_out unbordered bare some one_line finished _ apart first last
    rw [read]
    exact settled_lines finished settled

/-- Normalizing keeps the contents of a text, in order, and sets them in the layout. The separator
counts without blanks at its ends; it holds something, no line break, and no beginning that is also
its end. -/
theorem normalize_lays_out (text separator : String) (some : trim separator.toList ≠ [])
    (one_line : '\n' ∉ trim separator.toList)
    (unbordered : Unbordered (trim separator.toList)) :
    contents (trim separator.toList) (normalize text separator).toList =
        contents (trim separator.toList) text.toList ∧
      LaidOut (trim separator.toList) (normalize text separator).toList := by
  have bare := trim_bare separator.toList
  obtain ⟨same, laid⟩ := kept_laid_out unbordered bare some one_line (unified text.toList)
  rw [contents_unified bare] at same
  rw [normalize, String.toList_ofList]
  exact ⟨same, laid⟩

/-- Commas are collapsed across a line break, and the line of a comma alone becomes blank. -/
theorem commas_laid_out :
    trim ",".toList ≠ [] ∧ '\n' ∉ trim ",".toList ∧ Unbordered (trim ",".toList) ∧
      normalize ", a ,, b,\r\n , c\n,\n\n d," "," = "a, b,\nc\n\nd" ∧
      contents [','] "a, b,\nc\n\nd".toList =
        contents [','] ", a ,, b,\r\n , c\n,\n\n d,".toList ∧
      LaidOut [','] "a, b,\nc\n\nd".toList := by
  have comma : trim ",".toList = [','] := by decide
  have some : trim ",".toList ≠ [] := by decide
  have one_line : '\n' ∉ trim ",".toList := by decide
  have unbordered : Unbordered (trim ",".toList) := comma ▸ unbordered_singleton ','
  have finished : normalize ", a ,, b,\r\n , c\n,\n\n d," "," = "a, b,\nc\n\nd" := by
    decide +kernel
  have laid := normalize_lays_out ", a ,, b,\r\n , c\n,\n\n d," "," some one_line unbordered
  rw [finished, comma] at laid
  exact ⟨some, one_line, unbordered, finished, laid⟩

end PromptLoom.Text.Layout
