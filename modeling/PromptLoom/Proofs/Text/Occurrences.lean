import PromptLoom.Proofs.Text.Tokens

/-!
# Every occurrence of a mark

A word whose beginnings are not also its ends cannot overlap itself, so cutting at it finds every
place where it stands. Around each of them the parts of a line, and the tokens of a text, are those
of what stands before it and those of what stands behind it.

The contents of a text are what the cuts leave, without blanks; they are the content among its
tokens, and line breaks may be written with or without a carriage return.
-/

namespace PromptLoom.Text

set_option autoImplicit false

/-- No beginning of a word is also its end, apart from the empty one and the whole word. -/
def Unbordered (word : List Char) : Prop :=
  ∀ border, border <+: word → border <:+ word → border = [] ∨ border = word

theorem unbordered_singleton (c : Char) : Unbordered [c] := by
  intro border start _
  cases border with
  | nil => exact .inl rfl
  | cons d rest =>
      obtain ⟨rfl, empty⟩ := List.cons_prefix_cons.mp start
      rw [List.prefix_nil.mp empty]
      exact .inr rfl

section Cutting

variable {word text : List Char} {first : Char} {others : List Char}

theorem Unbordered.not_overlaps (unbordered : Unbordered word) : ¬ Overlaps word := by
  rintro ⟨front, back, some, filled, split, start, -⟩
  rcases unbordered back start ⟨front, split⟩ with none | whole
  · exact filled none
  · apply some
    apply List.append_left_eq_self.mp
    rwa [whole] at split

/-- A word in front of which a text stands does not begin in that text unless it ends in it. -/
theorem Unbordered.starts_inside (unbordered : Unbordered word) {after : List Char}
    (some : text ≠ []) (start : word <+: text ++ (word ++ after)) : word <+: text := by
  rcases Nat.lt_or_ge text.length word.length with short | long
  · obtain ⟨back, split⟩ :=
      List.prefix_of_prefix_length_le (List.prefix_append text _) start (Nat.le_of_lt short)
    have again : back <+: word := by
      rw [← split, List.prefix_append_right_inj, split] at start
      refine List.prefix_of_prefix_length_le start (List.prefix_append word after) ?_
      rw [← split, List.length_append]
      omega
    have lengths := congrArg List.length split
    rw [List.length_append] at lengths
    have filled := List.length_pos_iff.mpr some
    rcases unbordered back again ⟨text, split⟩ with rfl | rfl
    · rw [List.length_nil] at lengths
      omega
    · omega
  · exact List.prefix_of_prefix_length_le start (List.prefix_append text _) long

theorem Unbordered.cut_around (unbordered : Unbordered (first :: others))
    (before after : List Char) :
    splitAtWord first others (before ++ (first :: others ++ after)) =
      splitAtWord first others before ++ splitAtWord first others after := by
  fun_induction splitAtWord first others before with
  | case1 text rest found _ ih =>
      rw [drop_word_eq_some_iff.mp found, List.append_assoc, split_at_word_found, ih,
        List.cons_append]
  | case2 => exact split_at_word_found first others after
  | case3 c rest missing part parts cut ih =>
      have late : ¬ first :: others <+: c :: (rest ++ (first :: others ++ after)) := by
        intro start
        obtain ⟨more, inside⟩ := unbordered.starts_inside (List.cons_ne_nil c rest) start
        rw [drop_word_eq_some_iff.mpr inside.symm] at missing
        cases missing
      rw [List.cons_append, split_at_word_cons late, ih, cut]
      rfl
  | case4 _ rest _ cut => exact absurd cut (split_at_word_ne_nil first others rest)

end Cutting

theorem split_at_char_append {mark : Char} {behind next : List Char} {more : List (List Char)}
    (cut : splitAtChar mark behind = next :: more) (text : List Char) :
    ∃ lines last, splitAtChar mark text = lines ++ [last] ∧
      splitAtChar mark (text ++ behind) = lines ++ (last ++ next) :: more := by
  induction text with
  | nil => exact ⟨[], [], rfl, cut⟩
  | cons c rest ih =>
      obtain ⟨lines, last, ends, joined⟩ := ih
      by_cases breaks : c = mark
      · refine ⟨[] :: lines, last, ?_, ?_⟩
        · simp [splitAtChar, breaks, ends]
        · simp [splitAtChar, breaks, joined]
      · cases lines with
        | nil =>
            refine ⟨[], c :: last, ?_, ?_⟩
            · simp [splitAtChar, breaks, ends]
            · simp [splitAtChar, breaks, joined]
        | cons line lines =>
            refine ⟨(c :: line) :: lines, last, ?_, ?_⟩
            · simp [splitAtChar, breaks, ends]
            · simp [splitAtChar, breaks, joined]

theorem split_at_char_free {mark : Char} {text : List Char} (free : mark ∉ text) :
    splitAtChar mark text = [text] := by
  have parts := split_joined (List.cons_ne_nil text []) (by simpa using free)
  rwa [join] at parts

/-! ### Carriage returns -/

section Blanks

variable {first : Char} {others : List Char} {blank : Char}

/-- A blank behind a text belongs to its last part, since no mark ends in a blank. -/
theorem cut_before_blank (bare : Bare (first :: others)) (white : isBlank blank = true)
    (text : List Char) : ∃ parts last, splitAtWord first others text = parts ++ [last] ∧
      splitAtWord first others (text ++ [blank]) = parts ++ [last ++ [blank]] := by
  fun_induction splitAtWord first others text with
  | case1 text rest found _ ih =>
      obtain ⟨parts, last, ends, longer⟩ := ih
      refine ⟨[] :: parts, last, by rw [ends, List.cons_append], ?_⟩
      rw [drop_word_eq_some_iff.mp found, List.append_assoc, split_at_word_found, longer,
        List.cons_append]
  | case2 =>
      refine ⟨[], [], rfl, ?_⟩
      apply split_at_word_free
      intro inside
      have wrong : isBlank first = true := by
        rw [List.mem_singleton.mp (inside.subset (List.mem_cons_self ..))]
        exact white
      rw [bare.1 first rfl] at wrong
      cases wrong
  | case3 c rest missing part parts cut ih =>
      obtain ⟨init, last, ends, longer⟩ := ih
      have absent : ¬ first :: others <+: c :: (rest ++ [blank]) := by
        intro start
        rcases List.prefix_concat_iff.mp (show _ <+: c :: rest ++ [blank] from start) with whole | inside
        · have wrong := bare.2 blank (whole ▸ List.getLast?_concat)
          rw [white] at wrong
          cases wrong
        · obtain ⟨more, split⟩ := inside
          rw [drop_word_eq_some_iff.mpr split.symm] at missing
          cases missing
      rw [List.cons_append, split_at_word_cons absent, longer]
      rw [cut] at ends
      cases init with
      | nil =>
          obtain ⟨rfl, rfl⟩ := List.cons.inj ends
          exact ⟨[], c :: part, rfl, rfl⟩
      | cons head init =>
          obtain ⟨rfl, rfl⟩ := List.cons.inj ends
          exact ⟨(c :: part) :: init, last, rfl, rfl⟩
  | case4 _ rest _ cut => exact absurd cut (split_at_word_ne_nil first others rest)

end Blanks

/-- Line breaks without their carriage returns. -/
def unified (text : List Char) : List Char := replaceWord ['\r', '\n'] ['\n'] text

theorem split_at_char_cons {mark c : Char} (other : c ≠ mark) (text : List Char) :
    splitAtChar mark (c :: text) = (splitAtChar mark text).modifyHead (List.cons c) := by
  rw [splitAtChar, if_neg other]
  cases parts : splitAtChar mark text with
  | nil => exact absurd parts (split_at_char_ne_nil mark text)
  | cons part more => rfl

def SameLine (line written : List Char) : Prop := written = line ∨ written = line ++ ['\r']

theorem unified_lines (text : List Char) :
    List.Forall₂ SameLine (splitAtChar '\n' (unified text)) (splitAtChar '\n' text) := by
  change List.Forall₂ SameLine (splitAtChar '\n' (join ['\n'] (splitAtWord '\r' ['\n'] text))) _
  fun_induction splitAtWord '\r' ['\n'] text with
  | case1 text rest found _ ih =>
      have head : join ['\n'] ([] :: splitAtWord '\r' ['\n'] rest) =
          '\n' :: join ['\n'] (splitAtWord '\r' ['\n'] rest) := by
        rw [join_eq, join_eq, List.intercalate_cons_of_ne_nil (split_at_word_ne_nil _ _ _)]
        rfl
      rw [head, drop_word_eq_some_iff.mp found]
      exact .cons (.inr rfl) ih
  | case2 => exact .cons (.inl rfl) .nil
  | case3 c rest missing part parts cut ih =>
      rw [cut] at ih
      rw [join_eq, List.intercalate_cons_cons_left, ← join_eq]
      by_cases breaks : c = '\n'
      · simp only [breaks, splitAtChar, if_pos]
        exact .cons (.inl rfl) ih
      · rw [split_at_char_cons breaks, split_at_char_cons breaks]
        generalize splitAtChar '\n' (join ['\n'] (part :: parts)) = lines at ih ⊢
        generalize splitAtChar '\n' rest = written at ih ⊢
        cases ih with
        | nil => exact .nil
        | cons same others =>
            refine .cons (same.imp (congrArg (List.cons c)) ?_) others
            exact congrArg (List.cons c)
  | case4 _ rest _ cut => exact absurd cut (split_at_word_ne_nil '\r' ['\n'] rest)

namespace Layout

/-! ### Contents -/

/-- The parts of a line between the occurrences of a mark. The empty mark cuts nothing. -/
def cutLine (mark line : List Char) : List (List Char) :=
  match mark with
  | [] => [line]
  | first :: others => splitAtWord first others line

/-- The contents of a text: what stands between line breaks and marks, trimmed, where it is not
blank. -/
def contents (mark text : List Char) : List (List Char) :=
  (((splitAtChar '\n' text).flatMap (cutLine mark)).map trim).filter (· ≠ [])

def Token.text? : Token → Option (List Char)
  | .content text => some text
  | _ => none

variable {mark : List Char}

theorem of_line_eq (mark line : List Char) :
    ofLine mark line = parted .separator ((cutLine mark line).map ofPiece) := by
  cases mark <;> rfl

theorem filter_map_parted {token : Token} (silent : token.text? = none)
    (parts : List (List Token)) : (parted token parts).filterMap Token.text? =
      parts.flatMap fun part => part.filterMap Token.text? := by
  fun_induction parted token parts with
  | case1 => rfl
  | case2 part => rw [List.flatMap_singleton]
  | case3 part next parts ih =>
      rw [List.filterMap_append, List.filterMap_cons_none silent, ih]
      rfl

theorem texts_of_piece (text : List Char) :
    (ofPiece text).filterMap Token.text? = [trim text].filter (· ≠ []) := by
  unfold ofPiece
  split
  · next blank => rw [blank]; rfl
  · next some => rw [List.filter_cons_of_pos (by simpa using some)]; rfl

theorem texts_of_tokens (mark text : List Char) :
    (tokens mark text).filterMap Token.text? = contents mark text := by
  have line : ∀ line, (ofLine mark line).filterMap Token.text? =
      ((cutLine mark line).map trim).filter (· ≠ []) := by
    intro line
    rw [of_line_eq, filter_map_parted rfl, List.flatMap_map]
    induction cutLine mark line with
    | nil => rfl
    | cons part parts ih =>
        rw [List.flatMap_cons, ih, texts_of_piece, List.map_cons, ← List.filter_append,
          List.singleton_append]
  rw [tokens, filter_map_parted rfl, List.flatMap_map, List.flatMap_congr fun part _ => line part,
    contents, List.map_flatMap, List.filter_flatMap]

theorem texts_of_contents {list thinner : List Token}
    (same : thinner.filter Token.isContent = list.filter Token.isContent) :
    thinner.filterMap Token.text? = list.filterMap Token.text? := by
  have only : ∀ list : List Token,
      (list.filter Token.isContent).filterMap Token.text? = list.filterMap Token.text? := by
    intro list
    rw [List.filterMap_filter]
    apply List.filterMap_congr
    intro token _
    cases token <;> rfl
  rw [← only thinner, same, only list]

theorem contents_some {text : List Char} (inside : (tokens mark text).any Token.isContent = true) :
    contents mark text ≠ [] := by
  obtain ⟨token, member, content⟩ := List.any_eq_true.mp inside
  rw [← texts_of_tokens]
  cases token with
  | content text => exact List.ne_nil_of_mem (List.mem_filterMap.mpr ⟨_, member, rfl⟩)
  | separator => cases content
  | newline => cases content

theorem of_piece_blank {blank : Char} (white : isBlank blank = true) (text : List Char) :
    ofPiece (text ++ [blank]) = ofPiece text := by
  rw [ofPiece, trim_append_blanks text (by simpa using white), ofPiece]

theorem of_line_before_blank (bare : Bare mark) {blank : Char} (white : isBlank blank = true)
    (line : List Char) : ofLine mark (line ++ [blank]) = ofLine mark line := by
  cases mark with
  | nil => exact of_piece_blank white line
  | cons first others =>
      obtain ⟨parts, last, ends, longer⟩ := cut_before_blank bare white line
      simp only [ofLine, ends, longer, List.map_append, List.map_singleton, of_piece_blank white]

theorem tokens_unified (bare : Bare mark) (text : List Char) :
    tokens mark (unified text) = tokens mark text := by
  unfold tokens
  congr 1
  have lines := unified_lines text
  generalize splitAtChar '\n' (unified text) = once at lines ⊢
  generalize splitAtChar '\n' text = written at lines ⊢
  induction lines with
  | nil => rfl
  | cons same others ih =>
      rw [List.map_cons, List.map_cons, ih]
      rcases same with rfl | rfl
      · rfl
      · rw [of_line_before_blank bare rfl]

theorem contents_unified (bare : Bare mark) (text : List Char) :
    contents mark (unified text) = contents mark text := by
  rw [← texts_of_tokens, tokens_unified bare, texts_of_tokens]

/-! ### Tokens around an occurrence -/

theorem parted_cons {token : Token} {part : List Token} {parts : List (List Token)}
    (some : parts ≠ []) : parted token (part :: parts) = part ++ token :: parted token parts := by
  cases parts with
  | nil => exact absurd rfl some
  | cons next more => rfl

theorem parted_append {token : Token} {parts more : List (List Token)} (some : parts ≠ [])
    (filled : more ≠ []) :
    parted token (parts ++ more) = parted token parts ++ token :: parted token more := by
  fun_induction parted token parts with
  | case1 => exact absurd rfl some
  | case2 part => exact parted_cons filled
  | case3 part next parts ih =>
      rw [List.cons_append, parted_cons (by simp), ih (List.cons_ne_nil next parts),
        List.append_assoc, List.cons_append]

theorem parted_around {token inner : Token} (parts : List (List Token)) (front back : List Token)
    (more : List (List Token)) :
    parted token (parts ++ (front ++ inner :: back) :: more) =
      parted token (parts ++ [front]) ++ inner :: parted token (back :: more) := by
  have last : parted token ((front ++ inner :: back) :: more) =
      front ++ inner :: parted token (back :: more) := by
    cases more with
    | nil => rfl
    | cons next more => rw [parted, parted, List.append_assoc, List.cons_append]
  induction parts with
  | nil => exact last
  | cons part parts ih =>
      rw [List.cons_append, List.cons_append, parted_cons (by simp), parted_cons (by simp), ih,
        List.append_assoc, List.cons_append]

theorem of_line_around (unbordered : Unbordered mark) (some : mark ≠ [])
    (before after : List Char) : ofLine mark (before ++ (mark ++ after)) =
      ofLine mark before ++ .separator :: ofLine mark after := by
  cases mark with
  | nil => exact absurd rfl some
  | cons first others =>
      simp only [ofLine]
      rw [unbordered.cut_around, List.map_append]
      apply parted_append
      · simpa using split_at_word_ne_nil first others before
      · simpa using split_at_word_ne_nil first others after

/-- Each occurrence of the mark is a separator among the tokens. -/
theorem tokens_around (unbordered : Unbordered mark) (some : mark ≠ []) (one_line : '\n' ∉ mark)
    (before after : List Char) : tokens mark (before ++ (mark ++ after)) =
      tokens mark before ++ .separator :: tokens mark after := by
  obtain ⟨next, more, behind⟩ := List.exists_cons_of_ne_nil (split_at_char_ne_nil '\n' after)
  have marked : splitAtChar '\n' (mark ++ after) = (mark ++ next) :: more := by
    obtain ⟨none, single, alone, joined⟩ := split_at_char_append behind mark
    rw [split_at_char_free one_line] at alone
    obtain ⟨rfl, same⟩ := List.append_inj' (show [] ++ [mark] = none ++ [single] from alone) rfl
    rw [joined, ← List.head_eq_of_cons_eq same, List.nil_append]
  obtain ⟨lines, last, front, whole⟩ := split_at_char_append marked before
  simp only [tokens, whole, front, behind, List.map_append, List.map_cons, List.map_nil,
    of_line_around unbordered some, parted_around]

end Layout

end PromptLoom.Text
