import PromptLoom.Proofs.Text.Tokens

/-!
# Lines of a layout

Tokens are set line by line, and a line that was set is read back as the tokens it was set from.
This needs a mark that is found where it is written, so that the content before it does not lend it
a beginning.
-/

namespace PromptLoom.Text.Layout

set_option autoImplicit false

variable {mark : List Char} {list line : List Token}

/-! ### Setting a line -/

def setLine (mark : List Char) : List Token → List Char
  | [] => []
  | .newline :: rest => setLine mark rest
  | .content text :: rest => text ++ setLine mark rest
  | .separator :: .content text :: rest => mark ++ ' ' :: setLine mark (.content text :: rest)
  | .separator :: rest => mark ++ setLine mark rest

def linesOf (list : List Token) : List (List Token) := list.splitOn .newline

theorem lines_of_cons (token : Token) (rest : List Token) :
    ∃ line more, linesOf rest = line :: more ∧ linesOf (token :: rest) =
      if token = .newline then [] :: line :: more else (token :: line) :: more := by
  obtain ⟨line, more, parts⟩ := List.exists_cons_of_ne_nil (List.splitOn_ne_nil Token.newline rest)
  refine ⟨line, more, parts, ?_⟩
  unfold linesOf
  rw [List.splitOn_cons_eq_if_modifyHead, parts]
  simp only [beq_iff_eq, List.modifyHead_cons]

theorem set_lines_eq (mark : List Char) (list : List Token) :
    setLines mark list = (linesOf list).map (setLine mark) := by
  induction list with
  | nil => rfl
  | cons token rest ih =>
      obtain ⟨line, more, parts, longer⟩ := lines_of_cons token rest
      rw [parts] at ih
      rw [longer]
      cases token with
      | newline => simp [setLines, ih, setLine]
      | content text => simp [setLines, ih, setLine, inFront]
      | separator =>
          cases rest with
          | nil =>
              have empty : linesOf [] = [[]] := rfl
              obtain ⟨rfl, rfl⟩ := List.cons.inj (parts.symm.trans empty)
              simp [setLines, setLine, inFront]
          | cons next rest =>
              obtain ⟨tail, others, _, split⟩ := lines_of_cons next rest
              rw [parts] at split
              cases next with
              | newline =>
                  obtain ⟨rfl, rfl⟩ := List.cons.inj split
                  change inFront mark (setLines mark (.newline :: rest)) = _
                  rw [ih]
                  simp [inFront, setLine]
              | content text =>
                  obtain ⟨rfl, rfl⟩ := List.cons.inj split
                  change inFront (mark ++ [' ']) (setLines mark (.content text :: rest)) = _
                  rw [ih]
                  simp [inFront, setLine]
              | separator =>
                  obtain ⟨rfl, rfl⟩ := List.cons.inj split
                  change inFront mark (setLines mark (.separator :: rest)) = _
                  rw [ih]
                  simp [inFront, setLine]

/-! ### Reading a line back -/

/-- A line as it stands in a layout: proper tokens, and no two pieces of content side by side. -/
structure WellSet (mark : List Char) (line : List Token) : Prop where
  one_line : Token.newline ∉ line
  spaced : Spaced line
  proper : ∀ token ∈ line, Proper mark token

theorem of_line_first {text : List Char} (late : ¬ Early mark text) (some : mark ≠ [])
    (tail : List Char) :
    ofLine mark (text ++ (mark ++ tail)) = ofPiece text ++ .separator :: ofLine mark tail := by
  obtain ⟨first, others, rfl⟩ := List.exists_cons_of_ne_nil some
  simp only [ofLine]
  rw [split_at_word_first late]
  obtain ⟨part, parts, cut⟩ := List.exists_cons_of_ne_nil (split_at_word_ne_nil first others tail)
  rw [cut, List.map_cons, List.map_cons, parted]

theorem of_line_free {text : List Char} (free : mark ≠ [] → ¬ mark <:+: text) :
    ofLine mark text = ofPiece text := by
  unfold ofLine
  split
  · rfl
  · rw [split_at_word_free (free (List.cons_ne_nil _ _))]
    rfl

theorem of_line_blank {c : Char} (blank : isBlank c = true) (bare : Bare mark) (text : List Char) :
    ofLine mark (c :: text) = ofLine mark text := by
  unfold ofLine
  split
  · rw [ofPiece, trim_cons blank, ofPiece]
  · next first others =>
      have missing : ¬ first :: others <+: c :: text := by
        intro start
        obtain ⟨rfl, -⟩ := List.cons_prefix_cons.mp start
        rw [bare.1 first rfl] at blank
        cases blank
      obtain ⟨part, parts, cut⟩ := List.exists_cons_of_ne_nil (split_at_word_ne_nil first others text)
      rw [split_at_word_cons missing, cut, List.modifyHead_cons, List.map_cons, List.map_cons,
        ofPiece, trim_cons blank, ofPiece]

theorem of_piece_bare {text : List Char} (bare : Bare text) (some : text ≠ []) :
    ofPiece text = [.content text] := by
  unfold ofPiece
  rw [bare.trim]
  split
  · exact absurd rfl some
  · rfl

theorem WellSet.tail {token : Token} (well : WellSet mark (token :: line)) : WellSet mark line :=
  ⟨fun inside => well.one_line (List.mem_cons_of_mem _ inside),
    (List.isChain_cons.mp well.spaced).2,
    fun other inside => well.proper other (List.mem_cons_of_mem _ inside)⟩

/-- A mark that can be read back: it is bare, and it is found where it is written, since it does not
overlap itself or never occurs on a line. -/
structure Readable (mark : List Char) : Prop where
  bare : Bare mark
  apart : '\n' ∈ mark ∨ ¬ Overlaps mark

theorem WellSet.behind_content {text : List Char} (well : WellSet mark (.content text :: line)) :
    ∀ token ∈ line.head?, token.isContent = false := by
  intro token follows
  have apart := (List.isChain_cons.mp well.spaced).1 token follows
  exact eq_false_of_ne_true fun content => apart ⟨rfl, content⟩

/-- A separator is set as the mark and a rest that does not tell whether a space was put in. -/
theorem set_line_separator (bare : Bare mark) (rest : List Token) :
    ∃ tail, setLine mark (.separator :: rest) = mark ++ tail ∧
      ofLine mark tail = ofLine mark (setLine mark rest) := by
  match rest with
  | [] => exact ⟨[], by simp [setLine], rfl⟩
  | .newline :: more => exact ⟨setLine mark (.newline :: more), by simp [setLine], rfl⟩
  | .separator :: more => exact ⟨setLine mark (.separator :: more), by simp [setLine], rfl⟩
  | .content text :: more =>
      exact ⟨' ' :: setLine mark (.content text :: more), by simp [setLine],
        of_line_blank rfl bare _⟩

theorem nowhere : mark ≠ [] → ¬ mark <:+: [] := fun some inside => some (List.infix_nil.mp inside)

mutual

theorem of_line_behind (readable : Readable mark) {text : List Char} (bare : Bare text)
    (free : mark ≠ [] → ¬ mark <:+: text) : ∀ line : List Token, WellSet mark line →
    (∀ token ∈ line.head?, token.isContent = false) →
    ofLine mark (text ++ setLine mark line) = ofPiece text ++ line
  | [], _, _ => by
      rw [setLine, List.append_nil, List.append_nil, of_line_free free]
  | .content _ :: _, _, start => nomatch start _ rfl
  | .newline :: _, well, _ => absurd (List.mem_cons_self ..) well.one_line
  | .separator :: rest, well, _ => by
      obtain ⟨some, one_line⟩ : mark ≠ [] ∧ '\n' ∉ mark :=
        well.proper .separator (List.mem_cons_self ..)
      have late : ¬ Early mark text :=
        not_early (readable.apart.resolve_left one_line) bare.trim_end (free some)
      obtain ⟨tail, set, same⟩ := set_line_separator readable.bare rest
      rw [set, of_line_first late some, same, of_line_set readable rest well.tail]
termination_by line => (line.length, 0)

/-- A line that is set is read back as its tokens. -/
theorem of_line_set (readable : Readable mark) : ∀ line : List Token, WellSet mark line →
    ofLine mark (setLine mark line) = line
  | [], _ => of_line_free nowhere
  | .newline :: _, well => absurd (List.mem_cons_self ..) well.one_line
  | .separator :: rest, well =>
      of_line_behind readable bare_nil nowhere (.separator :: rest) well (by simp [Token.isContent])
  | .content text :: rest, well => by
      obtain ⟨filled, bare, _, free⟩ := well.proper (.content text) (List.mem_cons_self ..)
      rw [setLine, of_line_behind readable bare free rest well.tail well.behind_content,
        of_piece_bare bare filled, List.singleton_append]
termination_by line => (line.length, 1)

end

/-! ### Cleaning lines -/

/-- A line of tokens without the separator that stands alone. -/
def tidy (line : List Token) : List Token := if line = [.separator] then [] else line

theorem set_line_bare (bare : Bare mark) : ∀ line : List Token, WellSet mark line →
    Bare (setLine mark line)
  | [], _ => bare_nil
  | .newline :: _, well => absurd (List.mem_cons_self ..) well.one_line
  | .content text :: rest, well => by
      obtain ⟨_, bareText, _, _⟩ := well.proper (.content text) (List.mem_cons_self ..)
      rw [setLine]
      exact bareText.append (set_line_bare bare rest well.tail)
  | [.separator], _ => by
      simpa [setLine] using bare
  | .separator :: .newline :: _, well => absurd (List.mem_cons_self ..) well.tail.one_line
  | .separator :: .separator :: rest, well => by
      rw [setLine]
      · exact bare.append (set_line_bare bare (.separator :: rest) well.tail)
      · exact fun _ _ wrong => nomatch wrong
  | .separator :: .content text :: rest, well => by
      obtain ⟨some, _⟩ : mark ≠ [] ∧ '\n' ∉ mark := well.proper .separator (List.mem_cons_self ..)
      obtain ⟨filled, _, _, _⟩ := well.tail.proper (.content text) (List.mem_cons_self ..)
      have behind := set_line_bare bare (.content text :: rest) well.tail
      rw [setLine, List.append_cons]
      refine bare.around behind some ?_ [' ']
      rw [setLine]
      exact List.append_ne_nil_of_left_ne_nil filled _

theorem not_early_nil : ¬ Early mark [] := by
  rintro ⟨before, rest, joined, some, _⟩
  exact some (List.append_eq_nil_iff.mp joined).2

theorem of_line_mark (some : mark ≠ []) : ofLine mark mark = [.separator] := by
  have cut := of_line_first not_early_nil some []
  rw [List.append_nil, List.nil_append] at cut
  rw [cut, of_line_free nowhere]
  rfl

theorem clean_line_set (readable : Readable mark) (well : WellSet mark line) :
    cleanLine mark (setLine mark line) = setLine mark (tidy line) := by
  have read := of_line_set readable line well
  unfold cleanLine tidy
  simp only [(set_line_bare readable.bare line well).trim]
  by_cases alone : line = [.separator]
  · rw [alone, if_pos (by simp [setLine]), if_pos rfl]
    rfl
  · rw [if_neg alone]
    split
    · next same =>
        rw [same]
        by_cases none : mark = []
        · exact none.symm
        · rw [same, of_line_mark none] at read
          exact absurd read.symm alone
    · rfl

theorem clean_line_twice (mark line : List Char) :
    cleanLine mark (cleanLine mark line) = cleanLine mark line := by
  have blank : cleanLine mark [] = [] := by
    simp only [cleanLine]
    split <;> rfl
  unfold cleanLine
  dsimp only
  split
  · exact blank
  · next other => rw [trim_trim, if_neg other]

theorem tidy_lines (lines : List (List Token)) :
    (lines.flatMap tidy).Sublist lines.flatten ∧
      (lines.flatMap tidy).filter Token.isContent = lines.flatten.filter Token.isContent := by
  induction lines with
  | nil => exact ⟨List.Sublist.refl _, rfl⟩
  | cons line rest ih =>
      obtain ⟨taken, contents⟩ := ih
      rw [List.flatMap_cons, List.flatten_cons, List.filter_append, List.filter_append, contents]
      by_cases alone : line = [.separator]
      · rw [alone]
        exact ⟨List.Sublist.append (List.nil_sublist _) taken, rfl⟩
      · rw [tidy, if_neg alone]
        exact ⟨(List.append_sublist_append_left line).mpr taken, rfl⟩

theorem WellSet.tidy (well : WellSet mark line) : WellSet mark (tidy line) := by
  unfold Layout.tidy
  split
  · exact ⟨List.not_mem_nil, .nil, fun _ none => nomatch none⟩
  · exact well

/-! ### Dropping blank lines -/

variable {afterBlank : Bool} {lines : List (List Char)}

theorem drop_repeated_sublist (afterBlank : Bool) (lines : List (List Char)) :
    (dropRepeatedBlanks afterBlank lines).Sublist lines := by
  fun_induction dropRepeatedBlanks afterBlank lines with
  | case1 => exact List.Sublist.refl _
  | case2 line rest _ ih => exact ih.cons _
  | case3 _ line rest _ _ ih => exact ih.cons_cons _
  | case4 _ line rest _ ih => exact ih.cons_cons _

theorem drop_repeated_front {front : List (List Char)}
    (kept : dropRepeatedBlanks afterBlank lines = lines) (starts : front <+: lines) :
    dropRepeatedBlanks afterBlank front = front := by
  induction front generalizing afterBlank lines with
  | nil => rfl
  | cons line rest ih =>
      obtain ⟨more, rfl⟩ := starts
      have shorter := (drop_repeated_sublist true (rest ++ more)).length_le
      simp only [List.cons_append, dropRepeatedBlanks] at kept ⊢
      split
      · next blank =>
          rw [if_pos blank] at kept
          split
          · next after =>
              rw [if_pos after] at kept
              rw [kept, List.length_cons] at shorter
              exact absurd shorter (Nat.not_succ_le_self _)
          · next first =>
              rw [if_neg first] at kept
              rw [ih (List.cons.inj kept).2 (List.prefix_append rest more)]
      · next filled =>
          rw [if_neg filled] at kept
          rw [ih (List.cons.inj kept).2 (List.prefix_append rest more)]

theorem drop_repeated_twice (afterBlank : Bool) (lines : List (List Char)) :
    dropRepeatedBlanks afterBlank (dropRepeatedBlanks afterBlank lines) =
      dropRepeatedBlanks afterBlank lines := by
  fun_induction dropRepeatedBlanks afterBlank lines with
  | case1 => rfl
  | case2 line rest _ ih => exact ih
  | case3 _ line rest blank first ih => rw [dropRepeatedBlanks, if_pos blank, if_neg first, ih]
  | case4 _ line rest filled ih => rw [dropRepeatedBlanks, if_neg filled, ih]

theorem drop_last_eq (lines : List (List Char)) :
    dropLastBlanks lines = lines.rdropWhile List.isEmpty := rfl

/-- Some lines without the blank ones that are repeated or stand at the ends. -/
def compact (lines : List (List Char)) : List (List Char) :=
  dropLastBlanks (dropRepeatedBlanks true lines)

theorem compact_twice (lines : List (List Char)) : compact (compact lines) = compact lines := by
  have front : compact lines <+: dropRepeatedBlanks true lines := List.rdropWhile_prefix _ _
  have kept := drop_repeated_front (drop_repeated_twice true lines) front
  rw [compact, kept]
  exact List.rdropWhile_idempotent _ _

theorem compact_sublist (lines : List (List Char)) : (compact lines).Sublist lines := by
  have front : compact lines <+: dropRepeatedBlanks true lines := List.rdropWhile_prefix _ _
  exact front.sublist.trans (drop_repeated_sublist true lines)

theorem compact_flat_map {Item : Type} (read : List Char → List Item) (blank : read [] = [])
    (lines : List (List Char)) : (compact lines).flatMap read = lines.flatMap read := by
  have repeated : ∀ afterBlank, (dropRepeatedBlanks afterBlank lines).flatMap read =
      lines.flatMap read := by
    intro afterBlank
    fun_induction dropRepeatedBlanks afterBlank lines with
    | case1 => rfl
    | case2 line rest empty ih =>
        rw [ih, List.flatMap_cons, List.isEmpty_iff.mp empty, blank, List.nil_append]
    | case3 _ line rest _ _ ih => rw [List.flatMap_cons, List.flatMap_cons, ih]
    | case4 _ line rest _ ih => rw [List.flatMap_cons, List.flatMap_cons, ih]
  rw [← repeated true, compact, drop_last_eq]
  generalize dropRepeatedBlanks true lines = kept
  have dropped : (kept.rtakeWhile List.isEmpty).flatMap read = [] := by
    apply List.flatMap_eq_nil_iff.mpr
    intro line last
    rw [List.isEmpty_iff.mp (List.mem_rtakeWhile_imp last), blank]
  conv_rhs => rw [← List.rdropWhile_append_rtakeWhile (p := List.isEmpty) (l := kept)]
  rw [List.flatMap_append, dropped, List.append_nil]

end PromptLoom.Text.Layout
