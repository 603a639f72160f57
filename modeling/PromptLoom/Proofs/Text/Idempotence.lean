import PromptLoom.Proofs.Text.Lines

/-!
# Layout laid out again

A finished text is read back as the tokens it was set from, whose separators all part two pieces of
content, so that laying it out again changes nothing. This holds for every mark that does not
overlap itself. Behind a piece of content that ends like the beginning of an overlapping mark, the
mark is read too early the second time.
-/

namespace PromptLoom.Text.Layout

set_option autoImplicit false

variable {mark separator text : List Char} {lines : List (List Char)}

/-! ### Texts of trimmed lines -/

theorem return_free (one_line : ∀ line ∈ lines, '\n' ∉ line)
    (bare : ∀ line ∈ lines, Bare line) : ¬ ['\r', '\n'] <:+: join ['\n'] lines := by
  rw [join_eq]
  induction lines with
  | nil => simp
  | cons line rest ih =>
      obtain ⟨single, others⟩ := List.forall_mem_cons.mp one_line
      obtain ⟨bareLine, bareOthers⟩ := List.forall_mem_cons.mp bare
      rintro ⟨before, after, joined⟩
      rw [List.append_assoc] at joined
      cases rest with
      | nil =>
          rw [List.intercalate_singleton] at joined
          exact single (by simp [← joined])
      | cons next more =>
          rw [List.intercalate_cons_cons, List.append_assoc] at joined
          rcases List.append_eq_append_iff.mp joined with ⟨gap, whole, behind⟩ | ⟨gap, _, behind⟩
          · rcases List.cons_eq_append_iff.mp behind with ⟨_, wrong⟩ | ⟨gap, rfl, later⟩
            · cases wrong
            · rcases List.cons_eq_append_iff.mp later with ⟨rfl, _⟩ | ⟨gap, rfl, _⟩
              · -- the carriage return would end the first line
                have blank := bareLine.2 '\r' (by simp [whole])
                cases blank
              · exact single (by simp [whole])
          · rcases List.cons_eq_append_iff.mp behind with ⟨_, wrong⟩ | ⟨gap, rfl, later⟩
            · cases wrong
            · exact ih others bareOthers ⟨gap, after, by rw [List.append_assoc, ← later]; rfl⟩

theorem layout_of_lines (separator : List Char) (some : lines ≠ [])
    (one_line : ∀ line ∈ lines, '\n' ∉ line) (bare : ∀ line ∈ lines, Bare line) :
    layoutLines separator (join ['\n'] lines) =
      compact ((setLines (trim separator) (dropSurplus false
        (parted .newline (lines.map (ofLine (trim separator)))))).map
          (cleanLine (trim separator))) := by
  unfold layoutLines
  dsimp only
  rw [replace_word_free (return_free one_line bare), tokens, split_joined some one_line]
  rfl

/-! ### The lines that are set -/

theorem lines_of_parted {parts : List (List Token)} (some : parts ≠ [])
    (one_line : ∀ line ∈ parts, Token.newline ∉ line) :
    linesOf (parted .newline parts) = parts := by
  rw [linesOf, parted_eq, List.splitOn_intercalate Token.newline one_line some]

theorem parted_without_newlines {parts : List (List Token)}
    (one_line : ∀ line ∈ parts, Token.newline ∉ line) :
    (parted .newline parts).filter (· ≠ .newline) = parts.flatten := by
  have kept : ∀ line ∈ parts, line.filter (· ≠ .newline) = line := by
    intro line member
    apply List.filter_eq_self.mpr
    intro token inside
    exact decide_eq_true fun same => one_line line member (same ▸ inside)
  fun_induction parted .newline parts with
  | case1 => rfl
  | case2 part => simpa using kept
  | case3 part next parts ih =>
      obtain ⟨first, others⟩ := List.forall_mem_cons.mp kept
      obtain ⟨_, apart⟩ := List.forall_mem_cons.mp one_line
      rw [List.filter_append, first, List.filter_cons_of_neg (by decide), ih apart others]
      rfl

theorem parted_lines (list : List Token) : parted .newline (linesOf list) = list := by
  rw [parted_eq, linesOf, List.intercalate_splitOn]

theorem lines_one_line {list line : List Token} (member : line ∈ linesOf list) :
    Token.newline ∉ line := split_on_parts member

theorem lines_inside {list line : List Token} (member : line ∈ linesOf list) : line <:+: list := by
  have inside := infix_intercalate [Token.newline] member
  rwa [linesOf, List.intercalate_splitOn] at inside

def kept (mark text : List Char) : List Token := dropSurplus false (tokens mark text)

theorem well_set_kept {line : List Token} (member : line ∈ linesOf (kept mark text)) :
    WellSet mark line where
  one_line := lines_one_line member
  spaced := by
    obtain ⟨spaced, -⟩ := drop_surplus_spaced false (spaced_tokens mark text)
    exact List.IsChain.infix spaced (lines_inside member)
  proper := by
    intro token inside
    exact proper_tokens mark text token
      ((drop_surplus_sublist false _).subset ((lines_inside member).subset inside))

theorem settled_tidy (mark text : List Char) :
    Settled false ((linesOf (kept mark text)).flatMap tidy) := by
  have settled := settled_without_newlines.mpr (drop_surplus_settled false (tokens mark text))
  change Settled false ((kept mark text).filter _) at settled
  rw [← parted_lines (kept mark text), parted_without_newlines fun _ => lines_one_line] at settled
  obtain ⟨taken, contents⟩ := tidy_lines (linesOf (kept mark text))
  exact settled.thin taken contents

/-! ### The second time -/

/-- A line of a layout: it is read back as the tokens it was set from, and cleaning leaves it. -/
structure Finished (mark line : List Char) : Prop where
  one_line : '\n' ∉ line
  bare : Bare line
  read : setLine mark (ofLine mark line) = line
  clean : cleanLine mark line = line
  tokens : Token.newline ∉ ofLine mark line

theorem set_line_one_line : ∀ line : List Token, WellSet mark line → '\n' ∉ setLine mark line := by
  intro line well
  fun_induction setLine mark line with
  | case1 => exact List.not_mem_nil
  | case2 rest _ => exact absurd (List.mem_cons_self ..) well.one_line
  | case3 text rest ih =>
      have piece : Piece mark text := well.proper (.content text) (List.mem_cons_self ..)
      simpa [piece.one_line] using ih well.tail
  | case4 text rest ih =>
      have proper : mark ≠ [] ∧ '\n' ∉ mark := well.proper .separator (List.mem_cons_self ..)
      simpa [proper.2] using ih well.tail
  | case5 rest _ ih =>
      have proper : mark ≠ [] ∧ '\n' ∉ mark := well.proper .separator (List.mem_cons_self ..)
      simpa [proper.2] using ih well.tail

theorem WellSet.finished {line : List Token} (readable : Readable mark) (well : WellSet mark line) :
    Finished mark (setLine mark (Layout.tidy line)) where
  one_line := set_line_one_line _ well.tidy
  bare := set_line_bare readable.bare _ well.tidy
  read := by rw [of_line_set readable _ well.tidy]
  clean := by rw [← clean_line_set readable well, clean_line_twice]
  tokens := by
    rw [of_line_set readable _ well.tidy]
    exact well.tidy.one_line

theorem cleaned_lines (readable : Readable mark) (text : List Char) :
    (setLines mark (kept mark text)).map (cleanLine mark) =
      (linesOf (kept mark text)).map fun line => setLine mark (tidy line) := by
  rw [set_lines_eq, List.map_map]
  apply List.map_congr_left
  intro line member
  exact clean_line_set readable (well_set_kept member)

/-- What is read from a layout are the tokens kept, without the separators that stand alone. -/
theorem layout_read (readable : Readable mark) (text : List Char) :
    (compact ((setLines mark (kept mark text)).map (cleanLine mark))).flatMap (ofLine mark) =
      (linesOf (kept mark text)).flatMap tidy := by
  have read : ∀ tokens ∈ linesOf (kept mark text),
      ofLine mark (setLine mark (tidy tokens)) = tidy tokens :=
    fun tokens inside => of_line_set readable _ (well_set_kept inside).tidy
  rw [compact_flat_map (ofLine mark) (of_line_free nowhere), cleaned_lines readable text,
    List.flatMap_map, List.flatMap_congr read]

theorem layout_finished (readable : Readable mark) (text : List Char) :
    let lines := compact ((setLines mark (kept mark text)).map (cleanLine mark))
    (∀ line ∈ lines, Finished mark line) ∧ Settled false (lines.flatMap (ofLine mark)) := by
  intro lines
  constructor
  · intro line member
    have among := (compact_sublist _).subset member
    rw [cleaned_lines readable text] at among
    obtain ⟨tokens, inside, rfl⟩ := List.mem_map.mp among
    exact (well_set_kept inside).finished readable
  · unfold lines
    rw [layout_read readable text]
    exact settled_tidy mark text

theorem finished_one_line (finished : ∀ line ∈ lines, Finished mark line) :
    ∀ line ∈ lines.map (ofLine mark), Token.newline ∉ line := by
  intro line member
  obtain ⟨text, inside, rfl⟩ := List.mem_map.mp member
  exact (finished text inside).tokens

theorem settled_lines (finished : ∀ line ∈ lines, Finished mark line)
    (settled : Settled false (lines.flatMap (ofLine mark))) :
    Settled false (parted .newline (lines.map (ofLine mark))) := by
  rw [← settled_without_newlines, parted_without_newlines (finished_one_line finished)]
  exact settled

theorem set_again (some : lines ≠ []) (finished : ∀ line ∈ lines, Finished mark line)
    (settled : Settled false (lines.flatMap (ofLine mark))) :
    (setLines mark (dropSurplus false (parted .newline (lines.map (ofLine mark))))).map
      (cleanLine mark) = lines := by
  rw [(settled_lines finished settled).drop_surplus, set_lines_eq,
    lines_of_parted (by simpa using some) (finished_one_line finished), List.map_map, List.map_map]
  calc lines.map (cleanLine mark ∘ setLine mark ∘ ofLine mark)
      = lines.map id := List.map_congr_left fun line member => by
        have set := finished line member
        simp only [Function.comp_apply, set.read, set.clean, id]
    _ = lines := List.map_id lines

theorem layout_nil (separator : List Char) : layoutLines separator [] = [] := by
  have laid := @layout_of_lines [[]] separator (List.cons_ne_nil _ _) (by simp)
    (by simp [bare_nil])
  have blank : cleanLine (trim separator) [] = [] := by
    simp only [cleanLine]
    split <;> rfl
  rw [List.map_singleton, of_line_free nowhere] at laid
  simp only [join] at laid
  rw [laid]
  change compact [cleanLine (trim separator) []] = []
  rw [blank]
  rfl

/-- With a readable mark, laying out a finished text changes nothing. -/
theorem layout_again (readable : Readable (trim separator)) (text : List Char) :
    normalizeChars separator (normalizeChars separator text) = normalizeChars separator text := by
  obtain ⟨finished, settled⟩ :=
    layout_finished readable (replaceWord ['\r', '\n'] ['\n'] text)
  change (∀ line ∈ layoutLines separator text, _) at finished
  change Settled false ((layoutLines separator text).flatMap _) at settled
  by_cases none : layoutLines separator text = []
  · unfold normalizeChars
    rw [none]
    exact congrArg (join ['\n']) (layout_nil separator)
  · unfold normalizeChars
    rw [layout_of_lines separator none (fun line member => (finished line member).one_line)
      (fun line member => (finished line member).bare), set_again none finished settled]
    congr 1
    exact compact_twice _

/-! ### Marks that overlap themselves -/

/-- A bare mark that overlaps itself: its front is followed by what it begins with. -/
structure Overlap (mark front back rest : List Char) : Prop where
  split : front ++ back = mark
  again : back ++ rest = mark
  some : front ≠ []
  filled : back ≠ []
  trimmed : trimEnd front = front
  bare : Bare mark

namespace Overlap

variable {front back rest : List Char} (overlap : Overlap mark front back rest)

include overlap

theorem front_bare : Bare front := by
  constructor
  · intro c first
    exact overlap.bare.1 c (overlap.split ▸ List.mem_head?_append_of_mem_head? first)
  · intro c last
    obtain ⟨some, rfl⟩ := List.mem_getLast?_eq_getLast last
    have trimmed := overlap.trimmed
    rw [trim_end_eq] at trimmed
    exact eq_false_of_ne_true (List.rdropWhile_eq_self_iff.mp trimmed some)

theorem front_shorter : front.length < mark.length := by
  rw [← overlap.split, List.length_append]
  exact Nat.lt_add_of_pos_right (List.length_pos_iff.mpr overlap.filled)

theorem front_length : front.length = rest.length := by
  have split := congrArg List.length overlap.split
  have again := congrArg List.length overlap.again
  simp only [List.length_append] at split again
  omega

theorem twice_long : 1 < mark.length := by
  have some := List.length_pos_iff.mpr overlap.some
  have shorter := overlap.front_shorter
  omega

/-- Behind as many blanks as the mark is long, the mark is found where it is written. -/
theorem late_behind_blanks : ¬ Early mark (front ++ List.replicate mark.length ' ') := by
  rintro ⟨before, behind, joined, some, start⟩
  rcases List.append_eq_append_iff.mp joined with ⟨gap, whole, rfl⟩ | ⟨gap, _, blanks⟩
  · -- the mark would end in the blanks
    have shorter : gap.length < mark.length := by
      have bound := overlap.front_shorter
      rw [whole, List.length_append] at bound
      omega
    rw [List.append_assoc] at start
    obtain ⟨last, ended⟩ := List.prefix_of_prefix_length_le (List.prefix_append gap _) start
      (Nat.le_of_lt shorter)
    have filled : last ≠ [] := by
      rintro rfl
      rw [List.append_nil] at ended
      exact absurd shorter (by rw [ended]; exact Nat.lt_irrefl _)
    have inside : last <+: List.replicate mark.length ' ' := by
      nth_rewrite 1 [← ended] at start
      refine List.prefix_of_prefix_length_le ((List.prefix_append_right_inj gap).mp start)
        (List.prefix_append _ mark) ?_
      rw [List.length_replicate, ← ended, List.length_append]
      exact Nat.le_add_left ..
    have blank : last.getLast filled = ' ' :=
      List.eq_of_mem_replicate (inside.subset (List.getLast_mem filled))
    have ending : last.getLast filled ∈ mark.getLast? := by
      rw [← ended, List.getLast?_append_of_ne_nil _ filled, List.getLast?_eq_some_getLast filled]
      rfl
    have bare := overlap.bare.2 _ ending
    rw [blank] at bare
    cases bare
  · -- the mark would begin in the blanks
    obtain ⟨c, more, rfl⟩ := List.exists_cons_of_ne_nil some
    have blank : c = ' ' := by
      apply List.eq_of_mem_replicate (n := mark.length)
      rw [blanks]
      simp
    obtain ⟨first, others, rfl⟩ := List.exists_cons_of_ne_nil
      (List.length_pos_iff.mp (Nat.lt_trans Nat.zero_lt_one overlap.twice_long))
    have bare := overlap.bare.1 first rfl
    rw [(List.cons_prefix_cons.mp start).1, blank] at bare
    cases bare

theorem mark_some : mark ≠ [] :=
  List.length_pos_iff.mp (Nat.lt_trans Nat.zero_lt_one overlap.twice_long)

theorem lead_piece (one_line : '\n' ∉ mark) : Piece mark (mark.take 1) where
  some := by simpa using overlap.mark_some
  bare := by
    obtain ⟨first, others, rfl⟩ := List.exists_cons_of_ne_nil overlap.mark_some
    have filled : isBlank first = false := overlap.bare.1 first rfl
    exact ⟨by simpa using filled, by simpa using filled⟩
  one_line := fun wrong => one_line ((List.take_sublist 1 mark).subset wrong)
  free := by
    intro _ inside
    have long := inside.length_le
    have twice := overlap.twice_long
    rw [List.length_take] at long
    omega

theorem lead_short : mark.take 1 ≠ mark := by
  intro same
  have lengths := congrArg List.length same
  have twice := overlap.twice_long
  rw [List.length_take] at lengths
  omega

theorem front_line (one_line : '\n' ∉ mark) : '\n' ∉ front := by
  intro wrong
  exact one_line (overlap.split ▸ List.mem_append_left back wrong)

theorem rest_free : mark ≠ [] → ¬ mark <:+: rest := by
  intro _ inside
  have long := inside.length_le
  rw [← overlap.front_length] at long
  exact absurd overlap.front_shorter (Nat.not_lt.mpr long)

end Overlap

theorem clean_line_other {line : List Char} (bare : Bare line) (other : line ≠ mark) :
    cleanLine mark line = line := by
  simp only [cleanLine, bare.trim]
  rw [if_neg other]

theorem layout_of_two {first second : List Char} (separated : trim separator = mark)
    (bare : Bare first) (bareSecond : Bare second) (one_line : '\n' ∉ first)
    (one_line_second : '\n' ∉ second) :
    layoutLines separator (join ['\n'] [first, second]) =
      compact ((setLines mark
        (dropSurplus false (ofLine mark first ++ .newline :: ofLine mark second))).map
          (cleanLine mark)) := by
  rw [← separated]
  exact layout_of_lines separator (List.cons_ne_nil _ _) (by simp [one_line, one_line_second])
    (by simp [bare, bareSecond])

namespace Overlap

variable {front back rest : List Char} (overlap : Overlap mark front back rest)
  (one_line : '\n' ∉ mark) (separated : trim separator = mark)

include overlap one_line separated

/-- Set apart from the mark by blanks, the front of an overlapping mark is moved next to it. -/
theorem first_layout :
    layoutLines separator (join ['\n'] [front ++ List.replicate mark.length ' ' ++ mark,
      mark.take 1]) = [front ++ mark, mark.take 1] := by
  have lead := overlap.lead_piece one_line
  have read : ofLine mark (front ++ List.replicate mark.length ' ' ++ mark) =
      [.content front, .separator] := by
    have cut := of_line_first overlap.late_behind_blanks overlap.mark_some []
    rw [List.append_nil, of_line_free nowhere, ofPiece,
      trim_append_blanks front (by simp [isBlank]), overlap.front_bare.trim] at cut
    rw [cut]
    split
    · exact absurd rfl overlap.some
    · rfl
  have front_bare_mark := overlap.front_bare.append overlap.bare
  have moved : front ++ mark ≠ mark := by
    intro same
    have lengths := congrArg List.length same
    have some := List.length_pos_iff.mpr overlap.some
    rw [List.length_append] at lengths
    omega
  have set : setLines mark (dropSurplus false
      [.content front, .separator, .newline, .content (mark.take 1)]) =
        [front ++ mark, mark.take 1] := by
    simp [dropSurplus, Token.isContent, setLines, inFront]
  rw [layout_of_two separated
      (overlap.front_bare.around overlap.bare overlap.some overlap.mark_some _) lead.bare
      (by simpa [overlap.front_line one_line] using one_line) lead.one_line,
    read, of_line_free lead.free, of_piece_bare lead.bare lead.some]
  change compact ((setLines mark (dropSurplus false
    [.content front, .separator, .newline, .content (mark.take 1)])).map (cleanLine mark)) = _
  rw [set, List.map_cons, List.map_singleton, clean_line_other front_bare_mark moved,
    clean_line_other lead.bare overlap.lead_short]
  simp [compact, dropRepeatedBlanks, dropLastBlanks, overlap.some, overlap.mark_some]

/-- Read again, the mark is found at the front, where it parts nothing. -/
theorem second_layout :
    layoutLines separator (join ['\n'] [front ++ mark, mark.take 1]) =
      compact [trim rest, mark.take 1] := by
  have lead := overlap.lead_piece one_line
  have read : ofLine mark (front ++ mark) = .separator :: ofPiece rest := by
    have cut := of_line_first not_early_nil overlap.mark_some rest
    rw [of_line_free overlap.rest_free] at cut
    have early : front ++ mark = [] ++ (mark ++ rest) := by
      conv_lhs => rw [← overlap.again, ← List.append_assoc, overlap.split]
      rfl
    rw [early, cut]
    rfl
  have dropped : setLines mark (dropSurplus false
      (.separator :: ofPiece rest ++ [.newline, .content (mark.take 1)])) =
        [trim rest, mark.take 1] := by
    rcases filled : trim rest with _ | ⟨c, more⟩
    · simp [ofPiece, filled, dropSurplus, setLines, inFront]
    · simp [ofPiece, filled, dropSurplus, setLines, inFront]
  have short : trim rest ≠ mark := by
    intro same
    have lengths := trim_length_le rest
    rw [same, ← overlap.front_length] at lengths
    exact absurd overlap.front_shorter (Nat.not_lt.mpr lengths)
  rw [layout_of_two separated (overlap.front_bare.append overlap.bare) lead.bare
      (by simpa [overlap.front_line one_line] using one_line) lead.one_line,
    read, of_line_free lead.free, of_piece_bare lead.bare lead.some, dropped, List.map_cons,
    List.map_singleton, clean_line_other (trim_bare rest) short,
    clean_line_other lead.bare overlap.lead_short]

theorem layout_changes : ∃ text,
    normalizeChars separator (normalizeChars separator text) ≠ normalizeChars separator text := by
  refine ⟨join ['\n'] [front ++ List.replicate mark.length ' ' ++ mark, mark.take 1], ?_⟩
  unfold normalizeChars
  rw [overlap.first_layout one_line separated, overlap.second_layout one_line separated]
  intro same
  have laid : compact [trim rest, mark.take 1] = [mark.take 1] ∨
      compact [trim rest, mark.take 1] = [trim rest, mark.take 1] := by
    rcases trim rest with _ | ⟨c, more⟩
    · left
      simp [compact, dropRepeatedBlanks, dropLastBlanks, overlap.mark_some]
    · right
      simp [compact, dropRepeatedBlanks, dropLastBlanks, overlap.mark_some]
  have trimmed := trim_length_le rest
  have lengths := congrArg List.length same
  have twice := overlap.twice_long
  have front_length := overlap.front_length
  rcases laid with laid | laid
  all_goals
    rw [laid] at lengths
    simp only [join, List.length_append, List.length_singleton, List.length_take] at lengths
    omega

end Overlap

/-- Laying out is idempotent for a separator exactly when it does not overlap itself, or is never
found on a line. -/
theorem normalize_idempotent_iff (separator : String) :
    (∀ text, normalize (normalize text separator) separator = normalize text separator) ↔
      '\n' ∈ trim separator.toList ∨ ¬ Overlaps (trim separator.toList) := by
  constructor
  · intro idempotent
    by_contra broken
    obtain ⟨one_line, overlaps⟩ := not_or.mp broken
    obtain ⟨front, back, some, filled, split, ⟨rest, again⟩, trimmed⟩ := not_not.mp overlaps
    have overlap : Overlap (trim separator.toList) front back rest :=
      ⟨split, again, some, filled, trimmed, trim_bare _⟩
    obtain ⟨text, changes⟩ := overlap.layout_changes one_line rfl
    have same := congrArg String.toList (idempotent (String.ofList text))
    simp only [normalize, String.toList_ofList] at same
    exact changes same
  · intro apart text
    have again := layout_again ⟨trim_bare separator.toList, apart⟩ text.toList
    simp only [normalize, String.toList_ofList]
    rw [again]

/-- The second dash of `--` can begin a second mark: a dash before the mark is read into it. -/
theorem double_dash_moves : ¬ ∀ text separator,
    normalize (normalize text separator) separator = normalize text separator := by
  intro idempotent
  exact absurd (idempotent "a- -- b" "--") (by decide +kernel)

end PromptLoom.Text.Layout
