import Mathlib.Data.List.Basic
import PromptLoom.Placeholder

/-!
# Braces and the edges of texts

A placeholder holds no brace between its two. So where texts are written one behind another, the
placeholders of the whole are those of each text, and at every edge at most one more: the last brace
of the text before the edge may be an opening one, and the first brace behind the edge may close it.
-/

namespace PromptLoom

open Text

set_option autoImplicit false

section Spans

variable {p : Char → Bool} {stop : Char} {text : List Char}

theorem Text.span_stops (inside : stop ∈ text) (ends : p stop = false) (more : List Char) :
    (text ++ more).takeWhile p = text.takeWhile p ∧
      (text ++ more).dropWhile p = text.dropWhile p ++ more ∧ stop ∈ text.dropWhile p := by
  induction text with
  | nil => cases inside
  | cons c rest ih =>
      cases passes : p c with
      | false => simp [passes, inside]
      | true =>
          have later : stop ∈ rest := by
            rcases List.mem_cons.mp inside with rfl | later
            · rw [ends] at passes
              cases passes
            · exact later
          obtain ⟨taken, dropped, kept⟩ := ih later
          simp [passes, taken, dropped, kept]

end Spans

/-- No name and no selector goes past a brace. -/
def Text.isBrace (c : Char) : Bool := c == '{' || c == '}'

theorem Text.brace_stops {brace : Char} (isOne : isBrace brace = true) :
    isIdentStart brace = false ∧ isIdentRest brace = false ∧
      Placeholder.isSelectorChar brace = false := by
  have either : brace = '{' ∨ brace = '}' := by simpa [isBrace] using isOne
  rcases either with rfl | rfl <;> decide

section Braced

variable {brace : Char} (isOne : isBrace brace = true) {text : List Char} (inside : brace ∈ text)

include isOne inside

theorem Text.take_ident_append (more : List Char) :
    takeIdent (text ++ more) = (takeIdent text).map (fun (name, rest) => (name, rest ++ more)) ∧
      ∀ name rest, takeIdent text = some (name, rest) → brace ∈ rest := by
  obtain ⟨noStart, noRest, -⟩ := brace_stops isOne
  cases text with
  | nil => cases inside
  | cons c tail =>
      cases starts : isIdentStart c with
      | false => simp [takeIdent, starts]
      | true =>
          have later : brace ∈ tail := by
            rcases List.mem_cons.mp inside with rfl | later
            · cases noStart.symm.trans starts
            · exact later
          obtain ⟨taken, dropped, kept⟩ := span_stops later noRest more
          simp only [takeIdent, starts, List.cons_append, if_true, taken, dropped, Option.map_some,
            true_and]
          intro name rest found
          obtain ⟨-, rfl⟩ := Prod.mk.inj (Option.some.inj found)
          exact kept

end Braced

theorem Text.take_dotted_none {text : List Char} (nothing : takeIdent text = none) :
    takeDotted text = none := by
  rw [takeDotted]
  split
  · rfl
  · next found => cases nothing.symm.trans found
  · next found => cases nothing.symm.trans found

theorem Text.take_dotted_plain {text name rest : List Char}
    (ident : takeIdent text = some (name, rest)) (plain : ∀ tail, rest ≠ '.' :: tail) :
    takeDotted text = some (name, rest) := by
  rw [takeDotted]
  split
  · next found => cases found.symm.trans ident
  · next found =>
      obtain ⟨-, rfl⟩ := Prod.mk.inj (Option.some.inj (found.symm.trans ident))
      exact absurd rfl (plain _)
  · next found => exact found.symm.trans ident

theorem Text.take_dotted_dot {text name rest : List Char}
    (ident : takeIdent text = some (name, '.' :: rest)) :
    takeDotted text = some (match takeDotted rest with
      | some (names, after) => (name ++ '.' :: names, after)
      | none => (name, '.' :: rest)) := by
  rw [takeDotted]
  split
  · next found => cases found.symm.trans ident
  · next found =>
      obtain ⟨rfl, same⟩ := Prod.mk.inj (Option.some.inj (found.symm.trans ident))
      obtain rfl := List.tail_eq_of_cons_eq same
      rcases takeDotted _ with _ | ⟨names, after⟩
      · rfl
      · rfl
  · next plain found =>
      obtain ⟨-, rfl⟩ := Prod.mk.inj (Option.some.inj (found.symm.trans ident))
      exact absurd rfl (plain _)

theorem Text.take_dotted_append {brace : Char} (isOne : isBrace brace = true) {text : List Char}
    (inside : brace ∈ text) (more : List Char) :
    takeDotted (text ++ more) = (takeDotted text).map (fun (name, rest) => (name, rest ++ more)) ∧
      ∀ name rest, takeDotted text = some (name, rest) → brace ∈ rest := by
  -- the induction follows the identifiers between the dots
  induction size : text.length using Nat.strongRecOn generalizing text with
  | ind bound ih =>
      obtain ⟨again, kept⟩ := take_ident_append isOne inside more
      rcases ident : takeIdent text with _ | ⟨name, rest⟩
      · rw [ident] at again
        simp [take_dotted_none again, take_dotted_none ident]
      rw [ident] at again
      have behind := kept name rest ident
      have shorter := take_ident_length ident
      by_cases dotted : ∃ tail, rest = '.' :: tail
      · obtain ⟨tail, rfl⟩ := dotted
        have later : brace ∈ tail := by
          rcases List.mem_cons.mp behind with rfl | later
          · cases isOne
          · exact later
        simp only [List.length_cons] at shorter
        obtain ⟨deeper, deeperKept⟩ := ih tail.length (by omega) later rfl
        have joined : takeIdent (text ++ more) = some (name, '.' :: (tail ++ more)) := again
        rw [take_dotted_dot ident, take_dotted_dot joined, deeper]
        rcases found : takeDotted tail with _ | ⟨names, after⟩
        · simp [later]
        · simp [deeperKept names after found]
      · have plain : ∀ tail, rest ≠ '.' :: tail := fun tail same => dotted ⟨tail, same⟩
        have plainStill : ∀ tail, rest ++ more ≠ '.' :: tail := by
          cases rest with
          | nil => cases behind
          | cons c tail =>
              intro other same
              exact plain tail (by rw [List.head_eq_of_cons_eq same])
        rw [take_dotted_plain ident plain, take_dotted_plain again plainStill]
        simp [behind]

namespace Placeholder

/-- What may stand behind the name of a placeholder: a brace, or a selector in brackets and then a
brace. -/
def ending? : List Char → Option (Option (List Char) × List Char)
  | '}' :: rest => some (none, rest)
  | '[' :: more =>
      match more.dropWhile isSelectorChar with
      | ']' :: '}' :: rest => some (some (more.takeWhile isSelectorChar), rest)
      | _ => none
  | _ => none

theorem read?_eq (inside : List Char) : read? ('{' :: inside) =
    (takeDotted inside).bind fun (name, rest) => (ending? rest).map fun (selector, after) =>
      (⟨String.ofList name, selector.map String.ofList⟩, after) := by
  simp only [read?]
  rcases takeDotted inside with _ | ⟨name, rest⟩
  · rfl
  rw [Option.bind_some]
  cases rest with
  | nil => rfl
  | cons c tail =>
      by_cases brace : c = '}'
      · subst brace
        rfl
      by_cases bracket : c = '['
      · subst bracket
        simp only [ending?]
        generalize tail.dropWhile isSelectorChar = behind
        cases behind with
        | nil => rfl
        | cons d more =>
            by_cases closing : d = ']'
            · subst closing
              cases more with
              | nil => rfl
              | cons e after =>
                  by_cases final : e = '}'
                  · subst final
                    rfl
                  · simp [final]
            · simp [closing]
      · simp [ending?, brace, bracket]

theorem ending?_append {brace : Char} (isOne : isBrace brace = true) {text : List Char}
    (inside : brace ∈ text) (more : List Char) :
    ending? (text ++ more) =
      (ending? text).map fun (selector, rest) => (selector, rest ++ more) := by
  cases text with
  | nil => cases inside
  | cons c tail =>
      by_cases closing : c = '}'
      · subst closing
        rfl
      by_cases bracket : c = '['
      · subst bracket
        have later : brace ∈ tail := by
          rcases List.mem_cons.mp inside with rfl | later
          · cases isOne
          · exact later
        obtain ⟨taken, dropped, kept⟩ :=
          span_stops later (brace_stops isOne).2.2 more
        simp only [List.cons_append, ending?, taken, dropped]
        generalize tail.dropWhile isSelectorChar = behind at kept
        cases behind with
        | nil => cases kept
        | cons d rest =>
            by_cases bracketed : d = ']'
            · subst bracketed
              have last : brace ∈ rest := by
                rcases List.mem_cons.mp kept with rfl | last
                · cases isOne
                · exact last
              cases rest with
              | nil => cases last
              | cons e after =>
                  by_cases final : e = '}'
                  · subst final
                    rfl
                  · simp [final]
            · simp [bracketed]
      · simp [ending?, closing, bracket]

theorem read?_up_to_brace {brace : Char} (isOne : isBrace brace = true) {text : List Char}
    (inside : brace ∈ text) (more : List Char) :
    read? ('{' :: text ++ more) =
      (read? ('{' :: text)).map fun (found, rest) => (found, rest ++ more) := by
  obtain ⟨again, kept⟩ := take_dotted_append isOne inside more
  rw [List.cons_append, read?_eq, read?_eq, again]
  rcases dotted : takeDotted text with _ | ⟨name, rest⟩
  · rfl
  have behind := kept name rest dotted
  simp only [Option.map_some, Option.bind_some, ending?_append isOne behind, Option.map_map]
  rfl

theorem read?_opens {c : Char} (other : c ≠ '{') (rest : List Char) : read? (c :: rest) = none := by
  simp [read?, other]

end Placeholder

inductive Text.Dotted : List Char → Prop where
  | single {name : List Char} (ident : isIdent name = true) : Dotted name
  | dot {name names : List Char} (ident : isIdent name = true) (others : Dotted names) :
      Dotted (name ++ '.' :: names)

theorem Text.take_dotted_dotted {text name rest : List Char}
    (found : takeDotted text = some (name, rest)) : Dotted name := by
  fun_induction takeDotted text generalizing name rest with
  | case1 => cases found
  | case2 text first tail ident shorter names after deeper ih =>
      obtain ⟨rfl, rfl⟩ := Prod.mk.inj (Option.some.inj found)
      exact .dot (take_ident_is_ident ident) (ih deeper)
  | case3 text first tail ident shorter none ih =>
      obtain ⟨rfl, rfl⟩ := Prod.mk.inj (Option.some.inj found)
      exact .single (take_ident_is_ident ident)
  | case4 text first tail notDot ident =>
      obtain ⟨rfl, rfl⟩ := Prod.mk.inj (Option.some.inj found)
      exact .single (take_ident_is_ident ident)

theorem Text.ident_without_braces {name : List Char} (ident : isIdent name = true) :
    ∀ c ∈ name, isBrace c = false := by
  intro c member
  by_contra isOne
  obtain ⟨noStart, noRest, -⟩ := brace_stops (eq_true_of_ne_false isOne)
  cases name with
  | nil => cases member
  | cons first rest =>
      obtain ⟨starts, others⟩ := Bool.and_eq_true_iff.mp ident
      rcases List.mem_cons.mp member with rfl | later
      · cases noStart.symm.trans starts
      · cases noRest.symm.trans (List.all_eq_true.mp others c later)

theorem Text.Dotted.without_braces {name : List Char} (dotted : Dotted name) :
    ∀ c ∈ name, isBrace c = false := by
  induction dotted with
  | single ident => exact ident_without_braces ident
  | dot ident others ih =>
      intro c member
      rcases List.mem_append.mp member with own | behind
      · exact ident_without_braces ident c own
      · rcases List.mem_cons.mp behind with rfl | later
        · rfl
        · exact ih c later

theorem Placeholder.read?_braces {text rest : List Char} {placeholder : Placeholder}
    (found : read? text = some (placeholder, rest)) :
    ∃ inside, text = '{' :: (inside ++ '}' :: rest) ∧ ∀ c ∈ inside, isBrace c = false := by
  cases text with
  | nil => cases found
  | cons c tail =>
      obtain rfl : c = '{' := by
        by_contra other
        cases (read?_opens other tail).symm.trans found
      rw [read?_eq] at found
      obtain ⟨⟨name, behind⟩, dotted, ended⟩ := Option.bind_eq_some_iff.mp found
      obtain ⟨⟨selector, after⟩, ending, same⟩ := Option.map_eq_some_iff.mp ended
      obtain ⟨-, rfl⟩ := Prod.mk.inj same
      have plain := (take_dotted_dotted dotted).without_braces
      rw [take_dotted_parts dotted]
      unfold ending? at ending
      split at ending
      · next more =>
          obtain ⟨-, rfl⟩ := Prod.mk.inj (Option.some.inj ending)
          exact ⟨name, rfl, plain⟩
      · next more =>
          split at ending
          · next closed =>
              obtain ⟨-, rfl⟩ := Prod.mk.inj (Option.some.inj ending)
              refine ⟨name ++ '[' :: (more.takeWhile isSelectorChar ++ [']']), ?_, ?_⟩
              · conv_lhs => rw [← List.takeWhile_append_dropWhile (p := isSelectorChar) (l := more)]
                rw [closed]
                simp
              · intro c member
                simp only [List.mem_append, List.mem_cons, List.not_mem_nil, or_false] at member
                rcases member with own | rfl | chosen | rfl
                · exact plain c own
                · rfl
                · by_contra isOne
                  have stops := (brace_stops (eq_true_of_ne_false isOne)).2.2
                  cases stops.symm.trans (List.all_eq_true.mp List.all_takeWhile c chosen)
                · rfl
          · cases ending
      · cases ending

theorem Piece.of_chars_read {text rest : List Char} {first : Placeholder}
    (found : Placeholder.read? text = some (first, rest)) :
    ofChars text = .placeholder first :: ofChars rest := by
  rw [ofChars]
  split
  · next other =>
      obtain ⟨rfl, rfl⟩ := Prod.mk.inj (Option.some.inj (other.symm.trans found))
      rfl
  · next none => cases none.symm.trans found

theorem Piece.of_chars_char {c : Char} {rest : List Char}
    (none : Placeholder.read? (c :: rest) = none) : ofChars (c :: rest) = .char c :: ofChars rest := by
  rw [ofChars]
  split
  · next found => cases none.symm.trans found
  · rfl

def Text.placeholdersIn (text : List Char) : List Placeholder :=
  (Piece.ofChars text).filterMap Piece.placeholder?

theorem placeholders_of_list (text : List Char) :
    placeholders (String.ofList text) = Text.placeholdersIn text := by
  rw [placeholders, Piece.ofText, String.toList_ofList, Text.placeholdersIn]

theorem Text.placeholders_in_nil : placeholdersIn [] = [] := by
  simp [placeholdersIn, Piece.ofChars, Placeholder.read?]

theorem Text.placeholders_in_read {text rest : List Char} {first : Placeholder}
    (found : Placeholder.read? text = some (first, rest)) :
    placeholdersIn text = first :: placeholdersIn rest := by
  rw [placeholdersIn, Piece.of_chars_read found]
  rfl

theorem Text.placeholders_in_char {c : Char} {rest : List Char}
    (none : Placeholder.read? (c :: rest) = none) :
    placeholdersIn (c :: rest) = placeholdersIn rest := by
  rw [placeholdersIn, Piece.of_chars_char none]
  rfl

theorem Text.placeholders_in_unopened {front : List Char} (unopened : '{' ∉ front)
    (rest : List Char) : placeholdersIn (front ++ rest) = placeholdersIn rest := by
  induction front with
  | nil => rfl
  | cons c front ih =>
      obtain ⟨other, later⟩ := List.ne_and_not_mem_of_not_mem_cons unopened
      rw [List.cons_append, placeholders_in_char (Placeholder.read?_opens (Ne.symm other) _)]
      exact ih later

/-! ### What a text leaves open -/

/-- The text from its last brace on, if that one is an opening brace. -/
def Text.openEnd : List Char → Option (List Char)
  | [] => none
  | c :: rest => if c = '{' ∧ rest.any isBrace = false then some (c :: rest) else openEnd rest

theorem Text.open_end_behind_close (front rest : List Char) :
    openEnd (front ++ '}' :: rest) = openEnd rest := by
  induction front with
  | nil => simp [openEnd]
  | cons c front ih =>
      have closed : (front ++ '}' :: rest).any isBrace = true := by simp [isBrace]
      rw [List.cons_append, openEnd, closed, if_neg (fun open_ => nomatch open_.2), ih]

theorem Text.open_end_eq_some {text start : List Char} (found : openEnd text = some start) :
    ∃ inside, start = '{' :: inside ∧ start <:+ text ∧ ∀ c ∈ inside, isBrace c = false := by
  induction text with
  | nil => cases found
  | cons c rest ih =>
      unfold openEnd at found
      split at found
      · next last =>
          obtain ⟨rfl, plain⟩ := last
          obtain rfl := Option.some.inj found
          exact ⟨rest, rfl, List.suffix_rfl, by simpa using plain⟩
      · obtain ⟨inside, begins, stands, plain⟩ := ih found
        exact ⟨inside, begins, stands.trans (List.suffix_cons c rest), plain⟩

/-- The placeholder from a brace that one text leaves open to a brace of the text behind it. -/
def Text.straddling (text behind : List Char) : Option Placeholder :=
  (openEnd text).bind fun start => (Placeholder.read? (start ++ behind)).map Prod.fst

theorem Text.read_across {inside behind rest : List Char} {found : Placeholder}
    (plain : ∀ c ∈ inside, isBrace c = false)
    (read : Placeholder.read? ('{' :: (inside ++ behind)) = some (found, rest)) :
    ∃ front, behind = front ++ '}' :: rest ∧ ∀ c ∈ front, isBrace c = false := by
  obtain ⟨between, whole, clear⟩ := Placeholder.read?_braces read
  rcases List.append_eq_append_iff.mp (List.tail_eq_of_cons_eq whole) with
    ⟨front, longer, same⟩ | ⟨gap, shorter, same⟩
  · refine ⟨front, same, ?_⟩
    intro c member
    apply clear
    rw [longer]
    exact List.mem_append_right _ member
  · cases gap with
    | nil => exact ⟨[], same.symm, fun _ member => nomatch member⟩
    | cons c gap =>
        obtain rfl := List.head_eq_of_cons_eq same
        have closing := plain '}' (by simp [shorter])
        cases closing

theorem Text.straddling_closed {text : List Char} (closed : openEnd text = none)
    (behind : List Char) : straddling text behind = none := by
  rw [straddling, closed, Option.bind_none]

theorem Text.straddling_eq_some {text behind : List Char} {found : Placeholder}
    (across : straddling text behind = some found) :
    ∃ inside front rest, '{' :: inside <:+ text ∧ behind = front ++ '}' :: rest ∧
      (∀ c ∈ inside ++ front, isBrace c = false) ∧
      found.printed = '{' :: (inside ++ (front ++ ['}'])) := by
  obtain ⟨start, left, second⟩ := Option.bind_eq_some_iff.mp across
  obtain ⟨⟨found, rest⟩, read, rfl⟩ := Option.map_eq_some_iff.mp second
  obtain ⟨inside, rfl, stands, plain⟩ := open_end_eq_some left
  obtain ⟨front, rfl, clear⟩ := read_across plain read
  refine ⟨inside, front, rest, stands, rfl, ?_, ?_⟩
  · intro c member
    exact (List.mem_append.mp member).elim (plain c) (clear c)
  · have whole : found.printed ++ rest = '{' :: (inside ++ (front ++ ['}'])) ++ rest := by
      rw [← Placeholder.read?_append read]
      simp
    exact List.append_cancel_right whole

theorem Text.straddling_nil (text : List Char) : straddling text [] = none := by
  rcases across : straddling text [] with _ | found
  · rfl
  · obtain ⟨_, front, _, _, nothing, _⟩ := straddling_eq_some across
    exact absurd nothing.symm (List.append_ne_nil_of_right_ne_nil front (List.cons_ne_nil _ _))

theorem Text.placeholders_in_append (text behind : List Char) :
    placeholdersIn (text ++ behind) =
      placeholdersIn text ++ (straddling text behind).toList ++ placeholdersIn behind := by
  -- the induction follows the placeholders of the first text. Only its last brace, left open, can
  -- reach into the second one, and what it takes there holds no other
  fun_induction Piece.ofChars text with
  | case1 text first rest read shorter ih =>
      obtain ⟨inside, rfl, -⟩ := Placeholder.read?_braces read
      have closed : '}' ∈ inside ++ '}' :: rest := by simp
      have again := Placeholder.read?_up_to_brace (by decide) closed behind
      rw [read] at again
      have left : straddling ('{' :: (inside ++ '}' :: rest)) behind = straddling rest behind := by
        rw [straddling, ← List.cons_append, open_end_behind_close, straddling]
      rw [placeholders_in_read again, placeholders_in_read read, left, ih]
      simp
  | case2 => simp [placeholders_in_nil, straddling, openEnd]
  | case3 c rest none ih =>
      by_cases last : c = '{' ∧ rest.any isBrace = false
      · obtain ⟨rfl, bare⟩ := last
        have plain : ∀ c ∈ rest, isBrace c = false := by simpa using bare
        have unopened : '{' ∉ rest := by
          intro member
          cases plain '{' member
        have nothing : placeholdersIn ('{' :: rest) = [] := by
          rw [placeholders_in_char none, ← List.append_nil rest,
            placeholders_in_unopened unopened, placeholders_in_nil]
        have begins : openEnd ('{' :: rest) = some ('{' :: rest) := by
          rw [openEnd, if_pos ⟨rfl, bare⟩]
        rw [nothing, straddling, begins, Option.bind_some, List.nil_append, List.cons_append]
        rcases read : Placeholder.read? ('{' :: (rest ++ behind)) with _ | ⟨found, after⟩
        · rw [placeholders_in_char read, placeholders_in_unopened unopened]
          rfl
        · obtain ⟨front, rfl, clear⟩ := read_across plain read
          have skipped : '{' ∉ front ++ ['}'] := by
            intro member
            rcases List.mem_append.mp member with early | closing
            · cases clear '{' early
            · simp at closing
          rw [placeholders_in_read read, List.append_cons, placeholders_in_unopened skipped]
          rfl
      · have still : Placeholder.read? (c :: (rest ++ behind)) = Option.none := by
          by_cases opening : c = '{'
          · subst opening
            obtain ⟨brace, member, isOne⟩ : ∃ brace ∈ rest, isBrace brace = true := by
              simpa using last
            rw [← List.cons_append, Placeholder.read?_up_to_brace isOne member, none, Option.map_none]
          · exact Placeholder.read?_opens opening _
        have left : straddling (c :: rest) behind = straddling rest behind := by
          rw [straddling, openEnd, if_neg last, straddling]
        rw [List.cons_append, placeholders_in_char still, placeholders_in_char none, left, ih]

theorem Text.mem_placeholders_append {text behind : List Char} {found : Placeholder} :
    found ∈ placeholdersIn (text ++ behind) ↔ found ∈ placeholdersIn text ∨
      straddling text behind = some found ∨ found ∈ placeholdersIn behind := by
  rw [placeholders_in_append, List.mem_append, List.mem_append, Option.mem_toList, or_assoc]

/-- The placeholders of texts written one behind another: those of each, and those across the
edges. -/
def Text.placeholdersAcross : List (List Char) → List Placeholder
  | [] => []
  | text :: rest =>
      placeholdersIn text ++ (straddling text rest.flatten).toList ++ placeholdersAcross rest

theorem Text.placeholders_in_flatten (texts : List (List Char)) :
    placeholdersIn texts.flatten = placeholdersAcross texts := by
  induction texts with
  | nil => exact placeholders_in_nil
  | cons text rest ih =>
      rw [List.flatten_cons, placeholders_in_append, ih, placeholdersAcross]

theorem Text.mem_placeholders_across {texts : List (List Char)} {found : Placeholder} :
    found ∈ placeholdersAcross texts ↔ (∃ text ∈ texts, found ∈ placeholdersIn text) ∨
      ∃ front text behind, texts = front ++ text :: behind ∧
        straddling text behind.flatten = some found := by
  induction texts with
  | nil => simp [placeholdersAcross]
  | cons text rest ih =>
      rw [placeholdersAcross, List.mem_append, List.mem_append, ih, Option.mem_toList,
        List.exists_mem_cons_iff]
      constructor
      · rintro ((own | across) | later | ⟨front, text, behind, rfl, across⟩)
        · exact .inl (.inl own)
        · exact .inr ⟨[], text, rest, rfl, across⟩
        · exact .inl (.inr later)
        · exact .inr ⟨_ :: front, text, behind, rfl, across⟩
      · rintro ((own | later) | ⟨_ | ⟨first, front⟩, text, behind, same, across⟩)
        · exact .inl (.inl own)
        · exact .inr (.inl later)
        · obtain ⟨rfl, rfl⟩ := List.cons_eq_cons.mp same
          exact .inl (.inr across)
        · obtain ⟨rfl, rfl⟩ := List.cons_eq_cons.mp same
          exact .inr (.inr ⟨front, text, behind, rfl, across⟩)

/-- Texts of which none but the last leaves a brace open have their placeholders to themselves. -/
theorem Text.placeholders_apart {texts : List (List Char)}
    (closed : ∀ text ∈ texts.dropLast, openEnd text = none) :
    placeholdersAcross texts = texts.flatMap placeholdersIn := by
  induction texts with
  | nil => rfl
  | cons text rest ih =>
      cases rest with
      | nil => simp [placeholdersAcross, straddling_nil]
      | cons next others =>
          obtain ⟨first, later⟩ := List.forall_mem_cons.mp closed
          rw [placeholdersAcross, straddling_closed first, ih later, Option.toList_none,
            List.append_nil]
          rfl

end PromptLoom
