import PromptLoom.Proofs.Documents
import PromptLoom.Proofs.Text.Cutting

/-!
# The paths of locations

The names of a location are read back off its path, where none of them is empty or a dot or holds a
slash. The directory of a path is then that of the location, and a path below it has the steps of both.
-/

namespace PromptLoom.Path

set_option autoImplicit false

/-- A name that a file can have. -/
def IsName (name : String) : Prop := name ≠ "" ∧ name ≠ "." ∧ '/' ∉ name.toList

instance (name : String) : Decidable (IsName name) :=
  inferInstanceAs (Decidable (name ≠ "" ∧ name ≠ "." ∧ '/' ∉ name.toList))

variable {location : Location}

theorem IsName.busy {name : String} (named : IsName name) : isIdle name = false := by
  simp [isIdle, named.1, named.2.1]

theorem steps_behind_slash (front behind : String) :
    (⟨front ++ "/" ++ behind⟩ : Path).steps = (⟨front⟩ : Path).steps ++ (⟨behind⟩ : Path).steps := by
  have slash : "/".toList = ['/'] := rfl
  simp only [steps, String.toList_append, Text.split_at_char_eq, slash, List.append_assoc,
    List.singleton_append, List.splitOn_append_cons_self, List.map_append]

theorem mem_text_iff {path : Path} {c : Char} (other : c ≠ '/') :
    c ∈ path.text.toList ↔ ∃ step ∈ path.steps, c ∈ step.toList := by
  simp only [steps, List.mem_map, exists_exists_and_eq_and, String.toList_ofList]
  induction path.text.toList with
  | nil => simp [Text.splitAtChar]
  | cons d rest ih =>
      rw [List.mem_cons, ih, Text.splitAtChar]
      split
      · next slash => simp [slash, other]
      · split
        · next part parts cut => simp [cut, or_assoc]
        · next none => exact absurd none (Text.split_at_char_ne_nil '/' rest)

theorem steps_of_location (named : ∀ name ∈ location, IsName name) :
    (ofLocation location).steps = "" :: if location = [] then [""] else location := by
  have slashFree : ∀ name ∈ location, name ≠ "" ∧ '/' ∉ name.toList :=
    fun name member => ⟨(named name member).1, (named name member).2.2⟩
  have first : ("/".toList ++ ("/".intercalate location).toList).splitOn '/' =
      [] :: ("/".intercalate location).toList.splitOn '/' := by
    simp [List.splitOn_cons_eq_if_modifyHead]
  simp only [steps, ofLocation, String.toList_append, Text.split_at_char_eq]
  rw [first, slash_free_text slashFree]
  split <;> simp

theorem is_absolute_of_location (location : Location) : (ofLocation location).isAbsolute = true := by
  simp [isAbsolute, ofLocation]

theorem components_of_location (named : ∀ name ∈ location, IsName name) :
    (ofLocation location).components = "/" :: location := by
  have kept : location.filter (fun step => step != "" && step != ".") = location := by
    refine List.filter_eq_self.mpr fun name member => ?_
    simp [(named name member).1, (named name member).2.1]
  rw [components, if_pos (is_absolute_of_location location), steps_of_location named]
  by_cases root : location = []
  · simp [root]
  · simp [root, kept]

theorem eq_of_agrees {first second : Location}
    (firstNamed : ∀ name ∈ first, IsName name) (secondNamed : ∀ name ∈ second, IsName name)
    (alike : (ofLocation first).agrees (ofLocation second) = true) : first = second := by
  rw [agrees, components_of_location firstNamed, components_of_location secondNamed] at alike
  exact (List.cons.inj (beq_iff_eq.mp alike)).2

theorem ends_in_slash_iff (named : ∀ name ∈ location, IsName name) :
    (ofLocation location).text.toList.getLast? = some '/' ↔ location = [] := by
  constructor
  · intro ends
    by_contra filled
    obtain ⟨front, whole⟩ := List.getLast?_eq_some_iff.mp ends
    have text : ofLocation location = ⟨String.ofList front ++ "/" ++ ""⟩ :=
      congrArg Path.mk (String.toList_inj.mp (whole.trans (by simp)))
    have parts : "" :: location = (⟨String.ofList front⟩ : Path).steps ++ [""] := by
      have read := steps_of_location named
      rwa [if_neg filled, text, steps_behind_slash, eq_comm] at read
    have last : location.getLast? = some "" := by
      rw [← List.getLast?_cons_of_ne_nil filled, parts, List.getLast?_concat]
    exact (named "" (List.mem_of_getLast? last)).1 rfl
  · rintro rfl
    rfl

theorem directory_of_location {name : String} (named : ∀ step ∈ location ++ [name], IsName step) :
    (ofLocation (location ++ [name])).directory = ofLocation location := by
  have own : isIdle name = false := (named name (by simp)).busy
  have steps : (ofLocation (location ++ [name])).steps = "" :: (location ++ [name]) := by
    rw [steps_of_location named, if_neg (by simp)]
  have above : (((("" :: (location ++ [name])).reverse.dropWhile isIdle).drop 1).dropWhile
      isIdle).reverse = if location = [] then [] else "" :: location := by
    have first : isIdle "" = true := rfl
    simp only [List.reverse_cons, List.reverse_append, List.reverse_nil, List.nil_append,
      List.cons_append, List.dropWhile_cons, own, Bool.false_eq_true,
      if_false, List.drop_succ_cons, List.drop_zero]
    split
    · next root => simp [root, first]
    · next filled =>
        obtain ⟨front, last, rfl⟩ := (List.eq_nil_or_concat' location).resolve_left filled
        have busy : isIdle last = false := (named last (by simp)).busy
        simp [busy]
  rw [directory, parent?, components_of_location named, steps]
  split
  · next none => cases none
  · next bare => simp at bare
  · next first others _ whole =>
      obtain ⟨rfl, rfl⟩ := List.cons_eq_cons.mp whole
      have below : (location ++ [name]).isEmpty = false := by simp
      simp only [above, below, Option.getD_some]
      by_cases root : location = []
      · subst root
        rfl
      · obtain ⟨top, more, rfl⟩ := List.exists_cons_of_ne_nil root
        simp [ofLocation, String.intercalate_cons_cons]

theorem steps_of_join (named : ∀ name ∈ location, IsName name) (path : Path) :
    ((ofLocation location).join path).steps = "" :: location ++ path.steps := by
  have some : (ofLocation location).text.isEmpty = false := by simp [ofLocation]
  rw [join, some, Bool.false_or]
  by_cases root : location = []
  · subst root
    exact steps_behind_slash "" path.text
  · have apart : ((ofLocation location).text.toList.getLast? == Option.some '/') = false := by
      simpa using mt (ends_in_slash_iff named).mp root
    have read := steps_of_location named
    rw [if_neg root] at read
    rw [apart, if_neg Bool.false_ne_true, steps_behind_slash, read]

theorem filled_of_absolute {path : Path} (absolute : path.isAbsolute = true) :
    path.text.isEmpty = false := by
  obtain ⟨text⟩ := path
  rw [Bool.eq_false_iff]
  intro empty
  obtain rfl : text = "" := String.isEmpty_iff.mp empty
  cases absolute

theorem is_absolute_join (location : Location) (path : Path) :
    ((ofLocation location).join path).isAbsolute = true := by
  rw [join]
  split
  · simp [isAbsolute, ofLocation]
  · simp [isAbsolute, ofLocation]

end PromptLoom.Path
