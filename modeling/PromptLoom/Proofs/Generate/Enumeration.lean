import Mathlib.Logic.Function.Iterate
import PromptLoom.Proofs.Generate.Odometer

/-!
# Counting in words

The digits of an odometer are 64-bit words. They are counted on in place from the last one, and a
digit is increased only after all those behind it have wrapped. No increase leaves the words, and the
pulls show all combinations of the radices in lexicographic order, each once, and then nothing more.
-/

namespace PromptLoom

set_option autoImplicit false

namespace Odometer

/-! ### Pulls -/

/-- The odometer after one pull. A pull that shows nothing leaves it as it is. -/
def pull (odometer : Odometer) : Odometer := (odometer.next?.map Prod.snd).getD odometer

def shown? (odometer : Odometer) (count : Nat) : Option (List Nat) :=
  (pull^[count] odometer).next?.map Prod.fst

/-- One more, unless that is no word. -/
def nextWord? (word : Nat) : Option Nat := if word < Text.maxWord64 then some (word + 1) else none

/-- The digits counted on by one, those behind first, and whether all of them have wrapped. There is
no answer if a digit leaves the words. -/
def countOn? : List Nat → List Nat → Option (Bool × List Nat)
  | radix :: radices, digit :: digits =>
      (countOn? radices digits).bind fun (wrapped, behind) =>
        if wrapped then
          (nextWord? digit).map fun next =>
            if next < radix then (false, next :: behind) else (true, 0 :: behind)
        else some (false, digit :: behind)
  | _, _ => some (true, [])

def pullWords? (odometer : Odometer) : Option (Option (List Nat) × Odometer) :=
  if odometer.finished then some (none, odometer)
  else (countOn? odometer.radices odometer.digits).map fun (wrapped, digits) =>
    (some odometer.digits, { odometer with digits, finished := wrapped })

def shownWords? (odometer : Odometer) : Nat → Option (Option (List Nat))
  | 0 => odometer.pullWords?.map Prod.fst
  | count + 1 => odometer.pullWords?.bind fun (_, later) => later.shownWords? count

/-- The odometer after some pulls that count in words. At the end every digit has wrapped. -/
def turnedTo (radices : List Nat) (count : Nat) : Odometer :=
  if count < radices.prod then ⟨radices, digitsOf radices count, false⟩
  else ⟨radices, radices.map fun _ => 0, true⟩

/-! ### The order of combinations -/

/-- Numbers are ordered as their digits are. -/
theorem digits_of_lt {radices : List Nat} {first second : Nat}
    (before : first % radices.prod < second % radices.prod) :
    digitsOf radices first < digitsOf radices second := by
  -- the induction is on the radices: a digit in front decides unless it is the same for both
  induction radices with
  | nil =>
      rw [List.prod_nil, Nat.mod_one, Nat.mod_one] at before
      exact absurd before (Nat.lt_irrefl 0)
  | cons radix radices ih =>
      rw [List.prod_cons, Nat.mul_comm, Nat.mod_mul, Nat.mod_mul] at before
      rw [digitsOf, digitsOf, List.cons_lt_cons_iff]
      rcases Nat.lt_trichotomy (first / radices.prod % radix) (second / radices.prod % radix)
        with lower | same | higher
      · exact .inl lower
      · rw [same] at before
        exact .inr ⟨same, ih (Nat.lt_of_add_lt_add_right before)⟩
      · have rounds := Nat.mul_le_mul_left radices.prod higher
        rw [Nat.mul_succ] at rounds
        rcases Nat.eq_zero_or_pos radices.prod with none | some
        · rw [none, Nat.zero_mul, Nat.zero_mul, Nat.add_zero, Nat.add_zero] at before
          rw [none, Nat.div_zero, Nat.div_zero] at higher
          exact absurd higher (Nat.lt_irrefl _)
        · have behind : second % radices.prod < radices.prod := Nat.mod_lt _ some
          omega

def combinations (radices : List Nat) : List (List Nat) :=
  (List.range radices.prod).map (digitsOf radices)

theorem combinations_ordered (radices : List Nat) : (combinations radices).Pairwise (· < ·) := by
  refine List.pairwise_map.mpr (List.pairwise_lt_range.imp_of_mem ?_)
  intro first second firstMember secondMember before
  apply digits_of_lt
  rwa [Nat.mod_eq_of_lt (List.mem_range.mp firstMember),
    Nat.mod_eq_of_lt (List.mem_range.mp secondMember)]

theorem prod_pos_iff {radices : List Nat} : 0 < radices.prod ↔ ∀ radix ∈ radices, 0 < radix := by
  refine ⟨fun positive => ?_, product_pos⟩
  induction radices with
  | nil => exact List.forall_mem_nil _
  | cons radix radices ih =>
      rw [List.prod_cons] at positive
      exact List.forall_mem_cons.mpr
        ⟨Nat.pos_of_mul_pos_right positive, ih (Nat.pos_of_mul_pos_left positive)⟩

theorem mem_combinations {radices digits : List Nat} :
    digits ∈ combinations radices ↔ Within radices digits := by
  constructor
  · intro member
    obtain ⟨number, below, rfl⟩ := List.mem_map.mp member
    have some : 0 < radices.prod := Nat.zero_lt_of_lt (List.mem_range.mp below)
    exact digits_of_within (prod_pos_iff.mp some) number
  · intro within
    exact List.mem_map.mpr ⟨numberOf radices digits, List.mem_range.mpr (number_of_lt within),
      digits_of_number_of within⟩

theorem combinations_length (radices : List Nat) :
    (combinations radices).length = radices.prod := by
  rw [combinations, List.length_map, List.length_range]

theorem combinations_get (radices : List Nat) (count : Nat) : (combinations radices)[count]? =
    if count < radices.prod then some (digitsOf radices count) else none := by
  rw [combinations, List.getElem?_map]
  split
  · next below => rw [List.getElem?_range below, Option.map_some]
  · next past =>
      rw [List.getElem?_eq_none (by rw [List.length_range]; exact Nat.le_of_not_lt past),
        Option.map_none]

/-! ### Pulls of an odometer -/

theorem start_turned (radices : List Nat) : start radices = turnedTo radices 0 := by
  by_cases positive : 0 < radices.prod
  · rw [start_shown radices (prod_pos_iff.mp positive), shownAfter, turnedTo, if_pos positive,
      if_pos positive]
  · have zero : 0 ∈ radices := by
      by_contra none
      exact positive (product_pos fun radix member =>
        Nat.pos_of_ne_zero fun same => none (same ▸ member))
    rw [start, turnedTo, if_neg positive, List.contains_iff_mem.mpr zero]

theorem shown_combinations (radices : List Nat) (count : Nat) :
    (start radices).shown? count = (combinations radices)[count]? := by
  rw [combinations_get]
  by_cases positive : 0 < radices.prod
  · have sizes := prod_pos_iff.mp positive
    have reached : pull^[count] (start radices) = shownAfter radices (min count radices.prod) := by
      induction count with
      | zero => rw [Function.iterate_zero_apply, Nat.zero_min, start_shown radices sizes]
      | succ count ih =>
          rw [Function.iterate_succ_apply', ih, pull, next_shown sizes]
          by_cases below : count < radices.prod
          · rw [Nat.min_eq_left (Nat.le_of_lt below), Nat.min_eq_left below, if_pos below]
            rfl
          · have ended := Nat.le_of_not_lt below
            rw [Nat.min_eq_right ended, Nat.min_eq_right (Nat.le_succ_of_le ended),
              if_neg (Nat.lt_irrefl _)]
            rfl
    rw [shown?, reached, next_shown sizes]
    by_cases below : count < radices.prod
    · rw [Nat.min_eq_left (Nat.le_of_lt below), if_pos below, if_pos below, Option.map_some]
    · rw [Nat.min_eq_right (Nat.le_of_not_lt below), if_neg (Nat.lt_irrefl _), if_neg below,
        Option.map_none]
  · have past : ¬ count < radices.prod := fun below => positive (Nat.zero_lt_of_lt below)
    have finished : (start radices).next? = none := by
      rw [start_turned, turnedTo, if_neg positive]
      rfl
    have stays : pull^[count] (start radices) = start radices := by
      apply Function.iterate_fixed
      rw [pull, finished]
      rfl
    rw [shown?, stays, finished, if_neg past, Option.map_none]

/-! ### Pulls in words -/

/-- Counting on in words goes through, since a digit is below its radix, which is a word; and it does
what the carry does. -/
theorem count_on_eq {radices digits : List Nat} (within : Within radices digits)
    (words : ∀ radix ∈ radices, radix ≤ Text.maxWord64) :
    countOn? radices digits = some (match advance radices digits with
      | some next => (false, next)
      | none => (true, radices.map fun _ => 0)) := by
  induction within with
  | nil => rfl
  | @cons digit radix digits radices below within ih =>
      obtain ⟨word, others⟩ := List.forall_mem_cons.mp words
      have zeros : (digits.map fun _ => 0) = radices.map fun _ => 0 := by
        rw [List.map_const', List.map_const', within.length_eq]
      have more : nextWord? digit = some (digit + 1) := if_pos (Nat.lt_of_lt_of_le below word)
      rw [countOn?, ih others, advance]
      rcases advance radices digits with _ | next
      · simp only [Option.bind_some, if_true, more, Option.map_some, zeros]
        split
        · rfl
        · rfl
      · simp only [Option.bind_some, Bool.false_eq_true, if_false]

theorem pull_words_turned {radices : List Nat}
    (words : ∀ radix ∈ radices, radix ≤ Text.maxWord64) (count : Nat) :
    (turnedTo radices count).pullWords? =
      some ((combinations radices)[count]?, turnedTo radices (count + 1)) := by
  rw [combinations_get]
  by_cases below : count < radices.prod
  · have positive := prod_pos_iff.mp (Nat.zero_lt_of_lt below)
    have counted := count_on_eq (digits_of_within positive count) words
    rw [advance_digits_of positive] at counted
    rw [turnedTo, if_pos below, if_pos below]
    by_cases last : count + 1 < radices.prod
    · have inside : ¬ radices.prod ∣ count + 1 := fun divides =>
        Nat.not_le_of_lt last (Nat.le_of_dvd (Nat.succ_pos _) divides)
      rw [if_neg inside] at counted
      simp only [pullWords?, Bool.false_eq_true, if_false, counted, Option.map_some, turnedTo,
        if_pos last]
    · have whole : radices.prod = count + 1 := by omega
      rw [if_pos (Dvd.intro 1 (by rw [Nat.mul_one, whole]))] at counted
      simp only [pullWords?, Bool.false_eq_true, if_false, counted, Option.map_some, turnedTo,
        if_neg last]
  · have past : ¬ count + 1 < radices.prod := fun more => below (Nat.lt_of_succ_lt more)
    rw [turnedTo, if_neg below, if_neg below, turnedTo, if_neg past]
    rfl

theorem shown_words_turned {radices : List Nat}
    (words : ∀ radix ∈ radices, radix ≤ Text.maxWord64) (count turns : Nat) :
    (turnedTo radices turns).shownWords? count = some (combinations radices)[turns + count]? := by
  -- the pulls in words, by induction on their number
  induction count generalizing turns with
  | zero =>
      rw [shownWords?, pull_words_turned words]
      rfl
  | succ count ih =>
      have later : turns + (count + 1) = turns + 1 + count := by omega
      rw [shownWords?, pull_words_turned words, Option.bind_some, later]
      exact ih (turns + 1)

/-- An odometer whose radices are words. There is a list of all combinations of its radices, in
strictly ascending lexicographic order, such that every pull shows the next of the list, and nothing
behind its end; the digits never leave the words; and the size of the space is the length of the list
as far as that is a 128-bit word. -/
theorem combinations_enumerated {radices : List Nat}
    (words : ∀ radix ∈ radices, radix ≤ Text.maxWord64) :
    ∃ all : List (List Nat),
      (∀ digits, digits ∈ all ↔ List.Forall₂ (· < ·) digits radices) ∧
      all.Pairwise (· < ·) ∧
      (∀ count, (start radices).shown? count = all[count]?) ∧
      (∀ count, (start radices).shownWords? count = some all[count]?) ∧
      all.length = radices.prod ∧
      spaceSize radices = min radices.prod Text.maxWord128 ∧
      (radices.prod ≤ Text.maxWord128 → spaceSize radices = all.length) := by
  have size : spaceSize radices = min radices.prod Text.maxWord128 :=
    capped_product_eq Text.maxWord128 (by decide) radices
  refine ⟨combinations radices, fun digits => mem_combinations, combinations_ordered radices,
    shown_combinations radices, ?_, combinations_length radices, size, ?_⟩
  · intro count
    rw [start_turned, shown_words_turned words, Nat.zero_add]
  · intro fits
    rw [size, Nat.min_eq_left fits, combinations_length]

/-- A radix may be the largest word: its highest digit is increased to that word, and then wraps. -/
theorem wide_radices_enumerated :
    (∀ radix ∈ [Text.maxWord64, 1], radix ≤ Text.maxWord64) ∧
      ∃ all : List (List Nat),
        (∀ digits, digits ∈ all ↔ List.Forall₂ (· < ·) digits [Text.maxWord64, 1]) ∧
        all.length = Text.maxWord64 ∧
        (start [Text.maxWord64, 1]).shownWords? Text.maxWord64 = some none ∧
        spaceSize [Text.maxWord64, 1] = all.length := by
  have words : ∀ radix ∈ [Text.maxWord64, 1], radix ≤ Text.maxWord64 := by decide
  obtain ⟨all, listed, -, -, shown, length, -, sized⟩ := combinations_enumerated words
  have product : [Text.maxWord64, 1].prod = Text.maxWord64 := rfl
  rw [product] at length
  refine ⟨words, all, listed, length, ?_, sized (by decide)⟩
  rw [shown, List.getElem?_eq_none (Nat.le_of_eq length)]

end Odometer

end PromptLoom
