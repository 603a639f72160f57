import Mathlib.Algebra.BigOperators.Group.List.Basic
import Mathlib.Data.List.Nodup
import Mathlib.Data.List.Perm.Subperm
import PromptLoom.Generate.Odometer

/-!
# What an odometer shows

The combinations of some radices are the numbers below their product, written with one digit per
radix. An odometer shows them in ascending order, each once: after `count` steps it stands at the
digits of `count`, and after as many steps as there are combinations it is finished.
-/

namespace PromptLoom

set_option autoImplicit false

namespace Odometer

/-- The digits of a number. A digit counts the combinations of the radices behind it, so the last
one changes fastest. -/
def digitsOf : List Nat → Nat → List Nat
  | [], _ => []
  | radix :: radices, number => number / radices.prod % radix :: digitsOf radices number

def numberOf : List Nat → List Nat → Nat
  | _ :: radices, digit :: digits => digit * radices.prod + numberOf radices digits
  | _, _ => 0

/-- One digit for every radix, each below it. -/
def Within (radices digits : List Nat) : Prop := List.Forall₂ (· < ·) digits radices

/-- The odometer after a number of steps. Once finished it keeps the highest digits. -/
def shownAfter (radices : List Nat) (count : Nat) : Odometer :=
  if count < radices.prod then ⟨radices, digitsOf radices count, false⟩
  else ⟨radices, digitsOf radices (radices.prod - 1), true⟩

theorem product_pos {radices : List Nat} (positive : ∀ radix ∈ radices, 0 < radix) :
    0 < radices.prod := by
  induction radices with
  | nil => exact Nat.one_pos
  | cons radix radices ih =>
      rw [List.prod_cons]
      exact Nat.mul_pos (positive radix List.mem_cons_self)
        (ih fun other member => positive other (List.mem_cons_of_mem radix member))

theorem digits_of_within {radices : List Nat} (positive : ∀ radix ∈ radices, 0 < radix)
    (number : Nat) : Within radices (digitsOf radices number) := by
  induction radices with
  | nil => exact .nil
  | cons radix radices ih =>
      have rest : ∀ other ∈ radices, 0 < other := fun other member =>
        positive other (List.mem_cons_of_mem radix member)
      exact .cons (Nat.mod_lt _ (positive radix List.mem_cons_self)) (ih rest)

theorem Within.positive {radices digits : List Nat} (within : Within radices digits) :
    ∀ radix ∈ radices, 0 < radix := by
  induction within with
  | nil => exact fun _ member => nomatch member
  | cons below _ ih =>
      intro other member
      rcases List.mem_cons.mp member with rfl | member
      · exact Nat.zero_lt_of_lt below
      · exact ih other member

theorem number_of_lt {radices digits : List Nat} (within : Within radices digits) :
    numberOf radices digits < radices.prod := by
  induction within with
  | nil => exact Nat.one_pos
  | @cons digit radix digits radices below _ ih =>
      have rounds : (digit + 1) * radices.prod ≤ radix * radices.prod :=
        Nat.mul_le_mul_right _ below
      simp only [numberOf, List.prod_cons]
      rw [Nat.add_mul, Nat.one_mul] at rounds
      omega

theorem digits_of_rounds {radices : List Nat} (positive : ∀ radix ∈ radices, 0 < radix)
    (rounds number : Nat) :
    digitsOf radices (rounds * radices.prod + number) = digitsOf radices number := by
  induction radices generalizing rounds with
  | nil => rfl
  | cons radix radices ih =>
      have rest : ∀ other ∈ radices, 0 < other := fun other member =>
        positive other (List.mem_cons_of_mem radix member)
      have inner : rounds * (radix * radices.prod) = radices.prod * (rounds * radix) := by
        rw [← Nat.mul_assoc, Nat.mul_comm]
      have front : (radices.prod * (rounds * radix) + number) / radices.prod % radix =
          number / radices.prod % radix := by
        rw [Nat.mul_add_div (product_pos rest), Nat.mul_comm rounds radix, Nat.mul_add_mod]
      simp only [digitsOf, List.prod_cons, inner, front]
      rw [Nat.mul_comm, ih rest]

theorem digits_of_number_of {radices digits : List Nat} (within : Within radices digits) :
    digitsOf radices (numberOf radices digits) = digits := by
  induction within with
  | nil => rfl
  | @cons digit radix digits radices below within ih =>
      have positive : ∀ other ∈ radices, 0 < other := Within.positive within
      have behind : numberOf radices digits < radices.prod := number_of_lt within
      have front : (digit * radices.prod + numberOf radices digits) / radices.prod = digit := by
        rw [Nat.mul_comm, Nat.mul_add_div (product_pos positive), Nat.div_eq_of_lt behind,
          Nat.add_zero]
      simp only [numberOf, digitsOf, front, Nat.mod_eq_of_lt below]
      rw [digits_of_rounds positive, ih]

theorem number_of_injective {radices first second : List Nat} (firstWithin : Within radices first)
    (secondWithin : Within radices second)
    (same : numberOf radices first = numberOf radices second) : first = second := by
  rw [← digits_of_number_of firstWithin, same, digits_of_number_of secondWithin]

theorem digits_of_multiple {radices : List Nat} (positive : ∀ radix ∈ radices, 0 < radix)
    {number : Nat} (multiple : radices.prod ∣ number) :
    digitsOf radices number = radices.map fun _ => 0 := by
  induction radices with
  | nil => rfl
  | cons radix radices ih =>
      have rest : ∀ other ∈ radices, 0 < other := fun other member =>
        positive other (List.mem_cons_of_mem radix member)
      rw [List.prod_cons, Nat.mul_comm] at multiple
      have behind : radices.prod ∣ number := Nat.dvd_trans (Nat.dvd_mul_right ..) multiple
      have front : number / radices.prod % radix = 0 :=
        Nat.mod_eq_zero_of_dvd (Nat.dvd_div_of_mul_dvd multiple)
      simp only [digitsOf, List.map_cons, front, ih rest behind]

theorem digits_of_zeroed (radices : List Nat) (number : Nat) :
    ((digitsOf radices number).map fun _ => 0) = radices.map fun _ => 0 := by
  induction radices with
  | nil => rfl
  | cons radix radices ih => simp only [digitsOf, List.map_cons, ih]

theorem divides_succ_iff {radix : Nat} (positive : 0 < radix) (rounds : Nat) :
    radix ∣ rounds + 1 ↔ ¬ rounds % radix + 1 < radix := by
  have digitBelow : rounds % radix < radix := Nat.mod_lt _ positive
  have split : rounds + 1 = radix * (rounds / radix) + (rounds % radix + 1) := by
    rw [← Nat.add_assoc, Nat.div_add_mod]
  rw [split, Nat.dvd_add_right (Nat.dvd_mul_right ..)]
  constructor
  · exact fun divides => Nat.not_lt_of_le (Nat.le_of_dvd (Nat.succ_pos _) divides)
  · intro highest
    have whole : rounds % radix + 1 = radix := by omega
    rw [whole]

/-- The carry. -/
theorem advance_digits_of {radices : List Nat} (positive : ∀ radix ∈ radices, 0 < radix)
    (number : Nat) :
    advance radices (digitsOf radices number) =
      if radices.prod ∣ number + 1 then none else some (digitsOf radices (number + 1)) := by
  -- the induction is on the radices: those behind wrap exactly when their product divides the next
  -- number, and only then does the digit in front move
  induction radices with
  | nil => rw [List.prod_nil, if_pos (Nat.one_dvd _)]; rfl
  | cons radix radices ih =>
      have rest : ∀ other ∈ radices, 0 < other := fun other member =>
        positive other (List.mem_cons_of_mem radix member)
      have front : 0 < radix := positive radix List.mem_cons_self
      have product : (radix :: radices).prod = radices.prod * radix := by
        rw [List.prod_cons, Nat.mul_comm]
      by_cases wraps : radices.prod ∣ number + 1
      · have moved : (number + 1) / radices.prod = number / radices.prod + 1 :=
          Nat.succ_div_of_dvd wraps
        have whole : (radix :: radices).prod ∣ number + 1 ↔
            ¬ number / radices.prod % radix + 1 < radix := by
          rw [product, ← Nat.dvd_div_iff_mul_dvd wraps, moved, divides_succ_iff front]
        by_cases higher : number / radices.prod % radix + 1 < radix
        · have next : (number / radices.prod + 1) % radix = number / radices.prod % radix + 1 := by
            rw [Nat.add_mod, Nat.mod_eq_of_lt (Nat.lt_of_le_of_lt (Nat.le_add_left 1 _) higher),
              Nat.mod_eq_of_lt higher]
          rw [if_neg (fun divides => whole.mp divides higher)]
          simp only [digitsOf, advance, ih rest, if_pos wraps, if_pos higher, moved, next,
            digits_of_multiple rest wraps, digits_of_zeroed]
        · rw [if_pos (whole.mpr higher)]
          simp only [digitsOf, advance, ih rest, if_pos wraps, if_neg higher]
      · have stays : (number + 1) / radices.prod = number / radices.prod :=
          Nat.succ_div_of_not_dvd wraps
        have inside : ¬ (radix :: radices).prod ∣ number + 1 := by
          rw [product]
          exact fun multiple => wraps (Nat.dvd_trans (Nat.dvd_mul_right ..) multiple)
        rw [if_neg inside]
        simp only [digitsOf, advance, ih rest, if_neg wraps, stays]

theorem start_shown (radices : List Nat) (positive : ∀ radix ∈ radices, 0 < radix) :
    start radices = shownAfter radices 0 := by
  have noZero : radices.contains 0 = false := by
    rw [← Bool.not_eq_true, List.contains_iff_mem]
    exact fun member => Nat.lt_irrefl 0 (positive 0 member)
  rw [start, shownAfter, if_pos (product_pos positive), noZero,
    digits_of_multiple positive (Nat.dvd_zero _)]

theorem next_shown {radices : List Nat} (positive : ∀ radix ∈ radices, 0 < radix)
    (count : Nat) :
    (shownAfter radices count).next? =
      if count < radices.prod then some (digitsOf radices count, shownAfter radices (count + 1))
      else none := by
  by_cases below : count < radices.prod
  · rw [shownAfter, if_pos below, if_pos below]
    simp only [next?, Bool.false_eq_true, if_false, advance_digits_of positive]
    by_cases last : count + 1 < radices.prod
    · have inside : ¬ radices.prod ∣ count + 1 := fun divides =>
        Nat.not_le_of_lt last (Nat.le_of_dvd (Nat.succ_pos _) divides)
      simp only [if_neg inside, shownAfter, if_pos last]
    · have whole : radices.prod = count + 1 := by omega
      simp only [shownAfter, whole, dvd_refl, if_true, Nat.lt_irrefl, if_false,
        Nat.add_sub_cancel]
  · rw [shownAfter, if_neg below, if_neg below]
    rfl

/-- Distinct combinations are no more than their count. The numbers of combinations stand in for
them, since those are below the count. -/
theorem numbers_subperm {radices : List Nat} {combinations : List (List Nat)}
    (within : ∀ digits ∈ combinations, Within radices digits) (once : combinations.Nodup) :
    (combinations.map (numberOf radices)).Subperm (List.range radices.prod) := by
  apply List.Nodup.subperm
  · exact List.Nodup.map_on (fun first member second other same =>
      number_of_injective (within first member) (within second other) same) once
  · intro number member
    obtain ⟨digits, found, rfl⟩ := List.mem_map.mp member
    exact List.mem_range.mpr (number_of_lt (within digits found))

theorem combinations_length_le {radices : List Nat} {combinations : List (List Nat)}
    (within : ∀ digits ∈ combinations, Within radices digits) (once : combinations.Nodup) :
    combinations.length ≤ radices.prod := by
  have bound := (numbers_subperm within once).length_le
  rwa [List.length_map, List.length_range] at bound

/-- As many distinct combinations as there are at all leave none out. -/
theorem combinations_exhausted {radices : List Nat} {combinations : List (List Nat)}
    (within : ∀ digits ∈ combinations, Within radices digits) (once : combinations.Nodup)
    (enough : radices.prod ≤ combinations.length) {digits : List Nat}
    (candidate : Within radices digits) : digits ∈ combinations := by
  have whole := (numbers_subperm within once).perm_of_length_le
    (by rwa [List.length_map, List.length_range])
  have listed : numberOf radices digits ∈ combinations.map (numberOf radices) :=
    whole.symm.subset (List.mem_range.mpr (number_of_lt candidate))
  obtain ⟨other, member, same⟩ := List.mem_map.mp listed
  exact number_of_injective (within other member) candidate same ▸ member

end Odometer

/-- A capped product is the product where that is small enough, and the cap elsewhere. -/
theorem capped_product_eq (largest : Nat) (positive : 0 < largest) (factors : List Nat) :
    cappedProduct largest factors = min factors.prod largest := by
  have from_ : ∀ (rest : List Nat) (product : Nat), product ≤ largest →
      rest.foldl (fun product factor => min (product * factor) largest) product =
        min (product * rest.prod) largest := by
    intro rest
    -- the induction runs with any product so far that is below the cap
    induction rest with
    | nil =>
        intro product below
        rw [List.foldl_nil, List.prod_nil, Nat.mul_one, Nat.min_eq_left below]
    | cons factor rest ih =>
        intro product _
        rw [List.foldl_cons, ih _ (Nat.min_le_right ..), List.prod_cons, ← Nat.mul_assoc]
        rcases Nat.le_total (product * factor) largest with small | large
        · rw [Nat.min_eq_left small]
        · rw [Nat.min_eq_right large]
          rcases Nat.eq_zero_or_pos rest.prod with none | some
          · rw [none, Nat.mul_zero, Nat.mul_zero]
          · rw [Nat.min_eq_right (Nat.le_mul_of_pos_right largest some),
              Nat.min_eq_right (Nat.le_trans large (Nat.le_mul_of_pos_right _ some))]
  rw [cappedProduct, from_ factors 1 positive, Nat.one_mul]

end PromptLoom
