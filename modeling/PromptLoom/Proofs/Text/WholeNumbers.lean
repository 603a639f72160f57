import PromptLoom.Text.Number

/-!
# Whole numbers as texts

A whole number is written as the digits of its amount, behind a minus sign below zero. The digits
give the amount back, and a sign can be told from a digit, so the text of a number is its own.

An unsigned number is read from its digits, with or without a plus sign, as long as it is not too
large.
-/

namespace PromptLoom

set_option autoImplicit false

theorem to_digits_injective {first second : Nat}
    (same : Nat.toDigits 10 first = Nat.toDigits 10 second) : first = second := by
  have back (n : Nat) := Nat.ofDigitChars_ten_toDigits (n := n)
  exact (back first).symm.trans ((congrArg _ same).trans (back second))

theorem int_text (n : Int) :
    (toString n).toList = (if n < 0 then ['-'] else []) ++ Nat.toDigits 10 n.natAbs := by
  rw [Int.toString_eq_repr, Int.repr_eq_if]
  by_cases below : n < 0
  · have amount : (-n).toNat = n.natAbs := by omega
    rw [if_neg (by omega), if_pos below, amount, String.toList_append, Nat.toList_repr]
    rfl
  · have amount : n.toNat = n.natAbs := by omega
    rw [if_pos (by omega), if_neg below, amount, Nat.toList_repr]
    rfl

def DigitFirst (text : List Char) : Prop :=
  ∃ first rest, text = first :: rest ∧ first.isDigit = true

theorem DigitFirst.head_ne {text : List Char} (digits : DigitFirst text) {c : Char}
    (other : c.isDigit = false) : text.head? ≠ some c := by
  obtain ⟨first, rest, rfl, digit⟩ := digits
  rintro same
  rw [← Option.some.inj same] at other
  cases digit.symm.trans other

theorem to_digits_first (n : Nat) : DigitFirst (Nat.toDigits 10 n) := by
  rcases shape : Nat.toDigits 10 n with _ | ⟨first, rest⟩
  · exact absurd shape Nat.toDigits_ne_nil
  · exact ⟨first, rest, rfl,
      Nat.isDigit_of_mem_toDigits (by decide) (by decide) (shape ▸ List.mem_cons_self ..)⟩

theorem signed_injective {first second : Bool} {text other : List Char}
    (plain : text.head? ≠ some '-') (otherPlain : other.head? ≠ some '-')
    (same : (if first then ['-'] else []) ++ text = (if second then ['-'] else []) ++ other) :
    first = second ∧ text = other := by
  cases first with
  | false =>
      cases second with
      | false => exact ⟨rfl, same⟩
      | true => exact absurd (congrArg List.head? same) plain
  | true =>
      cases second with
      | false => exact absurd (congrArg List.head? same.symm) otherPlain
      | true => exact ⟨rfl, (List.cons.inj same).2⟩

theorem int_text_injective {first second : Int} (same : toString first = toString second) :
    first = second := by
  have texts := congrArg String.toList same
  rw [int_text, int_text] at texts
  have shape (n : Int) : (if n < 0 then ['-'] else []) = if decide (n < 0) then ['-'] else [] := by
    simp
  rw [shape, shape] at texts
  obtain ⟨signs, digits⟩ := signed_injective ((to_digits_first _).head_ne rfl)
    ((to_digits_first _).head_ne rfl) texts
  have amounts := to_digits_injective digits
  rw [decide_eq_decide] at signs
  omega

/-! ### Reading unsigned numbers -/

namespace Text

structure Digits (text : List Char) (n : Nat) : Prop where
  some : text ≠ []
  all : ∀ c ∈ text, c.isDigit = true
  value : Nat.ofDigitChars 10 text 0 = n

/-- An unsigned number up to a largest one: its digits, with or without a plus sign. -/
def Unsigned (largest : Nat) (text : List Char) (n : Nat) : Prop :=
  n ≤ largest ∧ (Digits text n ∨ ∃ digits, text = '+' :: digits ∧ Digits digits n)

theorem radix_digit_ten (c : Char) :
    radixDigitValue? 10 c = if c.isDigit then some (c.toNat - '0'.toNat) else none := by
  have class_eq : c.isDigit = (decide ('0' ≤ c) && decide (c ≤ '9')) := rfl
  have order (low high : Char) : (decide (low ≤ c) && decide (c ≤ high)) = true ↔
      low.toNat ≤ c.toNat ∧ c.toNat ≤ high.toNat := by
    simp only [Bool.and_eq_true, decide_eq_true_eq, Char.le_def, UInt32.le_iff_toNat_le]
    rfl
  unfold radixDigitValue?
  rw [class_eq]
  by_cases digit : (decide ('0' ≤ c) && decide (c ≤ '9')) = true
  · have bound := (order '0' '9').mp digit
    change 48 ≤ c.toNat ∧ c.toNat ≤ 57 at bound
    change (if (if _ then c.toNat - 48 else _) < 10 then _ else _) = _
    rw [if_pos digit, if_pos digit, if_pos (by omega)]
    rfl
  · rw [if_neg digit, if_neg digit]
    by_cases lower : (decide ('a' ≤ c) && decide (c ≤ 'f')) = true
    · have bound := (order 'a' 'f').mp lower
      change 97 ≤ c.toNat ∧ c.toNat ≤ 102 at bound
      rw [if_pos lower, if_neg (by omega)]
    · rw [if_neg lower]
      by_cases upper : (decide ('A' ≤ c) && decide (c ≤ 'F')) = true
      · have bound := (order 'A' 'F').mp upper
        change 65 ≤ c.toNat ∧ c.toNat ≤ 70 at bound
        rw [if_pos upper, if_neg (by omega)]
      · rw [if_neg upper, if_neg (Nat.lt_irrefl 10)]

theorem read_radix_from_ten (value : Nat) (text : List Char) :
    readRadixFrom 10 value text =
      if text.all Char.isDigit then some (Nat.ofDigitChars 10 text value) else none := by
  induction text generalizing value with
  | nil => simp [readRadixFrom, Nat.ofDigitChars]
  | cons c rest ih =>
      rw [readRadixFrom, radix_digit_ten]
      by_cases digit : c.isDigit = true
      · rw [if_pos digit, Option.bind_some, ih, Nat.ofDigitChars_cons, Nat.mul_comm value 10]
        simp only [List.all_cons, digit, Bool.true_and]
      · simp [digit]

theorem read_radix_ten_iff {text : List Char} {n : Nat} :
    readRadix? 10 text = some n ↔ Digits text n := by
  cases text with
  | nil => exact ⟨fun read => (nomatch read), fun digits => absurd rfl digits.some⟩
  | cons c rest =>
      have nonempty : (c :: rest).isEmpty ≠ true := by simp
      rw [readRadix?, if_neg nonempty, read_radix_from_ten]
      constructor
      · intro read
        split at read
        · next all =>
            exact ⟨List.cons_ne_nil c rest, List.all_eq_true.mp all, Option.some.inj read⟩
        · cases read
      · intro digits
        rw [if_pos (List.all_eq_true.mpr digits.all), digits.value]

theorem read_unsigned_iff {largest n : Nat} {text : List Char} :
    readUnsigned? largest text = some n ↔ Unsigned largest text n := by
  have bounded (digits : List Char) :
      (readRadix? 10 digits).filter (fun n => decide (n ≤ largest)) = some n ↔
        n ≤ largest ∧ Digits digits n := by
    rw [Option.filter_eq_some_iff, read_radix_ten_iff, decide_eq_true_eq]
    exact and_comm
  unfold readUnsigned? Unsigned
  split
  · next rest =>
      have signed : ¬ Digits ('+' :: rest) n := fun digits =>
        nomatch digits.all '+' (List.mem_cons_self ..)
      rw [bounded]
      simp [signed]
  · next plain =>
      rw [bounded]
      refine and_congr_right fun _ => ⟨.inl, ?_⟩
      rintro (digits | ⟨digits, same, -⟩)
      · exact digits
      · exact absurd same (plain digits)

theorem to_digits_digits (n : Nat) : Digits (Nat.toDigits 10 n) n where
  some := Nat.toDigits_ne_nil
  all := fun _ member => Nat.isDigit_of_mem_toDigits (by decide) (by decide) member
  value := Nat.ofDigitChars_ten_toDigits

end Text

end PromptLoom
