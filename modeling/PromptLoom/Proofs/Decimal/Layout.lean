import PromptLoom.Decimal.Style
import PromptLoom.Proofs.Decimal.Shortest
import PromptLoom.Proofs.Text.WholeNumbers

/-!
# Numbers are told apart by their texts

Every layout of a number is a numeral: digits, perhaps a point and more digits, perhaps a mark and
an exponent. A text is laid out from one numeral only, so what it stands for can be read off it, and
two numbers of the format with the same text are one number, in every style.
-/

namespace PromptLoom.Decimal

open Binary64 (Fits Canonical)

set_option autoImplicit false

/-! ### Numerals -/

/-- The digits before a point, those behind it, and the exponent behind a mark. -/
structure Numeral where
  whole : List Char
  fraction : List Char
  power : Option Int

namespace Numeral

/-- The text of the digits behind the point; without any there is no point. -/
def pointed (numeral : Numeral) : List Char :=
  if numeral.fraction.isEmpty then [] else '.' :: numeral.fraction

theorem pointed_of_ne_nil {numeral : Numeral} (written : numeral.fraction ≠ []) :
    numeral.pointed = '.' :: numeral.fraction := by
  rw [pointed, if_neg (by simpa using written)]

/-- The text of the exponent with its mark. A style may write a sign on those from zero on. -/
def marked (plusSign : Bool) (numeral : Numeral) : List Char :=
  match numeral.power with
  | none => []
  | some power =>
      'e' :: ((if plusSign && 0 ≤ power then ['+'] else []) ++ (toString power).toList)

def text (plusSign : Bool) (numeral : Numeral) : List Char :=
  numeral.whole ++ (numeral.pointed ++ numeral.marked plusSign)

def value (numeral : Numeral) : ℚ :=
  Nat.ofDigitChars 10 (numeral.whole ++ numeral.fraction) 0 *
    10 ^ (numeral.power.getD 0 - numeral.fraction.length)

/-- Digits where digits belong, and at least one before the point. -/
structure Digital (numeral : Numeral) : Prop where
  nonempty : numeral.whole ≠ []
  whole : ∀ c ∈ numeral.whole, c.isDigit = true
  fraction : ∀ c ∈ numeral.fraction, c.isDigit = true

theorem cut_digits {first second rest others : List Char}
    (digits : ∀ c ∈ first, c.isDigit = true) (otherDigits : ∀ c ∈ second, c.isDigit = true)
    (stop : rest.takeWhile Char.isDigit = []) (otherStop : others.takeWhile Char.isDigit = [])
    (same : first ++ rest = second ++ others) : first = second ∧ rest = others := by
  have front := congrArg (List.takeWhile Char.isDigit) same
  rw [List.takeWhile_append_of_pos digits, List.takeWhile_append_of_pos otherDigits, stop,
    otherStop, List.append_nil, List.append_nil] at front
  subst front
  exact ⟨rfl, List.append_cancel_left same⟩

variable {plusSign : Bool} {first second : Numeral}

theorem marked_stops (plusSign : Bool) (numeral : Numeral) :
    (numeral.marked plusSign).takeWhile Char.isDigit = [] := by
  unfold marked
  split <;> rfl

theorem tail_stops (plusSign : Bool) (numeral : Numeral) :
    (numeral.pointed ++ numeral.marked plusSign).takeWhile Char.isDigit = [] := by
  unfold pointed
  split
  · exact marked_stops plusSign numeral
  · rfl

theorem int_text_plus (power : Int) (rest : List Char) : (toString power).toList ≠ '+' :: rest := by
  rw [int_text]
  intro plus
  split at plus
  · cases (List.cons.inj plus).1
  · exact (to_digits_first power.natAbs).head_ne rfl (congrArg List.head? plus)

theorem exponent_text_injective {power other : Int}
    (same : (if plusSign && 0 ≤ power then ['+'] else []) ++ (toString power).toList =
      (if plusSign && 0 ≤ other then ['+'] else []) ++ (toString other).toList) :
    power = other := by
  have back (texts : (toString power).toList = (toString other).toList) : power = other :=
    int_text_injective (String.toList_inj.mp texts)
  split at same
  · split at same
    · exact back (List.cons.inj same).2
    · exact absurd same.symm (int_text_plus other _)
  · split at same
    · exact absurd same (int_text_plus power _)
    · exact back same

theorem marked_injective (same : first.marked plusSign = second.marked plusSign) :
    first.power = second.power := by
  unfold marked at same
  cases one : first.power with
  | none =>
      cases two : second.power with
      | none => rfl
      | some _ =>
          rw [one, two] at same
          cases same
  | some power =>
      cases two : second.power with
      | none =>
          rw [one, two] at same
          cases same
      | some other =>
          rw [one, two] at same
          exact congrArg some (exponent_text_injective (List.cons.inj same).2)

theorem marked_no_point (plusSign : Bool) (numeral : Numeral) (rest : List Char) :
    numeral.marked plusSign ≠ '.' :: rest := by
  unfold marked
  split <;> simp

theorem tail_injective (digits : ∀ c ∈ first.fraction, c.isDigit = true)
    (otherDigits : ∀ c ∈ second.fraction, c.isDigit = true)
    (same : first.pointed ++ first.marked plusSign = second.pointed ++ second.marked plusSign) :
    first.fraction = second.fraction ∧ first.power = second.power := by
  unfold pointed at same
  -- what follows the digits begins with a point only where there is a fraction
  split at same
  · next none =>
      split at same
      · next otherNone =>
          rw [List.isEmpty_iff.mp none, List.isEmpty_iff.mp otherNone]
          exact ⟨rfl, marked_injective same⟩
      · exact absurd same (marked_no_point plusSign first _)
  · split at same
    · exact absurd same.symm (marked_no_point plusSign second _)
    · obtain ⟨fractions, marks⟩ := cut_digits digits otherDigits (marked_stops plusSign first)
        (marked_stops plusSign second) (List.cons.inj same).2
      exact ⟨fractions, marked_injective marks⟩

/-- A text is laid out from one numeral only. -/
theorem text_injective (digital : first.Digital) (otherDigital : second.Digital)
    (same : first.text plusSign = second.text plusSign) : first = second := by
  obtain ⟨wholes, tails⟩ := cut_digits digital.whole otherDigital.whole (tail_stops plusSign first)
    (tail_stops plusSign second) same
  obtain ⟨fractions, powers⟩ := tail_injective digital.fraction otherDigital.fraction tails
  cases first
  cases second
  cases wholes
  cases fractions
  cases powers
  rfl

theorem text_digit_first (digital : first.Digital) : DigitFirst (first.text plusSign) := by
  obtain ⟨c, rest, shape⟩ := List.exists_cons_of_ne_nil digital.nonempty
  refine ⟨c, rest ++ (first.pointed ++ first.marked plusSign), ?_,
    digital.whole c (shape ▸ List.mem_cons_self ..)⟩
  rw [text, shape, List.cons_append]

end Numeral

/-! ### Layouts -/

namespace Style

def Spells (style : Style) (text : List Char) (value : ℚ) : Prop :=
  ∃ numeral : Numeral, numeral.Digital ∧ text = numeral.text style.plusSign ∧ value = numeral.value

variable {style : Style}

theorem Spells.unique {text : List Char} {value other : ℚ} (spells : style.Spells text value)
    (otherSpells : style.Spells text other) : value = other := by
  obtain ⟨first, digital, rfl, rfl⟩ := spells
  obtain ⟨second, otherDigital, same, rfl⟩ := otherSpells
  rw [Numeral.text_injective digital otherDigital same]

theorem zero_digits (count : Nat) : ∀ c ∈ List.replicate count '0', c.isDigit = true := by
  intro c member
  rw [List.eq_of_mem_replicate member]
  rfl

theorem spells_zero (style : Style) :
    style.Spells (if style.wholePoint then ['0', '.', '0'] else ['0']) 0 := by
  cases shape : style.wholePoint with
  | false =>
      refine ⟨⟨['0'], [], none⟩, ⟨List.cons_ne_nil _ _, zero_digits 1, zero_digits 0⟩, rfl, ?_⟩
      simp [Numeral.value, Nat.ofDigitChars]
  | true =>
      refine ⟨⟨['0'], ['0'], none⟩, ⟨List.cons_ne_nil _ _, zero_digits 1, zero_digits 1⟩, rfl, ?_⟩
      simp [Numeral.value, Nat.ofDigitChars]

/-- Digits of a decimal whose first digit has a given exponent. -/
structure Digits (digits : List Char) (decimal : Scaled) (leading : Int) : Prop where
  digital : ∀ c ∈ digits, c.isDigit = true
  nonempty : 0 < digits.length
  number : Nat.ofDigitChars 10 digits 0 = decimal.digits
  place : leading - digits.length + 1 = decimal.exponent

theorem decimal_digits (decimal : Scaled) :
    Digits (Nat.toDigits 10 decimal.digits) decimal
      (decimal.exponent + (Nat.toDigits 10 decimal.digits).length - 1) where
  digital _ member := Nat.isDigit_of_mem_toDigits (by decide) (by decide) member
  nonempty := Nat.length_toDigits_pos
  number := Nat.ofDigitChars_ten_toDigits
  place := by omega

variable {digits : List Char} {decimal : Scaled} {leading : Int}

theorem append_digits {front back : List Char} (first : ∀ c ∈ front, c.isDigit = true)
    (second : ∀ c ∈ back, c.isDigit = true) : ∀ c ∈ front ++ back, c.isDigit = true := by
  intro c member
  exact (List.mem_append.mp member).elim (first c) (second c)

theorem fraction_spells (style : Style) (of : Digits digits decimal leading) (below : leading < 0) :
    style.Spells ('0' :: '.' :: (List.replicate (-leading - 1).toNat '0' ++ digits))
      decimal.value := by
  have place := of.place
  have filled := of.nonempty
  refine ⟨⟨List.replicate 1 '0', List.replicate (-leading - 1).toNat '0' ++ digits, none⟩,
    ⟨List.cons_ne_nil _ _, zero_digits 1, append_digits (zero_digits _) of.digital⟩, ?_, ?_⟩
  · rw [Numeral.text, Numeral.pointed_of_ne_nil, Numeral.marked, List.append_nil]
    · rfl
    · rw [← List.length_pos_iff, List.length_append]
      omega
  · have places : (0 : Int) - (((-leading - 1).toNat + digits.length : Nat) : Int) =
        decimal.exponent := by omega
    simp only [Numeral.value, Nat.ofDigitChars_append, Nat.ofDigitChars_replicate_zero,
      List.length_append, List.length_replicate, Option.getD_none, places, mul_zero, of.number]
    rfl

theorem padded_spells (style : Style) (of : Digits digits decimal leading) (above : 0 ≤ leading)
    (few : digits.length ≤ leading.toNat + 1) :
    style.Spells (digits ++ List.replicate (leading.toNat + 1 - digits.length) '0' ++
      (if style.wholePoint then ['.', '0'] else [])) decimal.value := by
  have place := of.place
  have filled := of.nonempty
  have whole : digits ++ List.replicate (leading.toNat + 1 - digits.length) '0' ≠ [] := by
    rw [← List.length_pos_iff, List.length_append]
    omega
  have digital := append_digits of.digital (zero_digits (leading.toNat + 1 - digits.length))
  have places : ((leading.toNat + 1 - digits.length : Nat) : Int) = decimal.exponent := by omega
  have amount : decimal.value =
      ((10 ^ (leading.toNat + 1 - digits.length) * decimal.digits : Nat) : ℚ) := by
    rw [Scaled.value, ← places, zpow_natCast, Nat.cast_mul, Nat.cast_pow, Nat.cast_ofNat, mul_comm]
  cases shape : style.wholePoint with
  | false =>
      refine ⟨⟨_, [], none⟩, ⟨whole, digital, zero_digits 0⟩, ?_, ?_⟩
      · simp [Numeral.text, Numeral.pointed, Numeral.marked]
      · rw [amount]
        simp [Numeral.value, Nat.ofDigitChars_append, of.number]
  | true =>
      refine ⟨⟨_, List.replicate 1 '0', none⟩, ⟨whole, digital, zero_digits 1⟩, ?_, ?_⟩
      · simp [Numeral.text, Numeral.pointed, Numeral.marked]
      · rw [amount, Numeral.value, Nat.ofDigitChars_append, Nat.ofDigitChars_replicate_zero,
          Nat.ofDigitChars_append, of.number, Nat.ofDigitChars_replicate_zero]
        have tenth : (10 : ℚ) ^ ((none : Option Int).getD 0 - (List.replicate 1 '0').length) =
            1 / 10 := by norm_num
        rw [tenth]
        push_cast
        ring

theorem split_spells (style : Style) (of : Digits digits decimal leading) (above : 0 ≤ leading)
    (many : leading.toNat + 1 < digits.length) :
    style.Spells (digits.take (leading.toNat + 1) ++ '.' :: digits.drop (leading.toNat + 1))
      decimal.value := by
  have place := of.place
  refine ⟨⟨digits.take (leading.toNat + 1), digits.drop (leading.toNat + 1), none⟩,
    ⟨?_, fun c member => of.digital c (List.mem_of_mem_take member),
      fun c member => of.digital c (List.mem_of_mem_drop member)⟩, ?_, ?_⟩
  · rw [← List.length_pos_iff, List.length_take]
    omega
  · rw [Numeral.text, Numeral.pointed_of_ne_nil, Numeral.marked, List.append_nil]
    rw [← List.length_pos_iff, List.length_drop]
    omega
  · have places : (0 : Int) - ((digits.length - (leading.toNat + 1) : Nat) : Int) =
        decimal.exponent := by omega
    simp only [Numeral.value, List.take_append_drop, List.length_drop, Option.getD_none, places,
      of.number]
    rfl

theorem positional_spells (style : Style) (of : Digits digits decimal leading) :
    style.Spells (style.positional digits leading) decimal.value := by
  unfold positional
  split
  · next below => exact fraction_spells style of below
  · next above =>
      by_cases few : digits.length ≤ leading.toNat + 1
      · rw [if_pos few]
        exact padded_spells style of (not_lt.mp above) few
      · rw [if_neg few]
        exact split_spells style of (not_lt.mp above) (not_le.mp few)

theorem scientific_spells (style : Style) (of : Digits digits decimal leading) :
    style.Spells (style.scientific digits leading) decimal.value := by
  have place := of.place
  have filled := of.nonempty
  refine ⟨⟨digits.take 1, digits.drop 1, some leading⟩,
    ⟨?_, fun c member => of.digital c (List.mem_of_mem_take member),
      fun c member => of.digital c (List.mem_of_mem_drop member)⟩, ?_, ?_⟩
  · rw [← List.length_pos_iff, List.length_take]
    omega
  · match digits, filled with
    | [_], _ => rfl
    | first :: second :: rest, _ =>
        simp only [scientific, Numeral.text, Numeral.pointed, Numeral.marked]
        rfl
  · have places : leading - ((digits.length - 1 : Nat) : Int) = decimal.exponent := by omega
    simp only [Numeral.value, List.take_append_drop, List.length_drop, Option.getD_some, places,
      of.number]
    rfl

/-! ### Numbers of the format -/

def magnitude (significand : Nat) (exponent : Int) : ℚ :=
  if significand = 0 then 0 else (Shortest.ofFinite significand exponent).value

variable {significand other : Nat} {exponent otherExponent : Int}

theorem magnitude_injective (fits : Fits significand exponent)
    (otherFits : Fits other otherExponent)
    (same : magnitude significand exponent = magnitude other otherExponent) :
    significand = other ∧ exponent = otherExponent := by
  unfold magnitude at same
  split at same
  · next zero =>
      split at same
      · next otherZero =>
          subst zero otherZero
          exact ⟨rfl, (fits.full.resolve_left (by decide)).trans
            (otherFits.full.resolve_left (by decide)).symm⟩
      · next positive =>
          exact absurd same (Shortest.of_finite_pos otherFits (Nat.pos_of_ne_zero positive)).ne
  · next positive =>
      split at same
      · exact absurd same (Shortest.of_finite_pos fits (Nat.pos_of_ne_zero positive)).ne'
      · next otherPositive =>
          exact Shortest.of_finite_injective fits (Nat.pos_of_ne_zero positive) otherFits
            (Nat.pos_of_ne_zero otherPositive) same

def unsigned (style : Style) (significand : Nat) (exponent : Int) : List Char :=
  if significand = 0 then (if style.wholePoint then ['0', '.', '0'] else ['0'])
  else
    let decimal := Shortest.ofFinite significand exponent
    let digits := Nat.toDigits 10 decimal.digits
    let leading := decimal.exponent + (digits.length : Int) - 1
    if style.isPositional leading then style.positional digits leading
    else style.scientific digits leading

theorem write_finite (style : Style) (negative : Bool) (significand : Nat) (exponent : Int) :
    (style.write (.finite negative significand exponent)).toList =
      (if negative then ['-'] else []) ++ style.unsigned significand exponent := by
  simp only [write, unsigned, Nat.toString_eq_repr, Nat.toList_repr]
  split
  · rw [String.toList_ofList]
  · rw [String.toList_ofList]

theorem unsigned_spells (style : Style) (significand : Nat) (exponent : Int) :
    style.Spells (style.unsigned significand exponent) (magnitude significand exponent) := by
  unfold unsigned magnitude
  split
  · exact spells_zero style
  · dsimp only
    split
    · exact positional_spells style (decimal_digits _)
    · exact scientific_spells style (decimal_digits _)

theorem unsigned_digit_first (style : Style) (significand : Nat) (exponent : Int) :
    DigitFirst (style.unsigned significand exponent) := by
  obtain ⟨numeral, digital, text, -⟩ := unsigned_spells style significand exponent
  rw [text]
  exact Numeral.text_digit_first digital

/-- Finite numbers with the same text are one number. -/
theorem write_finite_injective (style : Style) {first second : Binary64}
    (canonical : first.Canonical) (otherCanonical : second.Canonical)
    (finite : first.isFinite = true) (otherFinite : second.isFinite = true)
    (same : style.write first = style.write second) : first = second := by
  cases first with
  | infinite | nan => cases finite
  | finite negative significand exponent =>
      cases second with
      | infinite | nan => cases otherFinite
      | finite otherNegative other otherExponent =>
          have texts := congrArg String.toList same
          rw [write_finite, write_finite] at texts
          obtain ⟨rfl, digits⟩ := signed_injective
            ((unsigned_digit_first style significand exponent).head_ne rfl)
            ((unsigned_digit_first style other otherExponent).head_ne rfl) texts
          have spells := unsigned_spells style significand exponent
          rw [digits] at spells
          obtain ⟨rfl, rfl⟩ := magnitude_injective canonical otherCanonical
            (spells.unique (unsigned_spells style other otherExponent))
          rfl

/-- Where whole numbers keep a point, the text of a finite number has a point or a mark. -/
theorem unsigned_marked {style : Style} (wholePoint : style.wholePoint = true) (significand : Nat)
    (exponent : Int) :
    '.' ∈ style.unsigned significand exponent ∨ 'e' ∈ style.unsigned significand exponent := by
  unfold unsigned
  simp only [wholePoint, if_true]
  split
  · simp
  · split
    · refine .inl ?_
      simp only [positional, wholePoint, if_true]
      split
      · simp
      · split
        · simp
        · simp
    · exact .inr (by simp [scientific])

end Style

end PromptLoom.Decimal
