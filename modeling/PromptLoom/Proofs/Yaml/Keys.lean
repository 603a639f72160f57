import PromptLoom.Proofs.Decimal.Layout
import PromptLoom.Proofs.Reading
import PromptLoom.Proofs.Yaml.WellFormed

/-!
# Which keys share a text

Truth values, whole numbers and other numbers have texts of three different forms, and within each
form a text has one value. So two keys of a mapping that are written alike are a text and what it
spells, never two of one sort.
-/

namespace PromptLoom.Yaml.Value

open Decimal

set_option autoImplicit false

def isText : Value → Bool
  | text _ => true
  | _ => false

/-! ### The texts of numbers -/

/-- What stands behind the sign of a number: digits with a point or a mark, or a point and a
word. -/
def Unsigned (number : Binary64) (sign : Bool) (rest : List Char) : Prop :=
  (number.isFinite = true ∧ DigitFirst rest ∧ ('.' ∈ rest ∨ 'e' ∈ rest)) ∨
    (number = .infinite sign ∧ rest = ".inf".toList) ∨ (number = .nan ∧ rest = ".nan".toList)

theorem number_text (number : Binary64) :
    ∃ sign rest, (numberStyle.write number).toList = (if sign then ['-'] else []) ++ rest ∧
      Unsigned number sign rest := by
  cases number with
  | finite negative significand exponent =>
      exact ⟨negative, _, Style.write_finite .., .inl ⟨rfl, Style.unsigned_digit_first ..,
        Style.unsigned_marked rfl ..⟩⟩
  | infinite negative =>
      refine ⟨negative, _, ?_, .inr (.inl ⟨rfl, rfl⟩)⟩
      cases negative <;> rfl
  | nan => exact ⟨false, _, rfl, .inr (.inr ⟨rfl, rfl⟩)⟩

theorem Unsigned.head_ne {number : Binary64} {sign : Bool} {rest : List Char}
    (shape : Unsigned number sign rest) {c : Char} (other : c.isDigit = false) (noPoint : c ≠ '.') :
    rest.head? ≠ some c := by
  rcases shape with ⟨-, digits, -⟩ | ⟨-, rfl⟩ | ⟨-, rfl⟩
  · exact digits.head_ne other
  · exact fun same => noPoint (Option.some.inj same).symm
  · exact fun same => noPoint (Option.some.inj same).symm

theorem number_text_marked (number : Binary64) :
    '.' ∈ (numberStyle.write number).toList ∨ 'e' ∈ (numberStyle.write number).toList := by
  obtain ⟨sign, rest, text, shape⟩ := number_text number
  rw [text, List.mem_append, List.mem_append]
  rcases shape with ⟨-, -, marked⟩ | ⟨-, rfl⟩ | ⟨-, rfl⟩
  · exact marked.imp .inr .inr
  · exact .inl (.inr (by decide))
  · exact .inl (.inr (by decide))

theorem number_text_head (number : Binary64) {c : Char} (other : c.isDigit = false)
    (noSign : c ≠ '-') (noPoint : c ≠ '.') : (numberStyle.write number).toList.head? ≠ some c := by
  obtain ⟨sign, rest, text, shape⟩ := number_text number
  rw [text]
  cases sign with
  | true => exact fun same => noSign (Option.some.inj same).symm
  | false => exact shape.head_ne other noPoint

theorem number_text_injective {first second : Binary64} (canonical : first.Canonical)
    (otherCanonical : second.Canonical)
    (same : numberStyle.write first = numberStyle.write second) : first = second := by
  obtain ⟨sign, rest, text, shape⟩ := number_text first
  obtain ⟨otherSign, other, otherText, otherShape⟩ := number_text second
  rw [same, otherText] at text
  obtain ⟨rfl, rfl⟩ := signed_injective (otherShape.head_ne rfl (by decide))
    (shape.head_ne rfl (by decide)) text
  have noDigit {word : String} (point : word.toList.head? = some '.')
      (digits : DigitFirst word.toList) : False := digits.head_ne rfl point
  rcases shape with ⟨finite, digits, -⟩ | ⟨rfl, rfl⟩ | ⟨rfl, rfl⟩
  · rcases otherShape with ⟨otherFinite, -, -⟩ | ⟨-, rfl⟩ | ⟨-, rfl⟩
    · exact Style.write_finite_injective _ canonical otherCanonical finite otherFinite same
    · exact (noDigit rfl digits).elim
    · exact (noDigit rfl digits).elim
  · rcases otherShape with ⟨-, digits, -⟩ | ⟨rfl, -⟩ | ⟨-, words⟩
    · exact (noDigit rfl digits).elim
    · rfl
    · exact absurd words (by decide)
  · rcases otherShape with ⟨-, digits, -⟩ | ⟨-, words⟩ | ⟨rfl, -⟩
    · exact (noDigit rfl digits).elim
    · exact absurd words (by decide)
    · rfl

theorem int_text_unmarked (n : Int) :
    '.' ∉ (toString n).toList ∧ 'e' ∉ (toString n).toList := by
  have digits : ∀ c ∈ (toString n).toList, c = '-' ∨ c.isDigit = true := by
    intro c member
    rw [int_text, List.mem_append] at member
    rcases member with sign | amount
    · split at sign
      · exact .inl (List.mem_singleton.mp sign)
      · cases sign
    · exact .inr (Nat.isDigit_of_mem_toDigits (by decide) (by decide) amount)
  exact ⟨fun member => absurd (digits _ member) (by decide),
    fun member => absurd (digits _ member) (by decide)⟩

/-! ### Keys -/

def word (value : Bool) : String := if value then "true" else "false"

theorem word_injective : ∀ first second, word first = word second → first = second := by decide

theorem word_ne_int (value : Bool) (n : Int) : word value ≠ toString n := by
  intro same
  have unmarked := (int_text_unmarked n).2
  rw [← same] at unmarked
  exact unmarked (by cases value <;> decide)

theorem word_ne_number (value : Bool) (number : Binary64) :
    word value ≠ numberStyle.write number := by
  intro same
  have heads := congrArg (fun text => text.toList.head?) same
  cases value with
  | false => exact number_text_head number (c := 'f') rfl (by decide) (by decide) heads.symm
  | true => exact number_text_head number (c := 't') rfl (by decide) (by decide) heads.symm

theorem int_ne_number (n : Int) (number : Binary64) : toString n ≠ numberStyle.write number := by
  intro same
  have marked := number_text_marked number
  rw [← same] at marked
  exact marked.elim (int_text_unmarked n).1 (int_text_unmarked n).2

/-- Two scalars that are no texts are the same key when they are written alike. -/
theorem same_of_scalar_text {key other : Value} {shown : String} (canonical : key.Canonical)
    (otherCanonical : other.Canonical) (plain : key.isText = false)
    (otherPlain : other.isText = false)
    (written : key.scalarText? = some shown) (otherWritten : other.scalarText? = some shown) :
    key.same other = true := by
  cases key with
  | null | list | map | tagged => cases written
  | text => cases plain
  | bool first =>
      obtain rfl : word first = shown := Option.some.inj written
      cases other with
      | null | list | map | tagged => cases otherWritten
      | text => cases otherPlain
      | bool second =>
          have values := word_injective _ _ (Option.some.inj otherWritten)
          simp [same, values]
      | int n => exact absurd (Option.some.inj otherWritten).symm (word_ne_int first n)
      | float number =>
          exact absurd (Option.some.inj otherWritten).symm (word_ne_number first number)
  | int n =>
      obtain rfl : toString n = shown := Option.some.inj written
      cases other with
      | null | list | map | tagged => cases otherWritten
      | text => cases otherPlain
      | bool second => exact absurd (Option.some.inj otherWritten) (word_ne_int second n)
      | int m =>
          have values := int_text_injective (Option.some.inj otherWritten)
          simp [same, values]
      | float number => exact absurd (Option.some.inj otherWritten).symm (int_ne_number n number)
  | float number =>
      obtain rfl : numberStyle.write number = shown := Option.some.inj written
      cases other with
      | null | list | map | tagged => cases otherWritten
      | text => cases otherPlain
      | bool second => exact absurd (Option.some.inj otherWritten) (word_ne_number second number)
      | int n => exact absurd (Option.some.inj otherWritten) (int_ne_number n number)
      | float second =>
          cases canonical with
          | float first =>
          cases otherCanonical with
          | float last =>
          obtain rfl := number_text_injective last first (Option.some.inj otherWritten)
          cases second <;> simp [same, Binary64.sameValue]

/-- A text is written as itself, so two of them that are written alike are the same key. -/
theorem same_of_texts {key other : Value} (text : key.isText = true)
    (otherText : other.isText = true) (alike : key.scalarText? = other.scalarText?) : key.same other = true := by
  cases key with
  | null | list | map | tagged | bool | int | float => cases text
  | text first =>
      cases other with
      | null | list | map | tagged | bool | int | float => cases otherText
      | text second =>
          have values : first = second := Option.some.inj alike
          simp [same, values]

/-- Two scalar keys that are not the same and are written alike: one is a text, the other what it
spells. -/
theorem one_text_of_alike {key other : Value} (canonical : key.Canonical)
    (otherCanonical : other.Canonical) (different : key.same other = false) {shown : String}
    (written : key.scalarText? = some shown) (otherWritten : other.scalarText? = some shown) :
    key.isText ≠ other.isText := by
  intro sort
  have equal : key.same other = true := by
    cases text : key.isText with
    | true => exact same_of_texts text (sort ▸ text) (written.trans otherWritten.symm)
    | false =>
        exact same_of_scalar_text canonical otherCanonical text (sort ▸ text) written otherWritten
  cases equal.symm.trans different

/-! ### Mappings -/

theorem canonical_keys {entries : List (Value × Value)} : ∀ value : Value, value.Canonical →
    value.entries? = some entries → ∀ entry ∈ entries, entry.1.Canonical
  | .tagged _ value, .tagged _ inner, mapping => canonical_keys value inner mapping
  | .map _, .map keys _, mapping => Option.some.inj mapping ▸ keys

theorem WellFormed.keys {value : Value} (formed : value.WellFormed)
    {entries : List (Value × Value)} (mapping : value.entries? = some entries) :
    (∀ entry ∈ entries, entry.1.Canonical) ∧
      entries.Pairwise fun entry later => entry.1.same later.1 = false :=
  ⟨canonical_keys value formed.canonical mapping,
    List.pairwise_map.mp (Config.keys_apart (Config.entries_distinct mapping formed.distinct))⟩

end PromptLoom.Yaml.Value
