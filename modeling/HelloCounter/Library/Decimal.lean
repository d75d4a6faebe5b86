import Mathlib.Data.List.Basic
import Mathlib.Tactic.Tauto

/-! Unsigned decimal numbers with a largest value.  `parse` reads an optional plus sign and one or
more digits, and gives up at the first character that is no digit or makes the number too large. -/

namespace Decimal

inductive IntErrorKind where
  | empty
  | invalidDigit
  | posOverflow
deriving DecidableEq

def IntErrorKind.message : IntErrorKind → String
  | .empty => "cannot parse integer from empty string"
  | .invalidDigit => "invalid digit found in string"
  | .posOverflow => "number too large to fit in target type"

def digitValue (c : Char) : Nat := c.toNat - '0'.toNat

def parseDigits (max : Nat) : Nat → List Char → Except IntErrorKind Nat
  | result, [] => .ok result
  | result, c :: digits =>
    if c.isDigit then
      if 10 * result + digitValue c ≤ max then parseDigits max (10 * result + digitValue c) digits
      else .error .posOverflow
    else .error .invalidDigit

def parse (max : Nat) : List Char → Except IntErrorKind Nat
  | [] => .error .empty
  | ['+'] => .error .invalidDigit
  | ['-'] => .error .invalidDigit
  | '+' :: digits => parseDigits max 0 digits
  | digits => parseDigits max 0 digits

/-- An optional plus sign and one or more digits with value `n`. -/
def IsNumber (text : List Char) (n : Nat) : Prop :=
  ∃ digits, (text = digits ∨ text = '+' :: digits) ∧ digits ≠ [] ∧
    (∀ c ∈ digits, c.isDigit = true) ∧ Nat.ofDigitChars 10 digits 0 = n

variable {max result n : Nat} {text digits : List Char}

theorem le_ofDigitChars (digits : List Char) (result : Nat) :
    result ≤ Nat.ofDigitChars 10 digits result := by
  induction digits generalizing result with
  | nil => exact Nat.le_of_eq Nat.ofDigitChars_nil.symm
  | cons c digits ih =>
    rw [Nat.ofDigitChars_cons]
    have := ih (10 * result + (c.toNat - '0'.toNat))
    omega

/-- No digit string that fits overflows on the way, since its prefixes are no larger. -/
theorem parseDigits_eq_ok_iff (hResult : result ≤ max) :
    parseDigits max result digits = .ok n ↔
      (∀ c ∈ digits, c.isDigit = true) ∧ Nat.ofDigitChars 10 digits result = n ∧ n ≤ max := by
  induction digits generalizing result with
  | nil =>
    rw [parseDigits, Nat.ofDigitChars_nil]
    constructor
    · intro h
      obtain rfl := Except.ok.inj h
      exact ⟨fun c hc => absurd hc List.not_mem_nil, rfl, hResult⟩
    · rintro ⟨-, rfl, -⟩
      rfl
  | cons c digits ih =>
    rw [parseDigits, Nat.ofDigitChars_cons, List.forall_mem_cons]
    split
    · next hDigit =>
      split
      · next hNext =>
        rw [ih hNext]
        exact ⟨fun ⟨hDigits, h⟩ => ⟨⟨hDigit, hDigits⟩, h⟩,
          fun ⟨⟨_, hDigits⟩, h⟩ => ⟨hDigits, h⟩⟩
      · next hNext =>
        have := le_ofDigitChars digits (10 * result + digitValue c)
        constructor
        · intro h
          cases h
        · rintro ⟨-, rfl, hMax⟩
          exact absurd (Nat.le_trans this hMax) hNext
    · next hDigit =>
      constructor
      · intro h
        cases h
      · rintro ⟨⟨hDigit', -⟩, -⟩
        exact absurd hDigit' hDigit

theorem parse_plus (hDigits : digits ≠ []) :
    parse max ('+' :: digits) = parseDigits max 0 digits := by
  cases digits with
  | nil => exact absurd rfl hDigits
  | cons c digits => rfl

theorem parse_unsigned (hText : text ≠ []) (hPlus : text.head? ≠ some '+') :
    parse max text = parseDigits max 0 text := by
  unfold parse
  split
  · exact absurd rfl hText
  · exact absurd rfl hPlus
  · rfl
  · exact absurd rfl hPlus
  · rfl

theorem isNumber_plus : IsNumber ('+' :: digits) n ↔
    digits ≠ [] ∧ (∀ c ∈ digits, c.isDigit = true) ∧ Nat.ofDigitChars 10 digits 0 = n := by
  constructor
  · rintro ⟨digits', hText | hText, hDigits⟩
    · subst hText
      exact absurd (hDigits.2.1 '+' List.mem_cons_self) (by decide)
    · cases hText
      exact hDigits
  · exact fun h => ⟨digits, .inr rfl, h⟩

theorem isNumber_unsigned (hPlus : text.head? ≠ some '+') : IsNumber text n ↔
    text ≠ [] ∧ (∀ c ∈ text, c.isDigit = true) ∧ Nat.ofDigitChars 10 text 0 = n := by
  constructor
  · rintro ⟨digits, rfl | rfl, hDigits⟩
    · exact hDigits
    · exact absurd rfl hPlus
  · exact fun h => ⟨text, .inl rfl, h⟩

/-- `parse` accepts exactly the numbers up to the largest value. -/
theorem parse_eq_ok_iff : parse max text = .ok n ↔ IsNumber text n ∧ n ≤ max := by
  by_cases hPlus : text.head? = some '+'
  · obtain ⟨digits, rfl⟩ := List.head?_eq_some_iff.mp hPlus
    rw [isNumber_plus]
    by_cases hDigits : digits = []
    · subst hDigits
      simp [parse]
    · rw [parse_plus hDigits, parseDigits_eq_ok_iff (Nat.zero_le max)]
      tauto
  · rw [isNumber_unsigned hPlus]
    by_cases hText : text = []
    · subst hText
      simp [parse]
    · rw [parse_unsigned hText hPlus, parseDigits_eq_ok_iff (Nat.zero_le max)]
      tauto

end Decimal
