import Mathlib.Algebra.Order.Field.Basic
import Mathlib.Tactic.Linarith
import Mathlib.Tactic.NormNum
import Mathlib.Tactic.Ring
import MarkovDecision.Decimal.Places

/-!
# How long rounded decimals are

A number with three places takes seven characters as long as it rounds to at most three digits before
the point, two behind a minus sign. So the exact value of a double decides how long its text is, and
halves, which go to the even neighbour, are on the long side.
-/

set_option autoImplicit false

namespace MarkovDecision.Decimal

/-! ## Quotients -/

namespace Quotient

def value (quotient : Quotient) : ℚ := quotient.numerator / quotient.denominator

variable {quotient : Quotient} {bound : Nat}

private theorem value_lt_iff (positive : 0 < quotient.denominator) :
    quotient.value < bound - 1 / 2 ↔
      2 * quotient.numerator + quotient.denominator < 2 * (quotient.denominator * bound) := by
  have denominator : (0 : ℚ) < quotient.denominator := Nat.cast_pos.mpr positive
  rw [value, div_lt_iff₀ denominator, ← Nat.cast_lt (α := ℚ)]
  push_cast
  constructor <;> intro below <;> linarith

/-- A half below an even number goes up. -/
theorem nearest_lt_iff (positive : 0 < quotient.denominator) (even : bound % 2 = 0) :
    quotient.nearest < bound ↔ quotient.value < bound - 1 / 2 := by
  rw [value_lt_iff positive]
  obtain ⟨numerator, denominator⟩ := quotient
  simp only [nearest] at positive ⊢
  have split := Nat.div_add_mod numerator denominator
  have small := Nat.mod_lt numerator positive
  generalize numerator / denominator = below at split ⊢
  generalize numerator % denominator = rest at split small ⊢
  -- The products with the denominator are compared by the whole parts.
  have products : (below + 2 ≤ bound ∧ denominator * below + 2 * denominator ≤ denominator * bound) ∨
      (below + 1 = bound ∧ denominator * below + denominator = denominator * bound) ∨
      (bound ≤ below ∧ denominator * bound ≤ denominator * below) := by
    rcases Nat.lt_trichotomy (below + 1) bound with far | next | reached
    · left
      have scaled := Nat.mul_le_mul_left denominator far
      rw [Nat.succ_eq_add_one, Nat.mul_add, Nat.mul_add] at scaled
      omega
    · right; left
      subst next
      rw [Nat.mul_add]
      omega
    · right; right
      exact ⟨by omega, Nat.mul_le_mul_left denominator (by omega)⟩
  split
  · omega
  · split
    · omega
    · split <;> omega

private theorem value_ofBinary (mantissa : Nat) (exponent : Int) :
    (ofBinary mantissa exponent).value = mantissa * 2 ^ exponent := by
  cases exponent with
  | ofNat power => simp [ofBinary, value]
  | negSucc power => simp [ofBinary, value, zpow_negSucc, div_eq_mul_inv]

private theorem value_scaleTen (quotient : Quotient) (places : Nat) :
    (quotient.scaleTen places).value = quotient.value * 10 ^ places := by
  have scaled : quotient.scaleTen places =
      ⟨quotient.numerator * 10 ^ places, quotient.denominator⟩ := rfl
  rw [scaled, value, value]
  push_cast
  ring

private theorem denominator_ofBinary_pos (mantissa : Nat) (exponent : Int) :
    0 < (ofBinary mantissa exponent).denominator := by
  cases exponent with
  | ofNat power => exact Nat.one_pos
  | negSucc power => exact Nat.pow_pos Nat.two_pos

end Quotient

/-! ## Lengths -/

/-- The exact value of a reading that is a number. -/
def Reading.exact : Reading → Option ℚ
  | .finite negative mantissa exponent =>
    some (if negative then -(mantissa * 2 ^ exponent) else mantissa * 2 ^ exponent)
  | _ => none

private theorem length_digitsPadded (width number : Nat) :
    (digitsPadded width number).length = max width (Nat.toDigits 10 number).length := by
  rw [digitsPadded, List.length_append, List.length_replicate]
  omega

/-- A digit for every place, one before the point at least, the point and the sign. -/
theorem length_fixed {places : Nat} (positive : 0 < places) {number : Float} {negative : Bool}
    {mantissa : Nat} {exponent : Int}
    (reading : Reading.ofFloat number = .finite negative mantissa exponent) :
    (fixed places number).length = (signText negative false).length +
      max (places + 1) (Nat.toDigits 10
        ((Quotient.ofBinary mantissa exponent).scaleTen places).nearest).length + 1 := by
  have several := length_digitsPadded (places + 1)
    ((Quotient.ofBinary mantissa exponent).scaleTen places).nearest
  rw [fixed, reading]
  simp only
  generalize digitsPadded (places + 1)
    ((Quotient.ofBinary mantissa exponent).scaleTen places).nearest = digits at several ⊢
  have pointed : (digits.drop (digits.length - places)).isEmpty = false := by
    rw [List.isEmpty_eq_false_iff, ← List.length_pos_iff, List.length_drop]
    omega
  rw [if_neg (by simp [pointed]), String.length_ofList]
  simp only [List.length_append, List.length_take, List.length_cons, List.length_drop]
  omega

private theorem length_fixed_le_iff {places : Nat} (positive : 0 < places) {number : Float}
    {negative : Bool} {mantissa : Nat} {exponent : Int}
    (reading : Reading.ofFloat number = .finite negative mantissa exponent) (digits : Nat)
    (enough : places < digits) :
    (fixed places number).length ≤ (signText negative false).length + digits + 1 ↔
      (mantissa * 2 ^ exponent * 10 ^ places : ℚ) < 10 ^ digits - 1 / 2 := by
  have even : 10 ^ digits % 2 = 0 := by
    obtain ⟨less, rfl⟩ : ∃ less, digits = less + 1 := ⟨digits - 1, by omega⟩
    omega
  have divides : 0 < ((Quotient.ofBinary mantissa exponent).scaleTen places).denominator :=
    Quotient.denominator_ofBinary_pos mantissa exponent
  have rounded := Quotient.nearest_lt_iff divides even
  rw [Quotient.value_scaleTen, Quotient.value_ofBinary, Nat.cast_pow, Nat.cast_ofNat] at rounded
  rw [← rounded, ← Nat.length_toDigits_le_iff (by decide) (by omega), length_fixed positive reading]
  omega

theorem length_fixed_three_le_iff {number : Float} {value : ℚ}
    (exact : (Reading.ofFloat number).exact = some value) :
    (fixed 3 number).length ≤ 7 ↔ -(199999 / 2000) < value ∧ value < 1999999 / 2000 := by
  cases reading : Reading.ofFloat number with
  | notANumber => simp [reading, Reading.exact] at exact
  | infinite negative => simp [reading, Reading.exact] at exact
  | finite negative mantissa exponent =>
      rw [reading] at exact
      have size : (0 : ℚ) ≤ mantissa * 2 ^ exponent :=
        mul_nonneg (Nat.cast_nonneg _) (zpow_nonneg zero_le_two _)
      cases negative with
      | false =>
          have same : (mantissa * 2 ^ exponent : ℚ) = value := Option.some.inj exact
          have short : (fixed 3 number).length ≤ 7 ↔ _ :=
            length_fixed_le_iff three_pos reading 6 (by decide)
          rw [short, ← same]
          constructor
          · intro below
            constructor <;> linarith
          · rintro ⟨-, below⟩
            linarith
      | true =>
          have same : -(mantissa * 2 ^ exponent : ℚ) = value := Option.some.inj exact
          have short : (fixed 3 number).length ≤ 7 ↔ _ :=
            length_fixed_le_iff three_pos reading 5 (by decide)
          rw [short, ← same]
          constructor
          · intro below
            constructor <;> linarith
          · rintro ⟨above, -⟩
            linarith

end MarkovDecision.Decimal
