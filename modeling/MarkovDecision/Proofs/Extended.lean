import Mathlib.Algebra.Order.Field.Basic
import MarkovDecision.Model

/-!
# Exact numbers with infinities and an undefined value

The elements of an ordered field, two infinities and an undefined value form a type of scalars.
Arithmetic on finite numbers is exact and stays finite; with the other three values it goes on as
for doubles, except that there is one zero. Over the rationals everything can be evaluated.
-/

set_option autoImplicit false

namespace MarkovDecision

/-- An exact number, an infinity, or the undefined value. -/
inductive Extended (F : Type) where
  | finite (value : F)
  | posInf
  | negInf
  | undefined
  deriving DecidableEq

namespace Extended

variable {F : Type} [Field F] [LinearOrder F]

/-- The infinity on the side of zero on which a number lies. -/
def directed (value : F) : Extended F :=
  if 0 < value then .posInf else if value < 0 then .negInf else .undefined

/-- The sum. Infinities of opposite directions have none. -/
def add : Extended F → Extended F → Extended F
  | .finite left, .finite right => .finite (left + right)
  | .undefined, _ | _, .undefined | .posInf, .negInf | .negInf, .posInf => .undefined
  | .posInf, _ | _, .posInf => .posInf
  | .negInf, _ | _, .negInf => .negInf

def opposite : Extended F → Extended F
  | .finite value => .finite (-value)
  | .posInf => .negInf
  | .negInf => .posInf
  | .undefined => .undefined

/-- The product. Zero and an infinity have none. -/
def mul : Extended F → Extended F → Extended F
  | .finite left, .finite right => .finite (left * right)
  | .undefined, _ | _, .undefined => .undefined
  | .finite value, .posInf | .posInf, .finite value => directed value
  | .finite value, .negInf | .negInf, .finite value => directed (-value)
  | .posInf, .posInf | .negInf, .negInf => .posInf
  | .posInf, .negInf | .negInf, .posInf => .negInf

/-- The quotient. A finite number divided by zero is infinite, and undefined if it is zero. -/
def div : Extended F → Extended F → Extended F
  | .finite left, .finite right => if right = 0 then directed left else .finite (left / right)
  | .undefined, _ | _, .undefined => .undefined
  | .finite _, _ => .finite 0
  | .posInf, .finite value => if 0 ≤ value then .posInf else .negInf
  | .negInf, .finite value => if 0 ≤ value then .negInf else .posInf
  | _, _ => .undefined

def magnitude : Extended F → Extended F
  | .finite value => .finite |value|
  | .posInf | .negInf => .posInf
  | .undefined => .undefined

/-- Strict order. The undefined value is below nothing and above nothing. -/
def less : Extended F → Extended F → Bool
  | .finite left, .finite right => decide (left < right)
  | .negInf, .finite _ | .negInf, .posInf | .finite _, .posInf => true
  | _, _ => false

/-- Equality of numbers. The undefined value does not equal itself. -/
def agrees : Extended F → Extended F → Bool
  | .finite left, .finite right => decide (left = right)
  | .posInf, .posInf | .negInf, .negInf => true
  | _, _ => false

instance : Scalar (Extended F) where
  add := add
  sub left right := add left (opposite right)
  mul := mul
  div := div
  decimal significand places := .finite (significand / (10 ^ places : Nat))
  ofInt value := .finite value
  abs := magnitude
  negInf := .negInf
  posInf := .posInf
  undefined := .undefined
  equal := agrees
  below := less
  atMost left right := less left right || agrees left right

@[simp] theorem finite_add (left right : F) :
    (Extended.finite left + .finite right : Extended F) = .finite (left + right) := rfl

theorem add_swap (first second third : Extended F) :
    first + second + third = first + third + second := by
  cases first with
  | finite first =>
      cases second <;> cases third <;> try rfl
      exact congrArg finite (add_right_comm first _ _)
  | posInf => cases second <;> cases third <;> rfl
  | negInf => cases second <;> cases third <;> rfl
  | undefined => cases second <;> cases third <;> rfl

@[simp] theorem finite_sub (left right : F) :
    (Extended.finite left - .finite right : Extended F) = .finite (left - right) := by
  rw [sub_eq_add_neg]
  rfl

@[simp] theorem finite_mul (left right : F) :
    (Extended.finite left * .finite right : Extended F) = .finite (left * right) := rfl

theorem finite_div (left right : F) (nonzero : right ≠ 0) :
    (Extended.finite left / .finite right : Extended F) = .finite (left / right) :=
  if_neg nonzero

@[simp] theorem abs_finite (value : F) :
    Scalar.abs (Extended.finite value) = .finite |value| := rfl

@[simp] theorem zero_eq : (Scalar.zero : Extended F) = .finite 0 :=
  congrArg Extended.finite Int.cast_zero

@[simp] theorem one_eq : (Scalar.one : Extended F) = .finite 1 :=
  congrArg Extended.finite Int.cast_one

@[simp] theorem two_eq : (Scalar.two : Extended F) = .finite 2 :=
  congrArg Extended.finite (Int.cast_ofNat 2)

@[simp] theorem ofCount_eq (count : Nat) : (Scalar.ofCount count : Extended F) = .finite count :=
  congrArg Extended.finite (Int.cast_natCast count)

@[simp] theorem decimal_eq (significand places : Nat) :
    (Scalar.decimal significand places : Extended F) = .finite (significand / 10 ^ places) := by
  rw [← Nat.cast_ofNat, ← Nat.cast_pow]
  rfl

@[simp] theorem equal_finite (left right : F) :
    Scalar.equal (Extended.finite left) (.finite right) = decide (left = right) := rfl

@[simp] theorem below_finite (left right : F) :
    Scalar.below (Extended.finite left) (.finite right) = decide (left < right) := rfl

@[simp] theorem below_negInf_finite (value : F) :
    Scalar.below (Scalar.negInf : Extended F) (.finite value) = true := rfl

theorem below_negInf (value : Extended F) :
    Scalar.below value (Scalar.negInf : Extended F) = false := by
  cases value <;> rfl

@[simp] theorem atMost_finite (left right : F) :
    Scalar.atMost (Extended.finite left) (.finite right) = decide (left ≤ right) := by
  have split : Scalar.atMost (Extended.finite left) (.finite right) =
      (decide (left < right) || decide (left = right)) := rfl
  rw [split, ← Bool.decide_or]
  exact decide_eq_decide.mpr le_iff_lt_or_eq.symm

@[simp] theorem atMost_finite_posInf (value : F) :
    Scalar.atMost (Extended.finite value) (Scalar.posInf : Extended F) = true := rfl

theorem foldl_add_finite (values : List F) (sum : F) :
    (values.map Extended.finite).foldl (· + ·) (.finite sum) = .finite (sum + values.sum) := by
  induction values generalizing sum with
  | nil => simp
  | cons value rest ih =>
      rw [List.map_cons, List.foldl_cons, finite_add, ih, List.sum_cons, add_assoc]

end Extended

end MarkovDecision
