/-!
# Numbers

Probabilities, rewards, discounts and utilities are scalars: a type with arithmetic, three decidable
comparisons, and the three values that stand for no finite number. Nothing else is assumed, so one
definition of a solver covers doubles, whose instance is given here, and exact numbers extended by
the two infinities and an undefined value. Comparisons with an undefined value are allowed to fail
in every direction.
-/

set_option autoImplicit false

namespace MarkovDecision

/-- The numbers that models, solvers and simulations compute with. -/
class Scalar (K : Type) extends Add K, Sub K, Mul K, Div K where
  /-- The decimal `significand / 10 ^ places`. -/
  decimal : (significand places : Nat) → K
  ofInt : Int → K
  abs : K → K
  negInf : K
  posInf : K
  undefined : K
  equal : K → K → Bool
  /-- Whether the first number is strictly below the second. -/
  below : K → K → Bool
  /-- Whether the first number is below or equal to the second. -/
  atMost : K → K → Bool

namespace Scalar

variable {K : Type} [Scalar K]

/-- The number zero. -/
def zero : K := ofInt 0

/-- The number one. -/
def one : K := ofInt 1

/-- The number two. -/
def two : K := ofInt 2

/-- A count as a number. -/
def ofCount (count : Nat) : K := ofInt count

end Scalar

instance : Scalar Float where
  decimal significand places := OfScientific.ofScientific significand true places
  ofInt := Float.ofInt
  abs := Float.abs
  negInf := -1.0 / 0.0
  posInf := 1.0 / 0.0
  undefined := 0.0 / 0.0
  equal left right := left == right
  below left right := decide (left < right)
  atMost left right := decide (left ≤ right)

end MarkovDecision
