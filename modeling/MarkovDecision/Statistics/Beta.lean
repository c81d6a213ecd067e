import MarkovDecision.Statistics.Magnitude

/-!
# Quantiles of beta distributions

The distribution function of the beta distribution with parameters `a` and `b` is a power series
with positive terms: `x ^ a * (1 - x) ^ b` times the sum of the products of
`(a + b + i) / (a + 1 + i) * x`, up to a constant. The series of the two tails add up to the whole
mass at every `x`, which gives the constant at `x = 1 / 2` without a gamma function. Parameters are
halves of natural numbers and are given doubled, so every quantity is compared through its square,
which is rational.
-/

set_option autoImplicit false

namespace MarkovDecision.Statistics

open Magnitude

/-- Add up the terms of the tail series from the term with the given index on, until they no longer
reach the leading bits of the sum. -/
def tailTerms (bits first second : Nat) (point : Magnitude) :
    (fuel index : Nat) → (term sum : Magnitude) → Magnitude
  | 0, _, _, sum => sum
  | fuel + 1, index, term, sum =>
    let numerator := first + second + 2 * index
    let denominator := first + 2 + 2 * index
    let next := cut bits
      ⟨(term.mantissa * point.mantissa * numerator) <<< 8 / denominator,
        term.exponent + point.exponent - 8⟩
    if next.mantissa = 0 || next.leading + (bits : Int) < sum.leading then sum
    else tailTerms bits first second point fuel (index + 1) next (add bits sum next)

/-- The tail series at a point, divided by the first of the doubled parameters. -/
def tailSeries (bits first second : Nat) (point : Magnitude) : Magnitude :=
  let start : Magnitude := ⟨Nat.pow 2 bits, -(bits : Int)⟩
  let sum := tailTerms bits first second point (4 * (first + second) + 16 * bits) 0 start start
  div bits sum (ofNat first)

/-- The square of the mass between zero and a point, where `whole` is the sum of both tail series at
one half. -/
def tailMassSquared (bits first second : Nat) (whole point : Magnitude) : Magnitude :=
  let other := complement bits point
  let double (number : Magnitude) : Magnitude := ⟨number.mantissa, number.exponent + 1⟩
  let ratio := div bits (tailSeries bits first second point) whole
  mul bits (mul bits (pow bits (double point) first) (pow bits (double other) second))
    (mul bits ratio ratio)

/-- The point below which the distribution with the doubled parameters `first` and `second` has the
given mass, strictly between zero and one, to 64 bits. -/
def betaQuantile (first second : Nat) (mass : Magnitude) : Magnitude :=
  let spare (number : Magnitude) : Nat := number.leading.natAbs
  let rest := complement (mass.leading.natAbs + mass.exponent.natAbs + 64) mass
  let bits := 160 + spare mass + spare rest
  let half : Magnitude := ⟨1, -1⟩
  let whole := add bits (tailSeries bits first second half) (tailSeries bits second first half)
  let massSquared := mul bits mass mass
  let restSquared := mul bits rest rest
  let reaches (point : Magnitude) : Bool :=
    if atMost point half then
      atMost (tailMassSquared bits first second whole point) massSquared
    else
      atMost restSquared (tailMassSquared bits second first whole (complement bits point))
  let rec descend : Nat → Int → Int
    | 0, power => power
    | fuel + 1, power => if reaches ⟨1, power⟩ then power else descend fuel (power - 1)
  let rec refine : Nat → Magnitude → Magnitude
    | 0, point => point
    | fuel + 1, point =>
      let finer : Magnitude := ⟨2 * point.mantissa, point.exponent - 1⟩
      let next : Magnitude := ⟨finer.mantissa + 1, finer.exponent⟩
      refine fuel (if reaches next then next else finer)
  refine 64 ⟨1, descend 8000 (-1)⟩

/-- A float between zero and one that is a probability. -/
def isMass (probability : Float) : Bool := 0 ≤ probability && probability ≤ 1

/-- The quantile of the beta distribution with whole parameters; not a number unless the parameters
are positive and the mass is a probability. -/
def betaLower (mass : Float) (first second : Int) : Float :=
  if first ≤ 0 || second ≤ 0 || !isMass mass then 0 / 0
  else if mass == 0 then 0
  else if mass == 1 then 1
  else (betaQuantile (2 * first.toNat) (2 * second.toNat) (.ofFloat mass)).toFloat

/-- The point above which the beta distribution has the given mass. -/
def betaUpper (mass : Float) (first second : Int) : Float :=
  if first ≤ 0 || second ≤ 0 || !isMass mass then 0 / 0
  else if mass == 0 then 1
  else if mass == 1 then 0
  else
    let rest := betaQuantile (2 * second.toNat) (2 * first.toNat) (.ofFloat mass)
    (complement 128 rest).toFloat

end MarkovDecision.Statistics
