import MarkovDecision.Statistics.Beta

/-!
# Quantiles of Student's distribution

If `t` has Student's distribution with `n` degrees of freedom, `n / (n + t ^ 2)` has the beta
distribution with parameters `n / 2` and `1 / 2`, and its complement the one with the parameters
exchanged. The two-sided tail is looked up in the one where it keeps its leading bits.
-/

set_option autoImplicit false

namespace MarkovDecision.Statistics

open Magnitude

/-- The positive `t` beyond which, on both sides together, the distribution has the given mass,
strictly between zero and one. -/
def studentTwoSided (freedom : Nat) (tail : Magnitude) : Float :=
  let scaled (numerator denominator : Magnitude) : Float :=
    (mul 128 (ofNat freedom) (div 128 numerator denominator)).sqrtToFloat
  if atMost tail ⟨1, -1⟩ then
    let point := betaQuantile freedom 1 tail
    scaled (complement 128 point) point
  else
    let point := betaQuantile 1 freedom (complement 128 tail)
    scaled point (complement 128 point)

/-- The quantile of Student's distribution: infinite at the masses zero and one, and not a number
for anything that is not a probability. -/
def studentQuantile (mass : Float) (freedom : Nat) : Float :=
  if !isMass mass then 0 / 0
  else if mass == 0 then -1 / 0
  else if mass == 1 then 1 / 0
  else if mass == 0.5 then 0
  else
    let tail (one : Float) : Magnitude :=
      let exact := Magnitude.ofFloat one
      ⟨exact.mantissa, exact.exponent + 1⟩
    if 0.5 < mass then studentTwoSided freedom (tail (1 - mass))
    else -studentTwoSided freedom (tail mass)

end MarkovDecision.Statistics
