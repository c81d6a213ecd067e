import MarkovDecision.Estimate
import MarkovDecision.Statistics.Student

/-!
# Intervals on means and rates

The spread of returns is measured by the standard deviation with one degree of freedom less than
there are returns, and by the interval of Student's distribution around their mean. The interval on
a rate is the one whose ends are quantiles of beta distributions.
-/

set_option autoImplicit false

namespace MarkovDecision.Statistics

def standardDeviation (numbers : List Float) : Float :=
  (squaredDeviations numbers / Scalar.ofCount (numbers.length - 1)).sqrt

/-- The interval on the mean of at least two numbers for a level of significance. -/
def studentInterval (significance : Float) (numbers : List Float) : Float × Float :=
  let center := mean numbers
  let freedom := numbers.length - 1
  let spread := (squaredDeviations numbers / Scalar.ofCount numbers.length).sqrt
  let reach := studentQuantile (1 - significance / 2) freedom *
    (spread / (Scalar.ofCount freedom : Float).sqrt)
  (center - reach, center + reach)

def studentRules : SpreadRules Float := ⟨standardDeviation, studentInterval⟩

/-- The interval on the rate of an outcome that occurred `count` times in at least one trial. -/
def rateInterval (significance : Float) (count trials : Int) : Float × Float :=
  let half := significance / 2
  (if count = 0 then 0 else betaLower half count (trials - count + 1),
    if count = trials then 1 else betaUpper half (count + 1) (trials - count))

end MarkovDecision.Statistics
