import MarkovDecision.Simulate.Batch
import MarkovDecision.Statistics.Sum

/-!
# Estimates of utilities

The returns of the finished walks of a batch are summed up by their mean, their spread and a
confidence interval on the mean. How spread and interval are computed is a parameter; the laws of
estimates use only what they assume of it.
-/

set_option autoImplicit false

namespace MarkovDecision

variable {K : Type} [Scalar K]

/-- What an estimate consists of: the mean, the returns it was taken from, their standard deviation,
the ends of the confidence interval, and the numbers of finished and dropped walks. -/
structure Estimate (K : Type) where
  mean : K
  samples : List K
  deviation : K
  low : K
  high : K
  trials : Int
  discarded : Int

/-- How the spread of at least two numbers is measured: the standard deviation, and the interval on
the mean for a level of significance. -/
structure SpreadRules (K : Type) where
  deviation : List K → K
  interval : (significance : K) → List K → K × K

/-- Half the length of the confidence interval. -/
def Estimate.halfWidth (estimate : Estimate K) : K := (estimate.high - estimate.low) / Scalar.two

/-- Sum up returns. Without returns every statistic is undefined, and a single return is its own
interval. -/
def Estimate.ofReturns (rules : SpreadRules K) (significance : K) (discarded : Int) :
    List K → Estimate K
  | [] => ⟨Scalar.undefined, [], Scalar.undefined, Scalar.undefined, Scalar.undefined, 0, discarded⟩
  | [single] =>
    let mean := Statistics.mean [single]
    ⟨mean, [single], Scalar.zero, mean, mean, 1, discarded⟩
  | samples =>
    let interval := rules.interval significance samples
    ⟨Statistics.mean samples, samples, rules.deviation samples, interval.1, interval.2,
      samples.length, discarded⟩

def Estimate.ofRollouts (rules : SpreadRules K) (significance : K) (discarded : Int)
    (rollouts : List (Rollout K)) : Estimate K :=
  .ofReturns rules significance discarded (rollouts.map (·.total))

/-- The level of significance if none is given. -/
def defaultSignificance : K := Scalar.decimal 5 2

/-- The number of walks of a single estimate if none is given. -/
def defaultTrials : Int := 10000

/-- The number of walks for each state of a cross-check if none is given. -/
def defaultTrialsPerState : Int := 1000

section Walking

variable {Source : Type} [UniformSource Source K]

/-- The mean return of a policy and the returns it was taken from. It is a fault if no walk of the
batch is finished. -/
def Model.estimate (model : Model K) (policy : Policy) (start : Ident)
    (settings : BatchSettings) (source : Except (Fault K) Source) :
    Inquiry K (K × List K) := do
  let batch ← model.runBatch policy start { settings with keepTrajectories := false } source
  match batch.rollouts with
  | [] => .fail (.allWalksCut settings.maxSteps)
  | rollouts =>
    let samples := rollouts.map (·.total)
    return (Statistics.mean samples, samples)

end Walking

end MarkovDecision
