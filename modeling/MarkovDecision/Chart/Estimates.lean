import MarkovDecision.Chart.Convergence
import MarkovDecision.CrossCheck
import MarkovDecision.Decimal.Places

/-!
# Charts of estimates

The distribution of the returns behind an estimate, and computed utilities beside estimated ones.
-/

set_option autoImplicit false

namespace MarkovDecision.Chart

open Decimal (fixed)

/-- The title of a distribution if none is given. -/
def distributionTitle : String := "Discounted Return Distribution"

/-- The histogram of the returns of an estimate, with its mean, its interval and, if given, the
computed utility. -/
def returnDistribution (estimate : Estimate Float) (analytic : Option Float) (title : String)
    (delivery : Delivery) : Plot :=
  if estimate.samples.isEmpty then .missing "No samples to plot"
  else
    let computed := analytic.toList.map fun value =>
      Stroke.upright value "red" (some "--") s!"Analytic = {fixed 3 value}"
    .drawn 8 5
      ([.histogram estimate.samples 40 "steelblue",
        .upright estimate.mean "black" none s!"MC mean = {fixed 3 estimate.mean}",
        .band estimate.low estimate.high "gray" "Confidence interval"] ++ computed ++
        [.horizontalTitle "Discounted Return", .verticalTitle "Trial Count",
          .title s!"{title}\n({estimate.trials} trials)", .legend, .gridLines false]) delivery

def barWidth : Float := 0.35

/-- Bars of computed utilities beside bars of estimated ones with their intervals. -/
def utilityComparison (utility : Utility Float) (estimates : Estimates Float)
    (labels : Table Ident String) (delivery : Delivery) : Except (Fault Float) Plot :=
  if estimates.entries.isEmpty then .ok (.missing "No estimates to plot")
  else do
    let computed ← estimates.keys.mapM fun state => utility.demand state
    let places := List.range estimates.size
    let centers := places.map Float.ofNat
    return .drawn (max 8 estimates.size) 5
      [.bars (centers.map (· - barWidth / 2)) computed barWidth none "red" "Analytic",
        .bars (centers.map (· + barWidth / 2)) (estimates.values.map (·.mean)) barWidth
          (some (estimates.values.map (·.halfWidth))) "steelblue" "Monte Carlo",
        .ticks places, .tickLabels (estimates.keys.map (labelOf labels)),
        .verticalTitle "Utility", .title "Analytic vs Monte Carlo Utility", .legend,
        .gridLines false] delivery

end MarkovDecision.Chart
