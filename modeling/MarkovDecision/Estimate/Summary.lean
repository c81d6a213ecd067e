import MarkovDecision.Decimal.Places
import MarkovDecision.Estimate
import MarkovDecision.Text.Align

/-!
# Summaries of estimates

An estimate is shown in seven lines, its numbers to four places.
-/

set_option autoImplicit false

namespace MarkovDecision

open Decimal (fixed)

def Estimate.summary (estimate : Estimate Float) : List String :=
  ["Monte Carlo Utility Estimate",
    Text.repeated '=' 40,
    s!"Trials: {estimate.trials}",
    s!"Discarded: {estimate.discarded}",
    s!"Mean: {fixed 4 estimate.mean}",
    s!"Std: {fixed 4 estimate.deviation}",
    s!"CI: [{fixed 4 estimate.low}, {fixed 4 estimate.high}]"]

end MarkovDecision
