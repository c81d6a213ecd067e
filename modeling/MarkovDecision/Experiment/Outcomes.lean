import MarkovDecision.Estimate
import MarkovDecision.Ident.Written

/-!
# Where walks end

The finished walks of a batch are counted by the terminal state in which they end. Every terminal
state of the model has a rate and an interval on it, also one that no walk reached, and the states
are listed in the order of their written names.
-/

set_option autoImplicit false

namespace MarkovDecision

variable {K : Type} [Scalar K]

/-- How often walks end in a terminal state. -/
structure EndingRate (K : Type) where
  state : Ident
  rate : K
  low : K
  high : K

/-- A rule for the interval on a rate, for at least one trial. -/
abbrev RateRule (K : Type) := (count trials : Int) → K × K

/-- The interval on the rate of an outcome. Without trials nothing is known of it. -/
def rateBounds (rule : RateRule K) (count trials : Int) : K × K :=
  if trials = 0 then (Scalar.zero, Scalar.one) else rule count trials

/-- The share of `count` in `trials`; zero without trials. -/
def share (count trials : Nat) : K :=
  if trials = 0 then Scalar.zero else Scalar.ofCount count / Scalar.ofCount trials

/-- The terminal states, each once, in the order of their written names. -/
def Model.sortedTerminals (model : Model K) : List Ident :=
  (Table.ofKeys model.terminals fun _ => ()).keys.mergeSort fun left right =>
    decide (left.written ≤ right.written)

def endingCount (rollouts : List (Rollout K)) (state : Ident) : Nat :=
  rollouts.countP fun rollout => decide (rollout.final = state)

def endingRate (rule : RateRule K) (rollouts : List (Rollout K)) (state : Ident) : EndingRate K :=
  let count := endingCount rollouts state
  let bounds := rateBounds rule count rollouts.length
  ⟨state, share count rollouts.length, bounds.1, bounds.2⟩

def Model.endingRates (model : Model K) (rule : RateRule K) (rollouts : List (Rollout K)) :
    List (EndingRate K) :=
  model.sortedTerminals.map (endingRate rule rollouts)

section Walking

variable {Source : Type} [UniformSource Source K]

/-- Walk from the initial state: the estimate of its utility, and where the walks end. -/
def Model.walkToEnds (model : Model K) (rules : SpreadRules K) (rule : RateRule K)
    (significance : K) (policy : Policy) (settings : BatchSettings)
    (source : Except (Fault K) Source) : Inquiry K (Estimate K × List (EndingRate K)) := do
  let batch ← model.runBatch policy .blank settings source
  return (.ofRollouts rules significance batch.discarded batch.rollouts,
    model.endingRates rule batch.rollouts)

end Walking

end MarkovDecision
