import MarkovDecision.Estimate

/-!
# Cross-checks

The utility of a policy is estimated from several start states, each with its own source of
randomness, and compared with computed utilities. A state passes if its computed utility lies within
the half-width of its confidence interval, plus a tolerance, of the mean.
-/

set_option autoImplicit false

namespace MarkovDecision

variable {K : Type} [Scalar K]

/-- Estimates of states. -/
abbrev Estimates (K : Type) := Table Ident (Estimate K)

/-- A computed utility beside its estimate. -/
structure Discrepancy (K : Type) where
  state : Ident
  analytic : K
  empirical : K
  error : K
  passes : Bool

/-- Discrepancies of states. -/
abbrev Report (K : Type) := Table Ident (Discrepancy K)

/-- The states that are not terminal, as they are listed. -/
def Model.openStates (model : Model K) : List Ident :=
  model.states.filter fun state => !model.isTerminal state

section Walking

variable {Source : Type} [UniformSource Source K]

/-- Estimate each of the states, the one at place `index` with the source of that number. -/
def Model.estimateEach (model : Model K) (rules : SpreadRules K) (policy : Policy)
    (settings : BatchSettings) (significance : K) (source : Nat → Except (Fault K) Source) :
    List Ident → (index : Nat) → Estimates K → Inquiry K (Estimates K)
  | [], _, estimates => return estimates
  | state :: rest, index, estimates => do
    let batch ← model.runBatch policy state settings (source index)
    let estimate := Estimate.ofRollouts rules significance batch.discarded batch.rollouts
    Inquiry.report (.stateEstimated state estimate.mean estimate.trials)
    model.estimateEach rules policy settings significance source rest (index + 1)
      (estimates.insert state estimate)

/-- Estimate the utility of a policy from each of the given states, or from every state that is not
terminal. The policy is checked first. -/
def Model.evaluateByWalks (model : Model K) (rules : SpreadRules K) (policy : Policy)
    (states : Option (List Ident)) (settings : BatchSettings) (significance : K)
    (source : Nat → Except (Fault K) Source) : Inquiry K (Estimates K) := do
  model.checkPolicy policy
  model.estimateEach rules policy { settings with keepTrajectories := false } significance source
    (states.getD model.openStates) 0 .empty

end Walking

def compareState (utility : Utility K) (tolerance : K) (state : Ident) (estimate : Estimate K) :
    Except (Fault K) (Discrepancy K) := do
  let analytic ← utility.demand state
  let error := Scalar.abs (analytic - estimate.mean)
  return ⟨state, analytic, estimate.mean, error,
    Scalar.atMost error (tolerance + estimate.halfWidth)⟩

/-- Compare computed utilities with estimates, state by state. -/
def compareEstimates (utility : Utility K) (estimates : Estimates K) (tolerance : K) :
    Except (Fault K) (Report K) := do
  let pairs ← estimates.entries.mapM fun entry => do
    let discrepancy ← compareState utility tolerance entry.1 entry.2
    return (entry.1, discrepancy)
  return .ofPairs pairs

end MarkovDecision
