import MarkovDecision.Random.Source
import MarkovDecision.Solve.PolicyEvaluation

/-!
# Modified policy iteration

Rounds of a bounded evaluation, which starts from the utility of the round before, alternate with
greedy improvement. An action is replaced only by a best action that is better by more than a small
margin, and a round that replaces nothing is the last. The loop has a budget, and an exhausted
budget gives no result.
-/

set_option autoImplicit false

namespace MarkovDecision

variable {K : Type} [Scalar K]

/-- By how much a new action must be better than the old one. -/
def improvementMargin : K := Scalar.decimal 1 12

/-- What a round came to: the policy after it, the utility of the policy that entered it, and how
many actions it replaced. -/
structure Round (K : Type) where
  index : Nat
  policy : Policy
  utility : Utility K
  replaced : Nat

def Round.changed (round : Round K) : Bool := decide (0 < round.replaced)

/-- The final policy and all rounds, in order. -/
structure PolicyIteration (K : Type) where
  policy : Policy
  rounds : List (Round K)

section Drawing

variable {Source : Type} [IndexSource Source]

/-- Give each state in turn one of its actions, drawn from a source. -/
def Model.drawActions (model : Model K) :
    List Ident → Source → Policy → Except (Fault K) Policy
  | [], _, policy => .ok policy
  | state :: rest, source, policy => do
    let actions ← model.actions state
    let (position, later) := IndexSource.index actions.length source
    match actions[position]? with
    | none => .error (.badPosition .outsideList)
    | some action => model.drawActions rest later (policy.insert state action)

def Model.randomPolicy (model : Model K) (source : Source) : Except (Fault K) Policy :=
  model.drawActions model.states source .empty

/-- The policy that policy iteration starts from: a given one, or one drawn from a source, which
may be refused. -/
inductive StartingPolicy (K Source : Type) where
  | given (policy : Policy)
  | drawn (source : Except (Fault K) Source)

/-- The starting policy. A given one is checked, and kept for the states of the model alone. -/
def Model.startPolicy (model : Model K) :
    StartingPolicy K Source → Except (Fault K) Policy
  | .given policy => do
    model.checkPolicy policy
    let pairs ← model.states.mapM fun state => do
      let action ← policy.demand state
      return (state, action)
    return .ofPairs pairs
  | .drawn source => do
    let ready ← source
    model.randomPolicy ready

end Drawing

/-- Go through states and replace the action of each for which the best action is better by more
than the margin. A state that is listed again meets the action chosen before. -/
def Model.improvePolicy (model : Model K) (utility : Utility K) :
    List Ident → Policy × Nat → Inquiry K (Policy × Nat)
  | [], improved => return improved
  | state :: rest, (policy, replaced) => do
    let (best, bestValue) ← model.bestAction utility state
    let current ← (policy.demand state : Except (Fault K) Ident)
    let value ← model.expectedValue utility state current
    if Scalar.below (value + improvementMargin) bestValue then
      model.improvePolicy utility rest (policy.insert state best, replaced + 1)
    else model.improvePolicy utility rest (policy, replaced)

/-- One round: evaluate the policy, improve it and note how many actions were replaced. -/
def Model.policyRound (model : Model K) (sweeps : Int) (index : Nat) (policy : Policy)
    (start : Option (Utility K)) : Inquiry K (Round K) := do
  let utility ← model.evaluatePolicy policy sweeps start
  let (improved, replaced) ← model.improvePolicy utility model.states (policy, 0)
  Inquiry.report (.round index replaced)
  return ⟨index, improved, utility, replaced⟩

/-- Rounds until one replaces nothing, for at most `budget` rounds. `before` lists the rounds made,
latest first. -/
def Model.policyRounds (model : Model K) (sweeps : Int) :
    (budget : Nat) → Policy → Option (Utility K) → List (Round K) →
      Inquiry K (Option (List (Round K)))
  | 0, _, _, _ => return none
  | budget + 1, policy, start, before => do
    let round ← model.policyRound sweeps (before.length + 1) policy start
    if round.changed then
      model.policyRounds sweeps budget round.policy (some round.utility) (round :: before)
    else return some (round :: before)

/-- Modified policy iteration. The discount and the number of sweeps are checked before the starting
policy is looked at. -/
def Model.policyIteration {Source : Type} [IndexSource Source] (model : Model K) (sweeps : Int)
    (start : StartingPolicy K Source) (budget : Nat) :
    Inquiry K (Option (PolicyIteration K)) := do
  model.checkDiscount
  (checkCount .sweepsPerEvaluation sweeps : Except (Fault K) Unit)
  let policy ← (model.startPolicy start : Except (Fault K) Policy)
  match ← model.policyRounds sweeps budget policy none [] with
  | some (last :: earlier) =>
    Inquiry.report (.roundsDone last.index)
    return some ⟨last.policy, (last :: earlier).reverse⟩
  | _ => return none

end MarkovDecision
