import MarkovDecision.Solve.Bellman

/-!
# Policy evaluation

The utility of a fixed policy is approximated by a fixed number of synchronous sweeps, from zero or
from a given utility. A policy is checked first: every state must have an action, and then every
action must be legal.
-/

set_option autoImplicit false

namespace MarkovDecision

variable {K : Type} [Scalar K]

/-- The number of sweeps of an evaluation if none is given. -/
def defaultSweeps : Int := 20

def Model.checkLegal (model : Model K) (policy : Policy) :
    List Ident → Except (Fault K) Unit
  | [] => .ok ()
  | state :: rest => do
    let chosen ← policy.demand state
    let actions ← model.actions state
    if chosen ∈ actions then model.checkLegal policy rest
    else .error (.illegalAction state chosen)

/-- Check that a policy has a legal action in every state. All missing states are looked for before
any action is. -/
def Model.checkPolicy (model : Model K) (policy : Policy) : Except (Fault K) Unit :=
  match model.states.filter fun state => !policy.contains state with
  | first :: others => .error (.misuse (.incompletePolicy (others.length + 1) first))
  | [] => model.checkLegal policy model.states

def Model.policySweep (model : Model K) (policy : Policy) (utility : Utility K) :
    Inquiry K (Utility K) :=
  tabulate model.states fun state => do
    let chosen ← (policy.demand state : Except (Fault K) Ident)
    model.actionValue utility state chosen

/-- A number of sweeps, one after the other. -/
def Model.policySweeps (model : Model K) (policy : Policy) :
    Nat → Utility K → Inquiry K (Utility K)
  | 0, utility => return utility
  | count + 1, utility => do
    let next ← model.policySweep policy utility
    model.policySweeps policy count next

/-- Evaluate a policy by a number of sweeps, starting from zero if no utility is given. -/
def Model.evaluatePolicy (model : Model K) (policy : Policy) (sweeps : Int)
    (start : Option (Utility K)) : Inquiry K (Utility K) := do
  model.checkDiscount
  (checkCount .sweeps sweeps : Except (Fault K) Unit)
  model.checkPolicy policy
  model.policySweeps policy sweeps.toNat (start.getD model.zeroUtility)

end MarkovDecision
