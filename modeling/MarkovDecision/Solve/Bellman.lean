import MarkovDecision.Inquiry

/-!
# Bellman backups

The value of an action is the expected reward plus the discounted utility of the successor. From it
come the best action of a state, the table of all action values, the synchronous sweep, which reads
only the old utilities, and the greedy policy. Among actions of equal value the first one declared
wins, because a later action replaces the incumbent only if it is strictly better.
-/

set_option autoImplicit false

namespace MarkovDecision

variable {K : Type} [Scalar K]

/-- The values of actions in states. -/
abbrev ActionValues (K : Type) := Table (Ident × Ident) K

/-- Add the contributions of the entries of a row, in order, to a running total. Successors of
probability zero are passed over, so their utilities need not be known. -/
def Model.accumulate (model : Model K) (utility : Utility K) (state action : Ident) :
    List (Ident × K) → K → Except (Fault K) K
  | [], total => .ok total
  | (successor, probability) :: rest, total =>
    if Scalar.equal probability Scalar.zero then
      model.accumulate utility state action rest total
    else do
      let later ← utility.demand successor
      let gain := model.reward state action successor + model.discount * later
      model.accumulate utility state action rest (total + probability * gain)

/-- The expected reward and discounted utility of an action, which need not be legal. -/
def Model.expectedValue (model : Model K) (utility : Utility K) (state action : Ident) :
    Inquiry K K := do
  let row ← Inquiry.rowOf state action
  model.accumulate utility state action row.entries Scalar.zero

def Model.actionValue (model : Model K) (utility : Utility K) (state action : Ident) :
    Inquiry K K := do
  let actions ← model.actions state
  if action ∈ actions then model.expectedValue utility state action
  else .fail (.illegalAction state action)

/-- Run through actions and keep the incumbent unless a later action is strictly better. -/
def Model.improveOver (model : Model K) (utility : Utility K) (state : Ident) :
    List Ident → Ident × K → Inquiry K (Ident × K)
  | [], incumbent => return incumbent
  | action :: rest, incumbent => do
    let value ← model.expectedValue utility state action
    model.improveOver utility state rest
      (if Scalar.below incumbent.2 value then (action, value) else incumbent)

/-- The first action of greatest value, and that value. The first incumbent is the blank action at
minus infinity, which stays if no action has a value above that. -/
def Model.bestAction (model : Model K) (utility : Utility K) (state : Ident) :
    Inquiry K (Ident × K) := do
  let actions ← model.actions state
  model.improveOver utility state actions (.blank, Scalar.negInf)

def Model.stateValue (model : Model K) (utility : Utility K) (state : Ident) : Inquiry K K := do
  let (_, value) ← model.bestAction utility state
  return value

/-- Compute a value for each key in turn and collect them. -/
def tabulate {Value Key : Type} [DecidableEq Key] (keys : List Key)
    (compute : Key → Inquiry K Value) : Inquiry K (Table Key Value) := do
  let pairs ← keys.mapM fun key => do
    let value ← compute key
    return (key, value)
  return .ofPairs pairs

def Model.actionValues (model : Model K) (utility : Utility K) : Inquiry K (ActionValues K) := do
  let groups ← model.states.mapM fun state => do
    let actions ← model.actions state
    actions.mapM fun action => do
      let value ← model.expectedValue utility state action
      return ((state, action), value)
  return .ofPairs groups.flatten

def Model.sweep (model : Model K) (utility : Utility K) : Inquiry K (Utility K) :=
  tabulate model.states (model.stateValue utility)

def Model.greedyPolicy (model : Model K) (utility : Utility K) : Inquiry K Policy :=
  tabulate model.states fun state => do
    let (action, _) ← model.bestAction utility state
    return action

/-- Utility zero in every state. -/
def Model.zeroUtility (model : Model K) : Utility K := .ofKeys model.states fun _ => Scalar.zero

/-- The greatest of some numbers, or zero if there are none. A later number replaces an earlier one
only if it is strictly greater, so an undefined number in front stays. -/
def greatest : List K → K
  | [] => Scalar.zero
  | first :: rest =>
    rest.foldl (fun best number => if Scalar.below best number then number else best) first

/-- The greatest distance between two utilities over the states of the first. -/
def Utility.distance (left right : Utility K) : Except (Fault K) K := do
  let gaps ← left.entries.mapM fun entry => do
    let other ← right.demand entry.1
    return Scalar.abs (entry.2 - other)
  return greatest gaps

end MarkovDecision
