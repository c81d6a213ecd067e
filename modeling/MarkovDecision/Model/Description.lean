import MarkovDecision.Model

/-!
# Models written down by tables

A description lists the parts of a model. Its terminal states absorb unless this is switched off;
the listed actions and rows are written over them. Rewards are looked up in three tables, the most
detailed one first.
-/

set_option autoImplicit false

namespace MarkovDecision

variable {K : Type} [Scalar K]

/-- Rewards by transition, by state and successor, and by successor, with a value for all other
transitions. Transitions from terminal states may be declared free of reward. -/
structure RewardTables (K : Type) where
  byTransition : Table (Ident × Ident × Ident) K
  byStates : Table (Ident × Ident) K
  bySuccessor : Table Ident K
  otherwise : K
  terminalsFree : Bool

/-- The reward of a transition: the first hit among the tables. -/
def RewardTables.reward (tables : RewardTables K) (terminals : List Ident)
    (state action successor : Ident) : K :=
  if tables.terminalsFree ∧ state ∈ terminals then Scalar.zero
  else
    ((tables.byTransition.get? (state, action, successor)).or
      ((tables.byStates.get? (state, successor)).or
        (tables.bySuccessor.get? successor))).getD tables.otherwise

/-- A model as it is written down. -/
structure Description (K : Type) where
  states : List Ident
  terminals : List Ident
  noop : Ident
  absorbing : Bool
  actions : List (Ident × List Ident)
  rows : List ((Ident × Ident) × Row K)
  rewards : RewardTables K
  discount : K
  initial : Ident

def Description.model (description : Description K) : Model K where
  states := description.states
  actionTable :=
    (if description.absorbing then absorbingActions description.terminals description.noop
      else .empty).insertAll description.actions
  rowTable :=
    (if description.absorbing then absorbingRows description.terminals description.noop
      else .empty).insertAll description.rows
  reward := description.rewards.reward description.terminals
  discount := description.discount
  initial := description.initial
  terminals := description.terminals
  noop := description.noop

/-- The policy that takes, in every state, the action at one place of its list. Places are counted
around the list. -/
def Model.placedPolicy (model : Model K) (place : Int) : Except (Fault K) Policy := do
  let pairs ← model.states.mapM fun state => do
    let actions ← model.actionTable.demand state
    if actions.isEmpty then .error .divisionByZero
    else
      match actions[(place % (actions.length : Int)).toNat]? with
      | some action => .ok (state, action)
      | none => .error (.badPosition .outsideList)
  return .ofPairs pairs

def Model.constantUtility (model : Model K) (value : K) : Utility K :=
  .ofKeys model.states fun _ => value

end MarkovDecision
