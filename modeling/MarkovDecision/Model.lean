import MarkovDecision.Table
import MarkovDecision.Scalar
import MarkovDecision.Fault

/-!
# Markov decision processes

A model lists its states, gives each state its actions and each state and action a row of successor
probabilities, and rewards transitions. Nothing is checked when a model is put together. Its parts
are checked when they are used: `Model.actions` refuses a state without actions, and `Model.row`
refuses a missing row and a row that `checkRow` rejects. `Model.validate` is the check of everything
at once, and adds that the initial state is known and that terminal states loop without reward.
-/

set_option autoImplicit false

namespace MarkovDecision

/-- The probabilities of the successors of a state under an action. A successor that is not listed
has probability zero. -/
abbrev Row (K : Type) := Table Ident K

/-- Utilities of states. -/
abbrev Utility (K : Type) := Table Ident K

/-- Chosen actions of states. -/
abbrev Policy := Table Ident Ident

/-- A finite Markov decision process. `states` fixes the order in which states are visited and may
repeat a state; `terminals` is read as a set. -/
structure Model (K : Type) where
  states : List Ident
  actionTable : Table Ident (List Ident)
  rowTable : Table (Ident × Ident) (Row K)
  reward : Ident → Ident → Ident → K
  discount : K
  initial : Ident
  terminals : List Ident
  noop : Ident

variable {K : Type}

/-- The value of a key, or the fault that it is missing. -/
def Table.demand {Value : Type} (table : Table Ident Value) (key : Ident) :
    Except (Fault K) Value :=
  match table.get? key with
  | some value => .ok value
  | none => .error (.missingKey key)

def Model.knows (model : Model K) (state : Ident) : Bool := decide (state ∈ model.states)

def Model.isTerminal (model : Model K) (state : Ident) : Bool := decide (state ∈ model.terminals)

/-- The legal actions of a state, in the order that decides ties. -/
def Model.actions (model : Model K) (state : Ident) : Except (Fault K) (List Ident) :=
  match model.actionTable.get? state with
  | some (first :: rest) => .ok (first :: rest)
  | _ => .error (.malformed (.noActions state))

/-- The row of a state and an action as it was written down, unchecked. -/
def Model.rawRow (model : Model K) (state action : Ident) : Except (Fault K) (Row K) :=
  match model.rowTable.get? (state, action) with
  | some row => .ok row
  | none => .error (.malformed (.noRow state action))

section Checks

variable [Scalar K]

def massTolerance : K := Scalar.decimal 1 9

/-- Add up the entries of a row in order, stopping at the first that is negative or that gives
positive probability to a successor which `admits` refuses. -/
def rowMass (admits : Ident → Bool) (state action : Ident) :
    List (Ident × K) → K → Except (Fault K) K
  | [], total => .ok total
  | (successor, probability) :: rest, total =>
    if Scalar.below probability Scalar.zero then
      .error (.malformed (.negativeProbability probability state action successor))
    else if Scalar.below Scalar.zero probability && !admits successor then
      .error (.malformed (.unknownSuccessor state action successor))
    else rowMass admits state action rest (total + probability)

/-- Check that a row is a probability distribution over admitted successors. The first bad entry is
reported; a wrong total only if every entry is good. -/
def checkRow (row : Row K) (state action : Ident) (admits : Ident → Bool) :
    Except (Fault K) Unit := do
  let total ← rowMass admits state action row.entries Scalar.zero
  if Scalar.below massTolerance (Scalar.abs (total - Scalar.one)) then
    .error (.malformed (.wrongTotal state action total))
  else .ok ()

/-- The row of a state and an action, checked against the states of the model. -/
def Model.row (model : Model K) (state action : Ident) : Except (Fault K) (Row K) := do
  let row ← model.rawRow state action
  checkRow row state action model.knows
  return row

/-- Check that a discount lies in `[0, 1)`. -/
def Model.checkDiscount (model : Model K) : Except (Fault K) Unit :=
  if Scalar.atMost Scalar.zero model.discount && Scalar.below model.discount Scalar.one then .ok ()
  else .error (.misuse (.discountOutOfRange model.discount))

def checkCount (name : CountName) (count : Int) : Except (Fault K) Unit :=
  if count ≤ 0 then .error (.misuse (.countNotPositive name count)) else .ok ()

end Checks

/-- The actions and rows of terminal states: one action without effect, which stays. -/
def absorbingActions (terminals : List Ident) (noop : Ident) : Table Ident (List Ident) :=
  .ofKeys terminals fun _ => [noop]

/-- The rows that belong to `absorbingActions`. -/
def absorbingRows [Scalar K] (terminals : List Ident) (noop : Ident) :
    Table (Ident × Ident) (Row K) :=
  .ofPairs (terminals.map fun state => ((state, noop), .ofPairs [(state, Scalar.one)]))

end MarkovDecision
