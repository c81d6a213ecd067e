import MarkovDecision.Inquiry
import MarkovDecision.Random.Source

/-!
# Walks

A walk follows a policy from a start state, draws each successor from the row of the current state
with one uniform, and adds up discounted rewards, until it stands on a terminal state. A walk that
has made as many steps as it may without reaching one is cut.
-/

set_option autoImplicit false

namespace MarkovDecision

variable {K : Type} [Scalar K]

/-- Run through the entries of a row and stop at the first whose cumulative probability exceeds the
uniform. Entries without positive probability are passed over. If none exceeds it, the last positive
entry is taken, and `last` if there is none. -/
def drawFrom (uniform : K) : List (Ident × K) → K → Option Ident → Option Ident
  | [], _, last => last
  | (successor, probability) :: rest, cumulative, last =>
    if Scalar.atMost probability Scalar.zero then drawFrom uniform rest cumulative last
    else
      let reached := cumulative + probability
      if Scalar.below uniform reached then some successor
      else drawFrom uniform rest reached (some successor)

/-- The successor that a uniform selects from a row, if the row has a positive entry. -/
def Row.draw? (row : Row K) (uniform : K) : Option Ident :=
  drawFrom uniform row.entries Scalar.zero none

/-- The selected successor; a row without positive entries gives the blank name. -/
def Row.draw (row : Row K) (uniform : K) : Ident := (Row.draw? row uniform).getD .blank

/-- One step of a walk. -/
structure Step (K : Type) where
  state : Ident
  action : Ident
  successor : Ident
  reward : K

/-- A finished walk: its number, its discounted return, its length, the state it ended in, and its
steps if they were kept. -/
structure Rollout (K : Type) where
  trial : Int
  total : K
  steps : Int
  terminated : Bool
  final : Ident
  trajectory : List (Step K)

/-- Where a walk stands: the state, the return and the discount weight collected so far, the number
of steps, and the steps that were kept, latest first. -/
structure Position (K : Type) where
  state : Ident
  total : K
  weight : K
  steps : Nat
  kept : List (Step K)

/-- How a walk ended. -/
inductive WalkEnd (K : Type) where
  | absorbed (position : Position K)
  | cut (last : Ident)

def Position.start (state : Ident) : Position K := ⟨state, Scalar.zero, Scalar.one, 0, []⟩

/-- The position after a step with the given discount. -/
def Position.advance (position : Position K) (discount : K) (keep : Bool) (step : Step K) :
    Position K :=
  ⟨step.successor, position.total + position.weight * step.reward, position.weight * discount,
    position.steps + 1, if keep then step :: position.kept else []⟩

section Walking

variable {Source : Type} [UniformSource Source K]

/-- The successor that the next uniform of a source selects, and the source after it. -/
def Row.sample (row : Row K) (source : Source) : Ident × Source :=
  let (uniform, later) := UniformSource.uniform source
  (Row.draw row uniform, later)

/-- Walk on for at most `allowed` steps. -/
def Model.walkFrom (model : Model K) (policy : Policy) (keep : Bool) :
    (allowed : Nat) → Position K → Source → Inquiry K (WalkEnd K × Source)
  | 0, position, source =>
    if model.isTerminal position.state then return (.absorbed position, source)
    else return (.cut position.state, source)
  | allowed + 1, position, source =>
    if model.isTerminal position.state then return (.absorbed position, source)
    else do
      let action ← (policy.demand position.state : Except (Fault K) Ident)
      let row ← Inquiry.rowOf position.state action
      let (successor, later) := Row.sample row source
      let reward := model.reward position.state action successor
      let step : Step K := ⟨position.state, action, successor, reward⟩
      model.walkFrom policy keep allowed (position.advance model.discount keep step) later

/-- Walk from a state for at most `limit` steps. -/
def Model.walk (model : Model K) (policy : Policy) (start : Ident) (limit : Int) (keep : Bool)
    (source : Source) : Inquiry K (WalkEnd K × Source) :=
  model.walkFrom policy keep limit.toNat (.start start) source

def Position.rollout (position : Position K) (trial : Int) : Rollout K :=
  ⟨trial, position.total, position.steps, true, position.state, position.kept.reverse⟩

/-- A single rollout. A walk that is cut is a fault. -/
def Model.rollout (model : Model K) (policy : Policy) (start : Ident) (trial limit : Int)
    (keep : Bool) (source : Source) : Inquiry K (Rollout K × Source) := do
  let (ending, later) ← model.walk policy start limit keep source
  match ending with
  | .absorbed position => return (position.rollout trial, later)
  | .cut last => .fail (.walkCut trial limit last)

end Walking

/-- The number of steps that a walk may make if no number is given. -/
def defaultMaxSteps : Int := 1000

end MarkovDecision
