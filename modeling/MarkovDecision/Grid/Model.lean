import MarkovDecision.Grid.Layout

/-!
# The model of a grid

Terminal cells absorb. From every other free cell each of the four moves goes in the intended
direction with the intended probability, and slips to each of the two perpendicular directions with
half of what is left. Outcomes that end in one cell are added up, in the order intended move, first
slip, second slip. Entering a terminal cell earns its reward, every other step the step reward.
-/

set_option autoImplicit false

namespace MarkovDecision.Grid

variable {K : Type} [Scalar K]

/-- The rewards of terminal states. A cell that is listed twice keeps its last reward. -/
def rewardTable (grid : Grid K) : Except (Fault K) (Table Ident K) := do
  let pairs ← grid.terminalRewards.mapM fun entry => do
    let state ← grid.stateAt entry.1
    return (state, entry.2)
  return .ofPairs pairs

def slipProbability (grid : Grid K) : K := (Scalar.one - grid.intendedProbability) / Scalar.two

/-- The moves that an intended move may turn into, with their probabilities. -/
def outcomes (grid : Grid K) (intended : Direction) : List (Direction × K) :=
  [(intended, grid.intendedProbability),
    (intended.perpendicular.1, grid.slipProbability),
    (intended.perpendicular.2, grid.slipProbability)]

/-- Add the outcomes to a row, leaving out those of probability zero. -/
def mergeOutcomes (grid : Grid K) (cell : Cell) :
    List (Direction × K) → Row K → Except (Fault K) (Row K)
  | [], row => .ok row
  | (direction, probability) :: rest, row =>
    if Scalar.equal probability Scalar.zero then grid.mergeOutcomes cell rest row
    else do
      let reached ← grid.move cell direction
      let state ← grid.stateAt reached
      let before := (row.get? state).getD Scalar.zero
      grid.mergeOutcomes cell rest (row.insert state (before + probability))

def rowFrom (grid : Grid K) (cell : Cell) (intended : Direction) : Except (Fault K) (Row K) :=
  grid.mergeOutcomes cell (grid.outcomes intended) .empty

def numberedCells (grid : Grid K) : List (Ident × Cell) :=
  grid.freeCells.zipIdx.map fun entry => (.int entry.2, entry.1)

/-- The rows of the moves from all cells that are not terminal. -/
def moveRows (grid : Grid K) (rewards : Table Ident K) :
    Except (Fault K) (List ((Ident × Ident) × Row K)) := do
  let groups ← (grid.numberedCells.filter fun entry => !rewards.contains entry.1).mapM fun entry =>
    Direction.all.mapM fun direction => do
      let row ← grid.rowFrom entry.2 direction
      return ((entry.1, direction.action), row)
  return groups.flatten

/-- The actions of the cells that are not terminal. -/
def moveActions (grid : Grid K) (rewards : Table Ident K) : List (Ident × List Ident) :=
  (grid.numberedCells.filter fun entry => !rewards.contains entry.1).map fun entry =>
    (entry.1, Direction.all.map Direction.action)

def reward (grid : Grid K) (rewards : Table Ident K) (state successor : Ident) : K :=
  if rewards.contains state then Scalar.zero
  else (rewards.get? successor).getD grid.stepReward

def model (grid : Grid K) : Except (Fault K) (Model K) := do
  let rewards ← grid.rewardTable
  let rows ← grid.moveRows rewards
  let initial ← grid.stateAt grid.start
  return {
    states := grid.numberedCells.map Prod.fst
    actionTable := (absorbingActions rewards.keys .blank).insertAll (grid.moveActions rewards)
    rowTable := (absorbingRows rewards.keys .blank).insertAll rows
    reward := fun state _ successor => grid.reward rewards state successor
    discount := grid.discount
    initial
    terminals := rewards.keys
    noop := .blank }

end MarkovDecision.Grid
