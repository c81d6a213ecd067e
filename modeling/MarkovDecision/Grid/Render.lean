import MarkovDecision.Decimal.Places
import MarkovDecision.Grid.Layout
import MarkovDecision.Text.Align

/-!
# Pictures of grids

A grid is drawn row by row from the top. Every cell is a column of seven characters with its text in
the middle: a wall is a hash sign, and the other cells show the chosen move or the utility.
-/

set_option autoImplicit false

namespace MarkovDecision.Grid

variable {K : Type}

def columnWidth : Nat := 7

def cellText (grid : Grid K) (text : Cell → Except (Fault K) String) (cell : Cell) :
    Except (Fault K) String := do
  if grid.isWall cell then return Text.center columnWidth "#"
  else
    let shown ← text cell
    return Text.center columnWidth shown

/-- The lines of a picture, from the top row down. -/
def render (grid : Grid K) (text : Cell → Except (Fault K) String) :
    Except (Fault K) (List String) :=
  grid.rows.reverse.mapM fun row => do
    let texts ← grid.columns.mapM fun column => grid.cellText text (.place column row)
    return String.join texts

def sign? (action : Ident) : Option String :=
  if action = .blank then some "."
  else
    match Direction.ofAction? action with
    | some .up => some "^"
    | some .right => some ">"
    | some .down => some "v"
    | some .left => some "<"
    | none => none

/-- The reward of a terminal cell; the last one if the cell is listed more than once. -/
def terminalReward? (grid : Grid K) (cell : Cell) : Option K :=
  (grid.terminalRewards.reverse.find? fun entry => decide (entry.1 = cell)).map Prod.snd

/-- What a policy shows in a cell. Terminal cells show their reward and are not looked up in it. -/
def policyText (grid : Grid Float) (policy : Policy) (cell : Cell) : Except (Fault Float) String :=
  match grid.terminalReward? cell with
  | some reward => .ok (Decimal.general 6 true reward)
  | none => do
    let state ← grid.stateAt cell
    let action ← policy.demand state
    match sign? action with
    | some sign => return sign
    | none => .error (.missingKey action)

def renderPolicy (grid : Grid Float) (policy : Policy) : Except (Fault Float) (List String) :=
  grid.render (grid.policyText policy)

/-- What a utility shows in a cell. -/
def utilityText (grid : Grid Float) (utility : Utility Float) (cell : Cell) :
    Except (Fault Float) String := do
  let state ← grid.stateAt cell
  let value ← utility.demand state
  return Decimal.fixed 3 value

def renderUtilities (grid : Grid Float) (utility : Utility Float) :
    Except (Fault Float) (List String) :=
  grid.render (grid.utilityText utility)

end MarkovDecision.Grid
