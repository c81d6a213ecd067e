import MarkovDecision.Model

/-!
# Grids of cells

A grid has cells at whole coordinates, counted from the lower left corner. The cells that are not
walls are numbered row by row from the bottom, from left to right in each row; the number of a cell
is its state. A move goes to the neighbouring cell, or nowhere if there is a wall or the edge.
-/

set_option autoImplicit false

namespace MarkovDecision

/-- A cell, by its coordinates. The cells of a grid have two; other cells can be written down, but
no grid has them. -/
structure Cell where
  coordinates : List Int
  deriving DecidableEq

namespace Cell

def place (column row : Int) : Cell := ⟨[column, row]⟩

def name (cell : Cell) : Ident := .tuple (cell.coordinates.map .int)

end Cell

/-- The layout, rewards and dynamics of a grid. -/
structure Grid (K : Type) where
  width : Int
  height : Int
  walls : List Cell
  terminalRewards : List (Cell × K)
  start : Cell
  stepReward : K
  intendedProbability : K
  discount : K

/-- The directions of moves, in the order in which they are tried. -/
inductive Direction where
  | up
  | right
  | down
  | left
  deriving DecidableEq

namespace Direction

def all : List Direction := [.up, .right, .down, .left]

def action : Direction → Ident
  | .up => .text "Up"
  | .right => .text "Right"
  | .down => .text "Down"
  | .left => .text "Left"

def ofAction? (action : Ident) : Option Direction :=
  all.find? fun direction => decide (direction.action = action)

def offset : Direction → Int × Int
  | .up => (0, 1)
  | .right => (1, 0)
  | .down => (0, -1)
  | .left => (-1, 0)

def perpendicular : Direction → Direction × Direction
  | .up | .down => (.left, .right)
  | .left | .right => (.up, .down)

end Direction

namespace Grid

variable {K : Type}

def spans (grid : Grid K) (column row : Int) : Bool :=
  (decide (0 ≤ column) && decide (column < grid.width)) &&
    (decide (0 ≤ row) && decide (row < grid.height))

/-- Whether the first two coordinates of a cell belong to the grid. The second is only looked at if
the first is inside. -/
def inBounds (grid : Grid K) (cell : Cell) : Except (Fault K) Bool :=
  match cell.coordinates with
  | [] => .error (.badPosition .outsideTuple)
  | [column] =>
    if 0 ≤ column ∧ column < grid.width then .error (.badPosition .outsideTuple) else .ok false
  | column :: row :: _ => .ok (grid.spans column row)

def isWall (grid : Grid K) (cell : Cell) : Bool := decide (cell ∈ grid.walls)

def columns (grid : Grid K) : List Int := (List.range grid.width.toNat).map Int.ofNat

def rows (grid : Grid K) : List Int := (List.range grid.height.toNat).map Int.ofNat

/-- The free cells, in the order of their numbers. -/
def freeCells (grid : Grid K) : List Cell :=
  grid.rows.flatMap fun row =>
    (grid.columns.map fun column => Cell.place column row).filter fun cell => !grid.isWall cell

/-- The number of a free cell. -/
def stateAt? (grid : Grid K) (cell : Cell) : Option Nat := grid.freeCells.idxOf? cell

/-- The number of a free cell as a state. -/
def stateAt (grid : Grid K) (cell : Cell) : Except (Fault K) Ident :=
  match grid.stateAt? cell with
  | some number => .ok (.int number)
  | none => .error (.missingKey cell.name)

/-- A number that is no position of a list is told to be too large if it does not lie below this one,
or lies below its negative. -/
def positionBound : Int := 9223372036854775808

/-- The cell of a state. Negative numbers count from the last cell backwards. -/
def cellOf (grid : Grid K) (state : Ident) : Except (Fault K) Cell :=
  match state with
  | .int number =>
    let position := if number < 0 then number + grid.freeCells.length else number
    match if position < 0 then none else grid.freeCells[position.toNat]? with
    | some cell => .ok cell
    | none =>
      if number < -positionBound ∨ positionBound ≤ number then .error (.badPosition .tooLarge)
      else .error (.badPosition .outsideList)
  | _ => .error .wrongType

/-- The cell that a move from a column and a row reaches if nothing is in its way. -/
def moved (grid : Grid K) (cell : Cell) (column row : Int) (direction : Direction) : Cell :=
  let target := Cell.place (column + direction.offset.1) (row + direction.offset.2)
  if !grid.spans (column + direction.offset.1) (row + direction.offset.2) || grid.isWall target then
    cell
  else target

def move (grid : Grid K) (cell : Cell) (direction : Direction) : Except (Fault K) Cell :=
  match cell.coordinates with
  | column :: row :: _ => .ok (grid.moved cell column row direction)
  | _ => .error (.badPosition .outsideTuple)

def moveBy (grid : Grid K) (cell : Cell) (action : Ident) : Except (Fault K) Cell :=
  match Direction.ofAction? action with
  | some direction => grid.move cell direction
  | none => .error (.missingKey action)

def checkCell (grid : Grid K) (cell : Cell) : Except (Fault K) Unit := do
  let inside ← grid.inBounds cell
  if !inside then .error (.badParameter (.cellOutOfBounds cell.name))
  else if grid.isWall cell then .error (.badParameter (.cellIsWall cell.name))
  else return ()

/-- Accept a grid that has a cell, whose probability of the intended move is a probability, and
whose start and terminal cells are cells of the grid and no walls. -/
def check [Scalar K] (grid : Grid K) : Except (Fault K) (Grid K) := do
  if grid.width < 1 ∨ grid.height < 1 then
    .error (.badParameter (.gridSize grid.width grid.height))
  else if !(Scalar.atMost Scalar.zero grid.intendedProbability &&
      Scalar.atMost grid.intendedProbability Scalar.one) then
    .error (.badParameter (.intendedProbability grid.intendedProbability))
  else
    (grid.start :: grid.terminalRewards.map Prod.fst).forM grid.checkCell
    return grid

/-- The grid of four columns and three rows that is meant if no parameters are given. -/
def standard [Scalar K] : Grid K where
  width := 4
  height := 3
  walls := [.place 1 1]
  terminalRewards := [(.place 3 2, Scalar.one), (.place 3 1, Scalar.zero - Scalar.one)]
  start := .place 0 0
  stepReward := Scalar.zero - Scalar.decimal 4 2
  intendedProbability := Scalar.decimal 8 1
  discount := Scalar.decimal 9 1

end Grid

end MarkovDecision
