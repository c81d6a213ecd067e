import MarkovDecision.Proofs.Grid.Model

/-!
# Rows of a grid as images of the slips

An intended move turns into one of three moves, and the row of a cell is the image of their
probabilities under the moves. Moves in different directions from one cell either reach different
neighbours or are blocked and stay. So a neighbour gets what its own direction has, and all that is
blocked adds up in the cell itself.
-/

set_option autoImplicit false

namespace MarkovDecision

/-! ## Neighbours -/

def Direction.opposite : Direction → Direction
  | .up => .down
  | .right => .left
  | .down => .up
  | .left => .right

namespace Cell

/-- The distance of two cells along columns and rows. -/
def distance (cell other : Cell) : Nat :=
  (List.zipWith (fun here there => (here - there).natAbs) cell.coordinates other.coordinates).sum

variable {cell : Cell} {direction other : Direction}

private theorem Planar.distance_toward (planar : cell.Planar) (direction : Direction) :
    cell.distance (cell.toward direction) = 1 := by
  obtain ⟨column, row, rfl⟩ := planar
  cases direction <;> simp [distance, toward, place, Direction.offset]

private theorem Planar.toward_inj (planar : cell.Planar) :
    cell.toward direction = cell.toward other ↔ direction = other := by
  obtain ⟨column, row, rfl⟩ := planar
  cases direction <;> cases other <;> simp [toward, place, Direction.offset]

private theorem Planar.toward_ne (planar : cell.Planar) (direction : Direction) :
    cell.toward direction ≠ cell := by
  obtain ⟨column, row, rfl⟩ := planar
  cases direction <;> simp [toward, place, Direction.offset]

end Cell

namespace Grid

section Reached

variable {K : Type} {grid : Grid K} {cell target : Cell} {direction other : Direction}

private theorem planar_of_mem_freeCells (free : cell ∈ grid.freeCells) : cell.Planar := by
  obtain ⟨column, row, same, -⟩ := mem_freeCells.mp free
  exact ⟨column, row, same⟩

private theorem number_reached_eq_iff (free : cell ∈ grid.freeCells) :
    grid.number (grid.reached cell direction) = grid.number target ↔
      grid.reached cell direction = target :=
  number_inj (reached_mem free)

private theorem reached_eq_self_iff (free : cell ∈ grid.freeCells) :
    grid.reached cell direction = cell ↔ cell.toward direction ∉ grid.freeCells := by
  have away := (planar_of_mem_freeCells free).toward_ne direction
  rw [reached_eq free]
  split
  · next passable => simp [passable, away]
  · next blocked => simp [blocked]

private theorem reached_eq_toward_iff (free : cell ∈ grid.freeCells)
    (passable : cell.toward direction ∈ grid.freeCells) :
    grid.reached cell other = cell.toward direction ↔ other = direction := by
  have planar := planar_of_mem_freeCells free
  rw [reached_eq free]
  split
  · exact planar.toward_inj
  · next blocked =>
      constructor
      · intro same
        exact absurd same.symm (planar.toward_ne direction)
      · rintro rfl
        exact absurd passable blocked

end Reached

variable {F : Type} [Field F]

/-! ## Shares of directions -/

/-- The probability with which an intended move turns into a move in some direction. -/
def share (grid : Grid F) (intended direction : Direction) : F :=
  if direction = intended then grid.intendedProbability
  else if direction = intended.opposite then 0
  else grid.slip

private theorem share_opposite (grid : Grid F) (intended : Direction) :
    grid.share intended intended.opposite = 0 := by
  cases intended <;> simp [share, Direction.opposite]

variable [LinearOrder F] {grid : Grid F} {cell target : Cell} {intended direction : Direction}

/-- The image of the shares under the moves. -/
theorem probability_eq_sum_share (free : cell ∈ grid.freeCells) (target : Cell) :
    (grid.exactRow cell intended).probability (grid.number target) =
      (Direction.all.map fun direction =>
        if grid.reached cell direction = target then grid.share intended direction else 0).sum := by
  rw [probability_exactRow]
  simp only [number_reached_eq_iff free]
  cases intended <;>
    simp only [landings, share, Direction.all, Direction.perpendicular, Direction.opposite,
      List.map_cons, List.map_nil, List.sum_cons, List.sum_nil, reduceCtorEq,
      if_true, if_false, ite_self] <;>
    ring

/-! ## Rows -/

/-- A row that shows the directions of an intended move from a cell. What a free cell gets is the sum
over the three moves that end there; so every successor is the cell itself or a neighbour that is not
opposite, a free neighbour gets the share of its direction, and the cell itself those of the blocked
directions. -/
structure PushesForward (grid : Grid F) (cell : Cell) (intended : Direction) (row : Row F) : Prop where
  probability : ∀ target ∈ grid.freeCells, row.probability (grid.number target) =
    (if grid.reached cell intended = target then grid.intendedProbability else 0) +
      (if grid.reached cell intended.perpendicular.1 = target then
        (1 - grid.intendedProbability) / 2 else 0) +
      if grid.reached cell intended.perpendicular.2 = target then
        (1 - grid.intendedProbability) / 2 else 0
  listed : ∀ entry ∈ row.entries, ∃ target ∈ grid.freeCells, entry.1 = grid.number target ∧
    (target = cell ∨ cell.distance target = 1 ∧ target ≠ cell.toward intended.opposite)
  unblocked : ∀ direction, cell.toward direction ∈ grid.freeCells →
    row.probability (grid.number (cell.toward direction)) = grid.share intended direction
  stays : row.probability (grid.number cell) = (Direction.all.map fun direction =>
    if cell.toward direction ∈ grid.freeCells then 0 else grid.share intended direction).sum

private theorem probability_toward (free : cell ∈ grid.freeCells)
    (passable : cell.toward direction ∈ grid.freeCells) :
    (grid.exactRow cell intended).probability (grid.number (cell.toward direction)) =
      grid.share intended direction := by
  rw [probability_eq_sum_share free]
  simp only [reached_eq_toward_iff free passable]
  cases direction <;> simp [Direction.all]

private theorem probability_self (free : cell ∈ grid.freeCells) :
    (grid.exactRow cell intended).probability (grid.number cell) =
      (Direction.all.map fun direction =>
        if cell.toward direction ∈ grid.freeCells then 0 else grid.share intended direction).sum := by
  rw [probability_eq_sum_share free]
  simp only [reached_eq_self_iff free, ite_not]

variable [IsStrictOrderedRing F]

private theorem Admitted.listed_exactRow (admitted : grid.Admitted) (free : cell ∈ grid.freeCells) :
    ∀ entry ∈ (grid.exactRow cell intended).entries, ∃ target ∈ grid.freeCells,
      entry.1 = grid.number target ∧
        (target = cell ∨ cell.distance target = 1 ∧ target ≠ cell.toward intended.opposite) := by
  have planar := planar_of_mem_freeCells free
  intro entry listed
  obtain ⟨positive, target, landed, named⟩ := admitted.onFree_exactRow free entry listed
  refine ⟨target, landed, named, ?_⟩
  have found := Row.probability_of_mem listed
  rw [named, probability_eq_sum_share free] at found
  -- A sum that is not zero has a direction that reaches the target and has a share.
  obtain ⟨summand, member, nonzero⟩ :=
    List.exists_mem_ne_zero_of_sum_ne_zero (found.trans_ne positive.ne')
  obtain ⟨direction, -, rfl⟩ := List.mem_map.mp member
  obtain ⟨rfl, share⟩ := ite_ne_right_iff.mp nonzero
  rw [reached_eq free]
  split
  · refine .inr ⟨planar.distance_toward direction, fun same => share ?_⟩
    rw [planar.toward_inj.mp same]
    exact grid.share_opposite intended
  · exact .inl rfl

private theorem Admitted.pushesForward (admitted : grid.Admitted) (free : cell ∈ grid.freeCells)
    (intended : Direction) : grid.PushesForward cell intended (grid.exactRow cell intended) where
  probability target _ := by
    rw [probability_exactRow]
    simp only [number_reached_eq_iff free, landings, slip, one_add_one_eq_two, List.map_cons, List.map_nil, List.sum_cons,
      List.sum_nil, add_zero, add_assoc]
  listed := admitted.listed_exactRow free
  unblocked _ passable := probability_toward free passable
  stays := probability_self free

/-- In the model of an accepted grid, the four rows of every free cell that is not terminal are the
images of their slips under the moves. -/
theorem rows_pushForward (grid : Grid F) (planar : grid.Planar)
    (accepted : grid.extended.check = .ok grid.extended) :
    ∃ model : Model F, grid.extended.model = .ok model.extended ∧
      (∀ cell ∈ grid.freeCells, grid.extended.stateAt cell = .ok (grid.number cell) ∧
        ∀ direction, grid.extended.move cell direction = .ok (grid.reached cell direction)) ∧
      ∀ cell ∈ grid.freeCells, cell ∉ grid.terminalRewards.map Prod.fst →
        model.legal (grid.number cell) = Direction.all.map Direction.action ∧
        ∀ intended, ∃ row, model.rowTable.get? (grid.number cell, intended.action) = some row ∧
          grid.PushesForward cell intended row := by
  have admitted := (check_extended_iff planar).mp accepted
  refine ⟨grid.exact, admitted.model_extended, fun cell free => ⟨stateAt_eq_ok free, fun _ =>
    move_eq_ok free⟩, fun cell free interior => ?_⟩
  have opened : cell ∈ grid.openCells := by
    refine mem_openCells_iff.mpr ⟨free, fun terminal => interior ?_⟩
    obtain ⟨other, listed, named⟩ := mem_terminals_iff.mp terminal
    obtain rfl := (number_inj (admitted.terminals other listed)).mp named
    exact listed
  exact ⟨legal_open opened, fun intended =>
    ⟨_, row_open opened intended, admitted.pushesForward free intended⟩⟩

/-- In the corner below the better end, a move to the right is blocked, and so is one of its slips. -/
theorem rows_pushForward_nook :
    (nook.Planar ∧ nook.extended.check = .ok nook.extended) ∧
    ∃ (model : Model ℚ) (row : Row ℚ), nook.extended.model = .ok model.extended ∧
      model.rowTable.get? (nook.number (.place 2 0), Direction.right.action) = some row ∧
      row.probability (nook.number (.place 2 0)) = 9 / 10 ∧
      row.probability (nook.number (.place 2 1)) = 1 / 10 := by
  obtain ⟨model, built, -, rows⟩ := nook.rows_pushForward nook_planar nook_accepted
  obtain ⟨row, found, forward⟩ := (rows (.place 2 0) (by decide) (by decide)).2 .right
  refine ⟨⟨nook_planar, nook_accepted⟩, model, row, built, found, ?_, ?_⟩
  · rw [forward.stays]
    decide +kernel
  · have above := forward.unblocked .up (by decide)
    rw [show (Cell.place 2 0).toward .up = .place 2 1 from rfl] at above
    rw [above]
    decide +kernel

end Grid

end MarkovDecision
