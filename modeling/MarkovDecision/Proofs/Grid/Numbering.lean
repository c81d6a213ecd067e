import Mathlib.Data.List.Dedup
import MarkovDecision.Proofs.Grid.Model

/-!
# The numbers of cells

The states of a grid are the numbers of its free cells: from zero on, one for each cell inside that is
no wall, row by row from the bottom and from left to right. State and cell determine each other, no
other cell has a state, and moves lead from cells with a state to cells with a state. Walls count once
if they are listed more than once, and not at all if they are outside.
-/

set_option autoImplicit false

namespace MarkovDecision

namespace Grid

variable {K : Type}

/-- Whether a cell has two coordinates that lie inside the grid. -/
def holds (grid : Grid K) (cell : Cell) : Bool :=
  match cell.coordinates with
  | [column, row] => grid.spans column row
  | _ => false

def Free (grid : Grid K) (cell : Cell) : Prop := grid.holds cell = true ∧ cell ∉ grid.walls

/-- The walls inside the grid, each of them once. -/
def innerWalls (grid : Grid K) : List Cell := (grid.walls.filter grid.holds).dedup

variable {grid : Grid K} {cell other : Cell}

/-! ## Cells inside -/

private theorem inBounds_eq_ok (planar : cell.Planar) :
    grid.inBounds cell = .ok (grid.holds cell) := by
  obtain ⟨column, row, rfl⟩ := planar
  rfl

private theorem holds_iff : grid.holds cell = true ↔
    ∃ column row, cell = .place column row ∧ grid.spans column row = true := by
  constructor
  · intro inside
    obtain ⟨coordinates⟩ := cell
    unfold holds at inside
    split at inside
    · next column row same =>
        cases same
        exact ⟨column, row, rfl, inside⟩
    · cases inside
  · rintro ⟨column, row, rfl, inside⟩
    exact inside

private theorem mem_cells_iff_holds : cell ∈ grid.cells ↔ grid.holds cell = true := by
  rw [mem_cells, holds_iff]

theorem mem_freeCells_iff_free : cell ∈ grid.freeCells ↔ grid.Free cell := by
  rw [freeCells_eq_filter, List.mem_filter, mem_cells_iff_holds, Bool.not_eq_true',
    isWall_eq_false_iff, Free]

/-! ## Order -/

private theorem idxOf_lt_iff (free : cell ∈ grid.freeCells) (known : other ∈ grid.freeCells) :
    grid.freeCells.idxOf cell < grid.freeCells.idxOf other ↔ cell.Precedes other := by
  have ascends := List.pairwise_iff_getElem.mp grid.freeCells_pairwise
  have here := List.idxOf_lt_length_iff.mpr free
  have there := List.idxOf_lt_length_iff.mpr known
  constructor
  · intro before
    simpa only [List.getElem_idxOf] using ascends _ _ here there before
  · intro precedes
    by_contra after
    rcases (not_lt.mp after).eq_or_lt with same | behind
    · rw [List.idxOf_inj known] at same
      exact precedes.ne same.symm
    · have back := ascends _ _ there here behind
      simp only [List.getElem_idxOf] at back
      exact precedes.asymm back

/-! ## Count -/

private theorem length_cells (grid : Grid K) :
    grid.cells.length = grid.width.toNat * grid.height.toNat := by
  simp [cells, rows, columns, List.length_flatMap, Function.comp_def, mul_comm]

/-- The walls that stand among the cells are the distinct listed walls that lie inside. -/
private theorem length_filter_isWall (grid : Grid K) :
    (grid.cells.filter grid.isWall).length = grid.innerWalls.length := by
  have once : (grid.cells.filter grid.isWall).Nodup :=
    (grid.cells_pairwise.imp Cell.Precedes.ne).filter _
  have same : ∀ cell, cell ∈ grid.cells.filter grid.isWall ↔ cell ∈ grid.innerWalls := by
    intro cell
    simp only [innerWalls, List.mem_filter, List.mem_dedup, mem_cells_iff_holds, isWall, decide_eq_true_eq,
      and_comm]
  exact ((List.perm_ext_iff_of_nodup once (List.nodup_dedup _)).mpr same).length_eq

private theorem length_freeCells (width : 0 ≤ grid.width) (height : 0 ≤ grid.height) :
    (grid.freeCells.length : Int) = grid.width * grid.height - grid.innerWalls.length := by
  have parts := List.length_eq_length_filter_add grid.isWall (l := grid.cells)
  rw [length_cells, length_filter_isWall, ← freeCells_eq_filter] at parts
  have area : ((grid.width.toNat * grid.height.toNat : Nat) : Int) = grid.width * grid.height := by
    rw [Nat.cast_mul, Int.toNat_of_nonneg width, Int.toNat_of_nonneg height]
  omega

/-! ## Numbers -/

private theorem map_number_freeCells (grid : Grid K) : grid.freeCells.map grid.number =
    (List.range grid.freeCells.length).map fun place => .int place := by
  refine List.ext_getElem (by simp) fun place inLeft inRight => ?_
  simp only [List.getElem_map, List.getElem_range, number]
  rw [grid.freeCells_nodup.idxOf_getElem]

private theorem stateAt_eq_error (blocked : cell ∉ grid.freeCells) :
    grid.stateAt cell = .error (.missingKey cell.name) := by
  cases found : grid.stateAt? cell with
  | none => rw [stateAt, found]
  | some place =>
      have known : (grid.stateAt? cell).isSome = true := by rw [found, Option.isSome_some]
      rw [stateAt?, List.isSome_idxOf?] at known
      exact absurd known blocked

private theorem moveBy_eq_ok (free : cell ∈ grid.freeCells) (direction : Direction) :
    grid.moveBy cell direction.action = .ok (grid.reached cell direction) := by
  have named : Direction.ofAction? direction.action = some direction := by
    cases direction <;> decide
  rw [moveBy, named]
  exact move_eq_ok free

/-- A list of states that are the numbers of the free cells of a grid. -/
structure Numbers (grid : Grid K) (states : List Ident) : Prop where
  count : (states.length : Int) = grid.width * grid.height - grid.innerWalls.length
  ascending : states = (List.range states.length).map fun place => .int place
  inBounds : ∀ cell, cell.Planar → grid.inBounds cell = .ok (grid.holds cell)
  cell : ∀ state ∈ states, ∃ cell, grid.Free cell ∧ grid.cellOf state = .ok cell ∧
    grid.stateAt cell = .ok state
  state : ∀ cell, grid.Free cell → ∃ state ∈ states, grid.stateAt cell = .ok state ∧
    grid.cellOf state = .ok cell
  others : ∀ cell, ¬ grid.Free cell → grid.stateAt cell = .error (.missingKey cell.name)
  ordered : ∀ (cell other : Cell) (first second : Nat), grid.stateAt cell = .ok (.int first) →
    grid.stateAt other = .ok (.int second) → (first < second ↔ cell.Precedes other)
  moves : ∀ cell, grid.Free cell → ∀ direction : Direction, ∃ target,
    grid.moveBy cell direction.action = .ok target ∧ grid.Free target

private theorem numbers_freeCells (width : 0 ≤ grid.width) (height : 0 ≤ grid.height) :
    grid.Numbers (grid.freeCells.map grid.number) where
  count := by rw [List.length_map, length_freeCells width height]
  ascending := by rw [List.length_map, map_number_freeCells]
  inBounds _ planar := inBounds_eq_ok planar
  cell state listed := by
    obtain ⟨cell, free, rfl⟩ := List.mem_map.mp listed
    exact ⟨cell, mem_freeCells_iff_free.mp free, cellOf_number free, stateAt_eq_ok free⟩
  state cell free := by
    have listed := mem_freeCells_iff_free.mpr free
    exact ⟨_, List.mem_map_of_mem listed, stateAt_eq_ok listed, cellOf_number listed⟩
  others cell blocked := stateAt_eq_error fun free => blocked (mem_freeCells_iff_free.mp free)
  ordered cell other first second here there := by
    obtain ⟨free, same⟩ := mem_freeCells_of_stateAt here
    obtain ⟨known, alike⟩ := mem_freeCells_of_stateAt there
    rw [number, Ident.int.injEq, Int.natCast_inj] at same alike
    rw [same, alike, idxOf_lt_iff free known]
  moves cell free direction := by
    have listed := mem_freeCells_iff_free.mpr free
    exact ⟨_, moveBy_eq_ok listed direction, mem_freeCells_iff_free.mp (reached_mem listed)⟩

/-- The states of the model of an accepted grid are the numbers of its free cells. -/
theorem states_number [Scalar K] (grid : Grid K) (planar : grid.Planar)
    (accepted : grid.check = .ok grid) :
    ∃ model, grid.model = .ok model ∧ grid.Numbers model.states := by
  obtain ⟨⟨width, height⟩, -, cells⟩ := (check_eq_ok_iff planar).mp accepted
  obtain ⟨start, terminals⟩ := List.forall_mem_cons.mp cells
  obtain ⟨model, built⟩ := exists_model start terminals
  refine ⟨model, built, ?_⟩
  rw [(states_of_model built).1]
  exact numbers_freeCells (by omega) (by omega)

/-- The nook has six cells, and one of its three listed walls counts. -/
theorem states_number_nook :
    (nook.extended.Planar ∧ nook.extended.check = .ok nook.extended) ∧
    ∃ model, nook.extended.model = .ok model ∧ nook.extended.Numbers model.states ∧
      model.states = [.int 0, .int 1, .int 2, .int 3, .int 4] := by
  obtain ⟨model, built, numbers⟩ := nook.extended.states_number nook_planar nook_accepted
  have five : model.states.length = 5 := by
    have count := numbers.count
    rw [show nook.extended.innerWalls.length = 1 by decide] at count
    exact Int.natCast_inj.mp count
  refine ⟨⟨nook_planar, nook_accepted⟩, model, built, numbers, ?_⟩
  rw [numbers.ascending, five]
  rfl

end Grid

end MarkovDecision
