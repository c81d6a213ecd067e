import Mathlib.Data.List.Nodup
import MarkovDecision.Grid.Model
import MarkovDecision.Proofs.Exact

/-!
# Cells, their numbers, and moves between them

The free cells are the cells inside the grid that are no walls, each of them once, and their numbers
tell them apart. A move takes a free cell to a free cell. A grid whose start and terminal cells have
two coordinates is accepted exactly if it has a cell, its probability is a probability, and those
cells are free; the list of walls may repeat cells and name cells that the grid does not have.
-/

set_option autoImplicit false

namespace MarkovDecision

namespace Cell

/-- A cell with two coordinates. -/
def Planar (cell : Cell) : Prop := ∃ column row, cell = place column row

private theorem place_inj {column row otherColumn otherRow : Int} :
    place column row = place otherColumn otherRow ↔ column = otherColumn ∧ row = otherRow := by
  simp [place]

/-- The neighbour of a cell with two coordinates. -/
def toward (cell : Cell) (direction : Direction) : Cell :=
  match cell.coordinates with
  | [column, row] => place (column + direction.offset.1) (row + direction.offset.2)
  | _ => cell

/-- Whether a cell comes before another one row by row, and in a row from left to right. -/
def Precedes (cell other : Cell) : Prop :=
  match cell.coordinates, other.coordinates with
  | [column, row], [otherColumn, otherRow] =>
    row < otherRow ∨ row = otherRow ∧ column < otherColumn
  | _, _ => False

theorem Precedes.asymm {cell other : Cell} (before : cell.Precedes other) :
    ¬ other.Precedes cell := by
  unfold Precedes at before ⊢
  split at before
  · simp only [*]
    omega
  · cases before

theorem Precedes.ne {cell other : Cell} (before : cell.Precedes other) : cell ≠ other := by
  rintro rfl
  exact before.asymm before

end Cell

theorem Direction.mem_all (direction : Direction) : direction ∈ Direction.all := by
  cases direction <;> decide

theorem Direction.action_inj {first second : Direction} :
    first.action = second.action ↔ first = second := by
  cases first <;> cases second <;> decide

namespace Grid

section Layout

variable {K : Type} {grid : Grid K} {cell other : Cell} {column row : Int} {direction : Direction}

/-! ## Free cells -/

theorem spans_iff : grid.spans column row = true ↔
    (0 ≤ column ∧ column < grid.width) ∧ 0 ≤ row ∧ row < grid.height := by
  simp [spans]

theorem isWall_eq_false_iff : grid.isWall cell = false ↔ cell ∉ grid.walls :=
  decide_eq_false_iff_not

theorem mem_range_iff {bound place : Int} :
    place ∈ (List.range bound.toNat).map Int.ofNat ↔ 0 ≤ place ∧ place < bound := by
  rw [List.mem_map]
  constructor
  · rintro ⟨count, listed, rfl⟩
    rw [List.mem_range] at listed
    exact ⟨Int.natCast_nonneg count, by simp only [Int.ofNat_eq_natCast]; omega⟩
  · rintro ⟨nonneg, below⟩
    exact ⟨place.toNat, List.mem_range.mpr (by omega), Int.toNat_of_nonneg nonneg⟩

private theorem range_pairwise (bound : Int) :
    ((List.range bound.toNat).map Int.ofNat).Pairwise (· < ·) :=
  List.pairwise_map.mpr (List.pairwise_lt_range.imp Int.ofNat_lt.mpr)

/-- All cells inside the grid, walls as well. -/
def cells (grid : Grid K) : List Cell :=
  grid.rows.flatMap fun row => grid.columns.map fun column => .place column row

theorem mem_cells : cell ∈ grid.cells ↔
    ∃ column row, cell = .place column row ∧ grid.spans column row = true := by
  simp only [cells, List.mem_flatMap, List.mem_map, spans_iff]
  constructor
  · rintro ⟨row, inRows, column, inColumns, rfl⟩
    exact ⟨column, row, rfl, mem_range_iff.mp inColumns, mem_range_iff.mp inRows⟩
  · rintro ⟨column, row, rfl, inColumns, inRows⟩
    exact ⟨row, mem_range_iff.mpr inRows, column, mem_range_iff.mpr inColumns, rfl⟩

theorem cells_pairwise (grid : Grid K) : grid.cells.Pairwise Cell.Precedes := by
  rw [cells, List.pairwise_flatMap]
  constructor
  · intro row _
    rw [List.pairwise_map]
    exact (range_pairwise grid.width).imp fun before => .inr ⟨rfl, before⟩
  · apply (range_pairwise grid.height).imp
    intro row later before cell here other there
    obtain ⟨column, -, rfl⟩ := List.mem_map.mp here
    obtain ⟨otherColumn, -, rfl⟩ := List.mem_map.mp there
    exact .inl before

theorem freeCells_eq_filter (grid : Grid K) :
    grid.freeCells = grid.cells.filter fun cell => !grid.isWall cell := by
  simp [freeCells, cells, List.filter_flatMap]

theorem freeCells_pairwise (grid : Grid K) : grid.freeCells.Pairwise Cell.Precedes := by
  rw [freeCells_eq_filter]
  exact grid.cells_pairwise.filter _

theorem freeCells_nodup (grid : Grid K) : grid.freeCells.Nodup :=
  grid.freeCells_pairwise.imp Cell.Precedes.ne

theorem mem_freeCells : cell ∈ grid.freeCells ↔
    ∃ column row, cell = .place column row ∧ grid.spans column row = true ∧
      cell ∉ grid.walls := by
  rw [freeCells_eq_filter, List.mem_filter, mem_cells, Bool.not_eq_true', isWall_eq_false_iff]
  constructor
  · rintro ⟨⟨column, row, same, inside⟩, free⟩
    exact ⟨column, row, same, inside, free⟩
  · rintro ⟨column, row, same, inside, free⟩
    exact ⟨⟨column, row, same, inside⟩, free⟩

theorem place_mem_freeCells : Cell.place column row ∈ grid.freeCells ↔
    grid.spans column row = true ∧ Cell.place column row ∉ grid.walls := by
  rw [mem_freeCells]
  constructor
  · rintro ⟨_, _, same, inside, free⟩
    obtain ⟨rfl, rfl⟩ := Cell.place_inj.mp same
    exact ⟨inside, free⟩
  · rintro ⟨inside, free⟩
    exact ⟨column, row, rfl, inside, free⟩

/-! ## Numbers -/

/-- The state of a free cell. -/
def number (grid : Grid K) (cell : Cell) : Ident := .int (grid.freeCells.idxOf cell)

theorem stateAt_eq_ok (free : cell ∈ grid.freeCells) :
    grid.stateAt cell = .ok (grid.number cell) := by
  have found : grid.stateAt? cell = some (grid.freeCells.idxOf cell) :=
    List.findIdx?_eq_some_iff_findIdx_eq.mpr ⟨List.idxOf_lt_length_iff.mpr free, rfl⟩
  rw [stateAt, found]
  rfl

theorem mem_freeCells_of_stateAt {state : Ident} (found : grid.stateAt cell = .ok state) :
    cell ∈ grid.freeCells ∧ state = grid.number cell := by
  unfold stateAt at found
  split at found
  · next place look =>
      have free : cell ∈ grid.freeCells := by
        rw [← List.isSome_idxOf?]
        exact Option.isSome_of_mem look
      have stored := stateAt_eq_ok free
      unfold stateAt at stored
      rw [look] at stored
      rw [← Except.ok.inj found, Except.ok.inj stored]
      exact ⟨free, rfl⟩
  · cases found

theorem number_inj (free : cell ∈ grid.freeCells) :
    grid.number cell = grid.number other ↔ cell = other := by
  rw [number, number, Ident.int.injEq, Int.natCast_inj, List.idxOf_inj free]

theorem numberedCells_eq (grid : Grid K) :
    grid.numberedCells = grid.freeCells.map fun cell => (grid.number cell, cell) := by
  refine List.ext_getElem (by simp [numberedCells]) fun index inLeft inRight => ?_
  simp only [numberedCells, List.getElem_map, List.getElem_zipIdx, Nat.zero_add, number]
  rw [grid.freeCells_nodup.idxOf_getElem]

/-- The cell of a number is the numbered one. -/
theorem cellOf_number (free : cell ∈ grid.freeCells) :
    grid.cellOf (grid.number cell) = .ok cell := by
  have nonneg : ¬ ((grid.freeCells.idxOf cell : Int) < 0) := not_lt.mpr (Int.natCast_nonneg _)
  have found : grid.freeCells[grid.freeCells.idxOf cell]? = some cell := by
    rw [List.getElem?_eq_getElem (List.idxOf_lt_length_iff.mpr free), List.getElem_idxOf]
  simp only [cellOf, number, if_neg nonneg, Int.toNat_natCast, found]

/-! ## Moves -/

/-- The cell that a move reaches. -/
def reached (grid : Grid K) (cell : Cell) (direction : Direction) : Cell :=
  match cell.coordinates with
  | column :: row :: _ => grid.moved cell column row direction
  | _ => cell

theorem move_eq_ok (free : cell ∈ grid.freeCells) :
    grid.move cell direction = .ok (grid.reached cell direction) := by
  obtain ⟨column, row, rfl, -⟩ := mem_freeCells.mp free
  rfl

/-- A move goes to the neighbour if that is free, and nowhere otherwise. -/
theorem reached_eq (free : cell ∈ grid.freeCells) : grid.reached cell direction =
    if cell.toward direction ∈ grid.freeCells then cell.toward direction else cell := by
  obtain ⟨column, row, rfl, -⟩ := mem_freeCells.mp free
  have toward : (Cell.place column row).toward direction =
    .place (column + direction.offset.1) (row + direction.offset.2) := rfl
  have moves : grid.reached (.place column row) direction =
    grid.moved (.place column row) column row direction := rfl
  rw [toward, moves, moved]
  split
  · next blocked =>
      refine (if_neg fun open_ => ?_).symm
      obtain ⟨inside, passable⟩ := place_mem_freeCells.mp open_
      rw [inside, isWall_eq_false_iff.mpr passable] at blocked
      cases blocked
  · next passable =>
      rw [Bool.or_eq_true, not_or, Bool.not_eq_true', Bool.not_eq_false, Bool.not_eq_true,
        isWall_eq_false_iff] at passable
      rw [if_pos (place_mem_freeCells.mpr passable)]

/-- No move leaves the free cells. -/
theorem reached_mem (free : cell ∈ grid.freeCells) :
    grid.reached cell direction ∈ grid.freeCells := by
  rw [reached_eq free]
  split
  · next passable => exact passable
  · exact free

/-! ## Accepted grids -/

private theorem checkCell_eq_ok_iff (planar : cell.Planar) :
    grid.checkCell cell = .ok ⟨⟩ ↔ cell ∈ grid.freeCells := by
  obtain ⟨column, row, rfl⟩ := planar
  have inside : grid.inBounds (.place column row) = .ok (grid.spans column row) := rfl
  rw [place_mem_freeCells, ← isWall_eq_false_iff, checkCell, inside, ok_bind]
  cases grid.spans column row with
  | false => simp
  | true => cases grid.isWall (.place column row) <;> simp [pure_eq_ok]

end Layout

/-! ## States of the model -/

section States

variable {K : Type} [Scalar K] {grid : Grid K} {model : Model K}

omit [Scalar K] in
theorem mem_terminals_of_rewardTable {rewards : Table Ident K} (run : grid.rewardTable = .ok rewards)
    {state : Ident} (terminal : state ∈ rewards.keys) :
    ∃ cell ∈ grid.terminalRewards.map Prod.fst, cell ∈ grid.freeCells ∧ grid.number cell = state := by
  obtain ⟨pairs, collected, built⟩ := bind_eq_ok_iff.mp run
  cases built
  obtain ⟨pair, listed, rfl⟩ := List.mem_map.mp ((Table.mem_keys_ofPairs _ _).mp terminal)
  obtain ⟨entry, named, computed⟩ := exists_mem_of_mapM collected pair listed
  obtain ⟨state, found, paired⟩ := bind_eq_ok_iff.mp computed
  cases paired
  obtain ⟨free, rfl⟩ := mem_freeCells_of_stateAt found
  exact ⟨_, List.mem_map_of_mem named, free, rfl⟩

/-- The states are the numbers of the free cells, and the initial and the terminal states are among
them. -/
theorem states_of_model (run : grid.model = .ok model) :
    model.states = grid.freeCells.map grid.number ∧ model.initial ∈ model.states ∧
      ∀ state ∈ model.terminals, state ∈ model.states := by
  obtain ⟨rewards, rewarded, run⟩ := bind_eq_ok_iff.mp run
  obtain ⟨rows, -, run⟩ := bind_eq_ok_iff.mp run
  obtain ⟨initial, started, run⟩ := bind_eq_ok_iff.mp run
  cases run
  have states : grid.numberedCells.map Prod.fst = grid.freeCells.map grid.number := by
    rw [numberedCells_eq, List.map_map]
    rfl
  refine ⟨states, ?_, fun state terminal => ?_⟩
  · obtain ⟨free, rfl⟩ := mem_freeCells_of_stateAt started
    exact states ▸ List.mem_map_of_mem free
  · obtain ⟨cell, -, free, rfl⟩ := mem_terminals_of_rewardTable rewarded terminal
    exact states ▸ List.mem_map_of_mem free

theorem number_mem_states (run : grid.model = .ok model) {cell : Cell}
    (free : cell ∈ grid.freeCells) : grid.number cell ∈ model.states := by
  rw [(states_of_model run).1]
  exact List.mem_map_of_mem free

end States

variable {F : Type}

/-- The grid with its numbers read as extended numbers. -/
def extended (grid : Grid F) : Grid (Extended F) where
  width := grid.width
  height := grid.height
  walls := grid.walls
  terminalRewards := grid.terminalRewards.map fun entry => (entry.1, .finite entry.2)
  start := grid.start
  stepReward := .finite grid.stepReward
  intendedProbability := .finite grid.intendedProbability
  discount := .finite grid.discount

variable [Field F] [LinearOrder F]

/-- A grid with a cell and a probability, whose start and terminal cells are free. -/
structure Admitted (grid : Grid F) : Prop where
  width : 1 ≤ grid.width
  height : 1 ≤ grid.height
  nonneg : 0 ≤ grid.intendedProbability
  atMost : grid.intendedProbability ≤ 1
  start : grid.start ∈ grid.freeCells
  terminals : ∀ cell ∈ grid.terminalRewards.map Prod.fst, cell ∈ grid.freeCells

/-- The start and the terminal cells have two coordinates. -/
def Planar (grid : Grid F) : Prop :=
  ∀ cell ∈ grid.start :: grid.terminalRewards.map Prod.fst, cell.Planar

theorem check_eq_ok_iff {K : Type} [Scalar K] {grid : Grid K} (planar : grid.Planar) :
    grid.check = .ok grid ↔ (1 ≤ grid.width ∧ 1 ≤ grid.height) ∧
      (Scalar.atMost Scalar.zero grid.intendedProbability &&
        Scalar.atMost grid.intendedProbability Scalar.one) = true ∧
      ∀ cell ∈ grid.start :: grid.terminalRewards.map Prod.fst, cell ∈ grid.freeCells := by
  have cells : ((grid.start :: grid.terminalRewards.map Prod.fst).forM grid.checkCell :
      Except (Fault K) Unit) = .ok () ↔
        ∀ cell ∈ grid.start :: grid.terminalRewards.map Prod.fst, cell ∈ grid.freeCells := by
    rw [forM_eq_ok_iff]
    exact forall₂_congr fun cell member => checkCell_eq_ok_iff (planar cell member)
  have sized : ¬ (grid.width < 1 ∨ grid.height < 1) ↔ 1 ≤ grid.width ∧ 1 ≤ grid.height := by
    rw [not_or, not_lt, not_lt]
  rw [check, ← cells, ← sized]
  constructor
  · intro run
    split at run
    · cases run
    · next large =>
        split at run
        · cases run
        · next likely =>
            obtain ⟨⟨⟩, passed, -⟩ := bind_eq_ok_iff.mp run
            rw [Bool.not_eq_true', Bool.not_eq_false] at likely
            exact ⟨large, likely, passed⟩
  · rintro ⟨large, likely, passed⟩
    rw [if_neg large, likely, Bool.not_true, if_neg Bool.false_ne_true, passed, ok_bind, pure_eq_ok]

theorem check_extended_iff {grid : Grid F} (planar : grid.Planar) :
    grid.extended.check = .ok grid.extended ↔ grid.Admitted := by
  have listed : grid.extended.terminalRewards.map Prod.fst = grid.terminalRewards.map Prod.fst := by
    simp [extended, Function.comp_def]
  have planarExtended : grid.extended.Planar := by
    rw [Planar, listed]
    exact planar
  have likely : (Scalar.atMost Scalar.zero grid.extended.intendedProbability &&
      Scalar.atMost grid.extended.intendedProbability Scalar.one) = true ↔
        0 ≤ grid.intendedProbability ∧ grid.intendedProbability ≤ 1 := by
    simp only [extended, Extended.zero_eq, Extended.one_eq, Extended.atMost_finite,
      Bool.and_eq_true, decide_eq_true_eq]
  rw [check_eq_ok_iff planarExtended, likely, listed, List.forall_mem_cons]
  constructor
  · rintro ⟨⟨width, height⟩, ⟨nonneg, atMost⟩, start, terminals⟩
    exact ⟨width, height, nonneg, atMost, start, terminals⟩
  · intro admitted
    exact ⟨⟨admitted.width, admitted.height⟩, ⟨admitted.nonneg, admitted.atMost⟩, admitted.start,
      admitted.terminals⟩

end Grid

end MarkovDecision
