import MarkovDecision.Proofs.Grid.Model
import MarkovDecision.Proofs.Renaming

/-!
# Symmetries of the square lattice

Exchanging left and right, and exchanging the two coordinates, generate the symmetries of the square
lattice. Each of them takes an accepted grid to an accepted grid. Numbers are given row by row, so
corresponding cells have different numbers, and the tables of the two models are in different orders;
but the models are one under other names.
-/

set_option autoImplicit false

namespace MarkovDecision

/-! ## Cells and directions -/

/-- The generating symmetries: left and right are exchanged, or the two coordinates. -/
inductive Symmetry where
  | reflection
  | transposition

namespace Symmetry

def turn : Symmetry → Direction → Direction
  | .reflection, .up => .up
  | .reflection, .right => .left
  | .reflection, .down => .down
  | .reflection, .left => .right
  | .transposition, .up => .right
  | .transposition, .right => .up
  | .transposition, .down => .left
  | .transposition, .left => .down

/-- The image of a cell of a grid of some width. Cells without two coordinates stay as they are. -/
def carry (symmetry : Symmetry) (width : Int) (cell : Cell) : Cell :=
  match symmetry, cell.coordinates with
  | .reflection, [column, row] => .place (width - 1 - column) row
  | .transposition, [column, row] => .place row column
  | _, _ => cell

variable (symmetry : Symmetry) (width column row : Int)

@[simp] theorem carry_reflection :
    reflection.carry width (.place column row) = .place (width - 1 - column) row := rfl

@[simp] theorem carry_transposition :
    transposition.carry width (.place column row) = .place row column := rfl

private theorem exists_carry_eq : ∃ otherColumn otherRow,
    symmetry.carry width (.place column row) = .place otherColumn otherRow := by
  cases symmetry with
  | reflection => exact ⟨_, _, rfl⟩
  | transposition => exact ⟨_, _, rfl⟩

private theorem carry_carry (cell : Cell) :
    symmetry.carry width (symmetry.carry width cell) = cell := by
  obtain ⟨coordinates⟩ := cell
  match coordinates with
  | [] => cases symmetry <;> rfl
  | [column] => cases symmetry <;> rfl
  | column :: row :: other :: rest => cases symmetry <;> rfl
  | [column, row] =>
      cases symmetry with
      | transposition => rfl
      | reflection =>
          change Cell.place (width - 1 - (width - 1 - column)) row = .place column row
          rw [sub_sub_cancel]

private theorem carry_injective : Function.Injective (symmetry.carry width) :=
  Function.Involutive.injective (symmetry.carry_carry width)

private theorem turn_turn (direction : Direction) :
    symmetry.turn (symmetry.turn direction) = direction := by
  cases symmetry <;> cases direction <;> rfl

private theorem carry_toward (direction : Direction) :
    (symmetry.carry width (.place column row)).toward (symmetry.turn direction) =
      symmetry.carry width ((Cell.place column row).toward direction) := by
  cases symmetry with
  | transposition => cases direction <;> rfl
  | reflection =>
      cases direction <;>
        simp only [carry, Cell.toward, Cell.place, turn, Direction.offset, Cell.mk.injEq,
          List.cons.injEq, and_true] <;> omega

private theorem turn_perpendicular (direction : Direction) :
    (symmetry.turn direction).perpendicular =
        (symmetry.turn direction.perpendicular.1, symmetry.turn direction.perpendicular.2) ∨
      (symmetry.turn direction).perpendicular =
        (symmetry.turn direction.perpendicular.2, symmetry.turn direction.perpendicular.1) := by
  cases symmetry <;> cases direction <;> decide

end Symmetry

namespace Grid

/-! ## Images of grids -/

section Images

variable {K : Type}

def image (grid : Grid K) (symmetry : Symmetry) : Grid K where
  width := match symmetry with
    | .reflection => grid.width
    | .transposition => grid.height
  height := match symmetry with
    | .reflection => grid.height
    | .transposition => grid.width
  walls := grid.walls.map (symmetry.carry grid.width)
  terminalRewards := grid.terminalRewards.map fun entry =>
    (symmetry.carry grid.width entry.1, entry.2)
  start := symmetry.carry grid.width grid.start
  stepReward := grid.stepReward
  intendedProbability := grid.intendedProbability
  discount := grid.discount

/-- The image under one generator after the other. -/
def images (grid : Grid K) : List Symmetry → Grid K
  | [] => grid
  | symmetry :: rest => (grid.image symmetry).images rest

/-- Where a cell goes under one generator after the other. -/
def carryAlong (grid : Grid K) : List Symmetry → Cell → Cell
  | [], cell => cell
  | symmetry :: rest, cell =>
    (grid.image symmetry).carryAlong rest (symmetry.carry grid.width cell)

variable {grid : Grid K} {symmetry : Symmetry} {column row : Int}

private theorem carry_place_mem_freeCells :
    symmetry.carry grid.width (.place column row) ∈ (grid.image symmetry).freeCells ↔
      Cell.place column row ∈ grid.freeCells := by
  have walls : symmetry.carry grid.width (.place column row) ∈ (grid.image symmetry).walls ↔
      Cell.place column row ∈ grid.walls :=
    List.mem_map_of_injective (symmetry.carry_injective grid.width)
  cases symmetry with
  | reflection =>
      rw [Symmetry.carry_reflection] at walls ⊢
      rw [place_mem_freeCells, place_mem_freeCells, walls, spans_iff, spans_iff, image]
      refine and_congr_left fun _ => ?_
      dsimp only
      omega
  | transposition =>
      rw [Symmetry.carry_transposition] at walls ⊢
      rw [place_mem_freeCells, place_mem_freeCells, walls, spans_iff, spans_iff, image]
      exact and_congr_left fun _ => and_comm

end Images

def turnAlong : List Symmetry → Direction → Direction
  | [], direction => direction
  | symmetry :: rest, direction => turnAlong rest (symmetry.turn direction)

/-! ## Grids that mirror each other -/

variable {F : Type}

/-- The other grid is the image of the grid under a map of cells and a map of directions. -/
structure Mirrors (grid other : Grid F) (carry : Cell → Cell) (turn : Direction → Direction) :
    Prop where
  stepReward : grid.stepReward = other.stepReward
  intendedProbability : grid.intendedProbability = other.intendedProbability
  discount : grid.discount = other.discount
  cells : ∀ cell ∈ grid.freeCells, carry cell ∈ other.freeCells
  onto : ∀ cell ∈ other.freeCells, ∃ origin ∈ grid.freeCells, carry origin = cell
  inj : ∀ cell ∈ grid.freeCells, ∀ twin ∈ grid.freeCells, carry cell = carry twin → cell = twin
  reached : ∀ cell ∈ grid.freeCells, ∀ direction,
    other.reached (carry cell) (turn direction) = carry (grid.reached cell direction)
  turned : Function.Surjective turn
  slips : ∀ direction : Direction,
    (turn direction).perpendicular =
        (turn direction.perpendicular.1, turn direction.perpendicular.2) ∨
      (turn direction).perpendicular =
        (turn direction.perpendicular.2, turn direction.perpendicular.1)
  rewards : ∀ cell ∈ grid.freeCells,
    other.rewards.get? (other.number (carry cell)) = grid.rewards.get? (grid.number cell)

variable {grid other last : Grid F} {carry carryOn : Cell → Cell}
  {turn turnOn : Direction → Direction}

theorem Mirrors.refl (grid : Grid F) : grid.Mirrors grid id id where
  stepReward := rfl
  intendedProbability := rfl
  discount := rfl
  cells _ free := free
  onto cell free := ⟨cell, free, rfl⟩
  inj _ _ _ _ same := same
  reached _ _ _ := rfl
  turned := Function.surjective_id
  slips _ := Or.inl rfl
  rewards _ _ := rfl

theorem Mirrors.trans (mirrors : grid.Mirrors other carry turn)
    (onward : other.Mirrors last carryOn turnOn) :
    grid.Mirrors last (carryOn ∘ carry) (turnOn ∘ turn) where
  stepReward := mirrors.stepReward.trans onward.stepReward
  intendedProbability := mirrors.intendedProbability.trans onward.intendedProbability
  discount := mirrors.discount.trans onward.discount
  cells cell free := onward.cells _ (mirrors.cells cell free)
  onto cell free := by
    obtain ⟨middle, between, rfl⟩ := onward.onto cell free
    obtain ⟨origin, begins, rfl⟩ := mirrors.onto middle between
    exact ⟨origin, begins, rfl⟩
  inj cell free twin known same :=
    mirrors.inj cell free twin known
      (onward.inj _ (mirrors.cells cell free) _ (mirrors.cells twin known) same)
  reached cell free direction := by
    rw [Function.comp_apply, Function.comp_apply,
      onward.reached _ (mirrors.cells cell free), mirrors.reached cell free, Function.comp_apply]
  turned := onward.turned.comp mirrors.turned
  slips direction := by
    simp only [Function.comp_apply]
    rcases mirrors.slips direction with same | swapped
    · rcases onward.slips (turn direction) with kept | exchanged
      · exact .inl (kept.trans (by rw [same]))
      · exact .inr (exchanged.trans (by rw [same]))
    · rcases onward.slips (turn direction) with kept | exchanged
      · exact .inr (kept.trans (by rw [swapped]))
      · exact .inl (exchanged.trans (by rw [swapped]))
  rewards cell free :=
    (onward.rewards _ (mirrors.cells cell free)).trans (mirrors.rewards cell free)

private theorem Mirrors.number_eq_iff (mirrors : grid.Mirrors other carry turn) {cell target : Cell}
    (free : cell ∈ grid.freeCells) (known : target ∈ grid.freeCells) :
    other.number (carry cell) = other.number (carry target) ↔
      grid.number cell = grid.number target := by
  rw [number_inj (mirrors.cells cell free), number_inj free]
  exact ⟨mirrors.inj cell free target known, congrArg carry⟩

/-! ## Accepted grids and their images -/

private theorem Planar.image (planar : grid.Planar) (symmetry : Symmetry) :
    (grid.image symmetry).Planar := by
  have cells : (grid.image symmetry).start :: (grid.image symmetry).terminalRewards.map Prod.fst =
      (grid.start :: grid.terminalRewards.map Prod.fst).map (symmetry.carry grid.width) := by
    simp only [Grid.image, List.map_cons, List.map_map, Function.comp_def]
  rw [Planar, cells, List.forall_mem_map]
  intro cell listed
  obtain ⟨column, row, rfl⟩ := planar cell listed
  exact symmetry.exists_carry_eq grid.width column row

private theorem Planar.images (planar : grid.Planar) (word : List Symmetry) :
    (grid.images word).Planar := by
  induction word generalizing grid with
  | nil => exact planar
  | cons symmetry rest ih => exact ih (planar.image symmetry)

private theorem carry_mem_freeCells (symmetry : Symmetry) {cell : Cell}
    (free : cell ∈ grid.freeCells) :
    symmetry.carry grid.width cell ∈ (grid.image symmetry).freeCells := by
  obtain ⟨column, row, rfl, -⟩ := mem_freeCells.mp free
  exact carry_place_mem_freeCells.mpr free

private theorem reached_image (symmetry : Symmetry) {cell : Cell} (free : cell ∈ grid.freeCells)
    (direction : Direction) :
    (grid.image symmetry).reached (symmetry.carry grid.width cell) (symmetry.turn direction) =
      symmetry.carry grid.width (grid.reached cell direction) := by
  rw [reached_eq (carry_mem_freeCells symmetry free), reached_eq free]
  obtain ⟨column, row, rfl, -⟩ := mem_freeCells.mp free
  have toward : (Cell.place column row).toward direction =
    .place (column + direction.offset.1) (row + direction.offset.2) := rfl
  rw [symmetry.carry_toward, toward, apply_ite (symmetry.carry grid.width)]
  exact if_congr carry_place_mem_freeCells rfl rfl

private theorem get?_rewards
    (terminals : ∀ cell ∈ grid.terminalRewards.map Prod.fst, cell ∈ grid.freeCells)
    (cell : Cell) :
    grid.rewards.get? (grid.number cell) = Table.lookupIn cell grid.terminalRewards.reverse := by
  rw [rewards, Table.get?_ofPairs, ← List.map_reverse]
  refine Table.lookupIn_map grid.number fun entry listed same => ?_
  have free := terminals _ (List.mem_map_of_mem (List.mem_reverse.mp listed))
  exact (number_inj free).mp same

variable [Field F] [LinearOrder F]

private theorem Admitted.image (admitted : grid.Admitted) (symmetry : Symmetry) :
    (grid.image symmetry).Admitted where
  width := by cases symmetry <;> [exact admitted.width; exact admitted.height]
  height := by cases symmetry <;> [exact admitted.height; exact admitted.width]
  nonneg := admitted.nonneg
  atMost := admitted.atMost
  start := carry_mem_freeCells symmetry admitted.start
  terminals := by
    have cells : (grid.image symmetry).terminalRewards.map Prod.fst =
        (grid.terminalRewards.map Prod.fst).map (symmetry.carry grid.width) := by
      simp only [Grid.image, List.map_map, Function.comp_def]
    rw [cells, List.forall_mem_map]
    exact fun cell listed => carry_mem_freeCells symmetry (admitted.terminals cell listed)

private theorem Admitted.mirrors (admitted : grid.Admitted) (symmetry : Symmetry) :
    grid.Mirrors (grid.image symmetry) (symmetry.carry grid.width) symmetry.turn where
  stepReward := rfl
  intendedProbability := rfl
  discount := rfl
  cells _ free := carry_mem_freeCells symmetry free
  onto cell free := by
    obtain ⟨column, row, rfl, -⟩ := mem_freeCells.mp free
    have back := symmetry.carry_carry grid.width (.place column row)
    obtain ⟨_, _, named⟩ := symmetry.exists_carry_eq grid.width column row
    refine ⟨symmetry.carry grid.width (.place column row), ?_, back⟩
    rw [named] at back ⊢
    rwa [← back, carry_place_mem_freeCells] at free
  inj _ _ _ _ same := symmetry.carry_injective grid.width same
  reached _ free direction := reached_image symmetry free direction
  turned direction := ⟨symmetry.turn direction, symmetry.turn_turn direction⟩
  slips := symmetry.turn_perpendicular
  rewards cell _ := by
    have listed : (grid.image symmetry).terminalRewards =
      grid.terminalRewards.map fun entry => (symmetry.carry grid.width entry.1, entry.2) := rfl
    rw [get?_rewards (admitted.image symmetry).terminals, get?_rewards admitted.terminals, listed,
      ← List.map_reverse]
    exact Table.lookupIn_map (symmetry.carry grid.width) fun _ _ same =>
      symmetry.carry_injective grid.width same

private theorem Admitted.mirrors_images (admitted : grid.Admitted) (word : List Symmetry) :
    (grid.images word).Admitted ∧
      grid.Mirrors (grid.images word) (grid.carryAlong word) (turnAlong word) := by
  induction word generalizing grid with
  | nil => exact ⟨admitted, .refl grid⟩
  | cons symmetry rest ih =>
      obtain ⟨accepted, onward⟩ := ih (admitted.image symmetry)
      exact ⟨accepted, (admitted.mirrors symmetry).trans onward⟩

/-! ## Models that mirror each other -/

/-- The action of the turned direction; the no-op stays. -/
def turnAction (turn : Direction → Direction) (action : Ident) : Ident :=
  match Direction.ofAction? action with
  | some direction => (turn direction).action
  | none => action

private theorem turnAction_action (turn : Direction → Direction) (direction : Direction) :
    turnAction turn direction.action = (turn direction).action := by
  cases direction <;> rfl

private theorem turnAction_blank (turn : Direction → Direction) :
    turnAction turn .blank = .blank := rfl

namespace Mirrors

variable (mirrors : grid.Mirrors other carry turn) {cell target : Cell}

include mirrors

private theorem terminal_iff (free : cell ∈ grid.freeCells) :
    other.number (carry cell) ∈ other.exact.terminals ↔
      grid.number cell ∈ grid.exact.terminals := by
  change _ ∈ other.rewards.keys ↔ _ ∈ grid.rewards.keys
  rw [← Table.get?_isSome_iff, ← Table.get?_isSome_iff, mirrors.rewards cell free]

private theorem open_iff (free : cell ∈ grid.freeCells) :
    carry cell ∈ other.openCells ↔ cell ∈ grid.openCells := by
  rw [mem_openCells_iff, mem_openCells_iff, mirrors.terminal_iff free]
  exact and_congr_left fun _ => iff_of_true (mirrors.cells cell free) free

theorem legal_iff (free : cell ∈ grid.freeCells) (action : Ident) :
    action ∈ other.exact.legal (other.number (carry cell)) ↔
      ∃ origin ∈ grid.exact.legal (grid.number cell), turnAction turn origin = action := by
  by_cases terminal : grid.number cell ∈ grid.exact.terminals
  · rw [legal_terminal terminal, legal_terminal ((mirrors.terminal_iff free).mpr terminal)]
    simp only [List.mem_singleton, exists_eq_left, turnAction_blank, eq_comm]
  · have opened : cell ∈ grid.openCells := mem_openCells_iff.mpr ⟨free, terminal⟩
    rw [legal_open opened, legal_open ((mirrors.open_iff free).mpr opened)]
    simp only [List.mem_map, Direction.mem_all, true_and, exists_exists_eq_and, turnAction_action]
    constructor
    · rintro ⟨direction, rfl⟩
      obtain ⟨origin, rfl⟩ := mirrors.turned direction
      exact ⟨origin, rfl⟩
    · rintro ⟨origin, rfl⟩
      exact ⟨turn origin, rfl⟩

theorem probability_exactRow (free : cell ∈ grid.freeCells) (known : target ∈ grid.freeCells)
    (direction : Direction) :
    (other.exactRow (carry cell) (turn direction)).probability (other.number (carry target)) =
      (grid.exactRow cell direction).probability (grid.number target) := by
  have lands : ∀ way, (other.number (other.reached (carry cell) (turn way)) =
      other.number (carry target)) ↔ grid.number (grid.reached cell way) = grid.number target := by
    intro way
    rw [mirrors.reached cell free]
    exact mirrors.number_eq_iff (reached_mem free) known
  have slip : other.slip = grid.slip := by rw [slip, slip, mirrors.intendedProbability]
  rw [Grid.probability_exactRow, Grid.probability_exactRow]
  simp only [landings, List.map_cons, List.map_nil, List.sum_cons, List.sum_nil, lands, slip,
    mirrors.intendedProbability]
  rcases mirrors.slips direction with same | swapped
  · simp only [same, lands]
  · simp only [swapped, lands]
    ring

omit [LinearOrder F] in
private theorem probability_sure (free : cell ∈ grid.freeCells) (known : target ∈ grid.freeCells) :
    Row.probability (.ofPairs [(other.number (carry cell), (1 : F))]) (other.number (carry target)) =
      Row.probability (.ofPairs [(grid.number cell, 1)]) (grid.number target) := by
  simp only [Row.probability, Table.get?_ofPairs, List.reverse_singleton, Table.lookupIn,
    mirrors.number_eq_iff free known]

/-- The models of grids that mirror each other are one under other names. -/
theorem renamed : grid.exact.Renamed other.exact grid.freeCells grid.number
    (fun cell => other.number (carry cell)) (turnAction turn) where
  discount := mirrors.discount
  lefts state := List.mem_map
  rights state := by
    change state ∈ other.freeCells.map other.number ↔ _
    rw [List.mem_map]
    constructor
    · rintro ⟨cell, free, rfl⟩
      obtain ⟨origin, begins, rfl⟩ := mirrors.onto cell free
      exact ⟨origin, begins, rfl⟩
    · rintro ⟨cell, free, rfl⟩
      exact ⟨_, mirrors.cells cell free, rfl⟩
  firstInj cell free twin _ := (number_inj free).mp
  secondInj cell free twin known same :=
    (number_inj free).mp ((mirrors.number_eq_iff free known).mp same)
  legal cell free action := mirrors.legal_iff free action
  probability cell free action legal target known := by
    by_cases terminal : grid.number cell ∈ grid.exact.terminals
    · rw [legal_terminal terminal, List.mem_singleton] at legal
      rw [legal, turnAction_blank,
        Model.rowAt_of_get? (row_terminal ((mirrors.terminal_iff free).mpr terminal)),
        Model.rowAt_of_get? (row_terminal terminal)]
      exact mirrors.probability_sure free known
    · have opened : cell ∈ grid.openCells := mem_openCells_iff.mpr ⟨free, terminal⟩
      rw [legal_open opened] at legal
      obtain ⟨direction, -, rfl⟩ := List.mem_map.mp legal
      rw [turnAction_action, Model.rowAt_of_get? (row_open ((mirrors.open_iff free).mpr opened) _),
        Model.rowAt_of_get? (row_open opened _)]
      exact mirrors.probability_exactRow free known direction
  reward cell free action _ target known := by
    simp only [exact, Table.contains, mirrors.rewards cell free, mirrors.rewards target known,
      mirrors.stepReward]

end Mirrors

/-! ## The symmetries of value iteration -/

variable [IsStrictOrderedRing F]

/-- Every symmetry of the lattice takes an accepted grid to an accepted grid with the same model under
other names: corresponding moves between corresponding cells have the same probability and the same
reward. Value iteration takes as many sweeps on one as on the other, with the same changes, and gives
corresponding cells the same utilities; with a discount in range it returns on both. -/
theorem model_symmetric [Archimedean F] (grid : Grid F) (planar : grid.Planar)
    (accepted : grid.extended.check = .ok grid.extended) (word : List Symmetry) :
    let other := grid.images word
    let twin (cell : Cell) : Ident := other.number (grid.carryAlong word cell)
    (other.Planar ∧ other.extended.check = .ok other.extended) ∧
    (∀ cell ∈ grid.freeCells, grid.extended.stateAt cell = .ok (grid.number cell) ∧
      other.extended.stateAt (grid.carryAlong word cell) = .ok (twin cell)) ∧
    ∃ model mirrored : Model F, grid.extended.model = .ok model.extended ∧
      other.extended.model = .ok mirrored.extended ∧
      model.Renamed mirrored grid.freeCells grid.number twin (turnAction (turnAlong word)) ∧
      ∀ (epsilon : F) (recordHistory : Bool),
        (∀ budget, SucceedTogether (Option.Rel (Solution.Renamed grid.freeCells grid.number twin))
          ((model.extended.valueIteration (.finite epsilon) recordHistory budget).result
            model.extended)
          ((mirrored.extended.valueIteration (.finite epsilon) recordHistory budget).result
            mirrored.extended)) ∧
        (0 ≤ grid.discount ∧ grid.discount < 1 → 0 < epsilon → ∃ solution reflected,
          Solution.Renamed grid.freeCells grid.number twin solution reflected ∧
          ∀ budget, solution.iterations ≤ budget →
            (model.extended.valueIteration (.finite epsilon) recordHistory budget).result
                model.extended = .ok (some solution) ∧
              (mirrored.extended.valueIteration (.finite epsilon) recordHistory budget).result
                mirrored.extended = .ok (some reflected)) := by
  intro other twin
  have admitted := (check_extended_iff planar).mp accepted
  obtain ⟨readmitted, mirrors⟩ := admitted.mirrors_images word
  have renamed := mirrors.renamed
  refine ⟨⟨planar.images word, (check_extended_iff (planar.images word)).mpr readmitted⟩,
    fun cell free => ⟨stateAt_eq_ok free, stateAt_eq_ok (mirrors.cells cell free)⟩,
    grid.exact, other.exact, admitted.model_extended, readmitted.model_extended, renamed,
    fun epsilon recordHistory => ⟨fun _ => ?_, fun discount positive => ?_⟩⟩
  · exact renamed.valueIteration_together admitted.accepted readmitted.accepted
  · exact renamed.exists_solutions admitted.stochastic exact_active readmitted.stochastic
      exact_active discount positive recordHistory

/-- The nook and its image under a quarter turn. -/
theorem model_symmetric_nook :
    let word : List Symmetry := [.reflection, .transposition]
    let other := nook.images word
    let twin (cell : Cell) : Ident := other.number (nook.carryAlong word cell)
    (nook.Planar ∧ nook.extended.check = .ok nook.extended) ∧
    ∃ model mirrored : Model ℚ, nook.extended.model = .ok model.extended ∧
      other.extended.model = .ok mirrored.extended ∧
      model.Renamed mirrored nook.freeCells nook.number twin (turnAction (turnAlong word)) ∧
      ∃ solution reflected, Solution.Renamed nook.freeCells nook.number twin solution reflected ∧
        ∀ budget, solution.iterations ≤ budget →
          (model.extended.valueIteration (.finite (1 / 100)) false budget).result model.extended =
              .ok (some solution) ∧
            (mirrored.extended.valueIteration (.finite (1 / 100)) false budget).result
              mirrored.extended = .ok (some reflected) := by
  intro word other twin
  obtain ⟨-, -, model, mirrored, built, rebuilt, renamed, runs⟩ :=
    nook.model_symmetric nook_planar nook_accepted word
  have discount : 0 ≤ nook.discount ∧ nook.discount < 1 := by decide +kernel
  exact ⟨⟨nook_planar, nook_accepted⟩, model, mirrored, built, rebuilt, renamed,
    (runs (1 / 100) false).2 discount (by decide +kernel)⟩

end Grid

end MarkovDecision
