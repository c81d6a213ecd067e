import MarkovDecision.Proofs.Grid.Layout
import MarkovDecision.Proofs.Walk.Outcomes

/-!
# The model of an accepted grid

With exact numbers the model of an accepted grid is built without a fault, and it is written down
here without faults. Merging adds probability to one successor at a time, and each time the mass of
the row grows by as much. So the rows of a grid have mass one, and what a row gives to a cell is the
probability of all outcomes that end there.
-/

set_option autoImplicit false

namespace MarkovDecision

variable {F : Type}

namespace Grid

/-! ## Terminal and open cells -/

/-- The rewards of the terminal states. -/
def rewards (grid : Grid F) : Table Ident F :=
  .ofPairs (grid.terminalRewards.map fun entry => (grid.number entry.1, entry.2))

private theorem rewards_extended (grid : Grid F) :
    grid.extended.rewards = grid.rewards.extended := by
  rw [rewards, rewards, Table.extended, Table.mapValues_ofPairs]
  simp only [extended, List.map_map, Function.comp_def]
  rfl

/-- The free cells that are not terminal. -/
def openCells (grid : Grid F) : List Cell :=
  grid.freeCells.filter fun cell => !grid.rewards.contains (grid.number cell)

def openActions (grid : Grid F) : List (Ident × List Ident) :=
  grid.openCells.map fun cell => (grid.number cell, Direction.all.map Direction.action)

private theorem filter_numberedCells (grid : Grid F) :
    (grid.extended.numberedCells.filter fun entry => !grid.rewards.extended.contains entry.1) =
      grid.openCells.map fun cell => (grid.number cell, cell) := by
  rw [numberedCells_eq, List.filter_map, openCells]
  refine congrArg (List.map _) (List.filter_congr fun cell _ => ?_)
  exact congrArg Bool.not (Table.contains_extended grid.rewards (grid.number cell))

/-! ## Models with any numbers -/

section AnyNumbers

variable {K : Type} {grid : Grid K} {cell : Cell} {model : Model K}

private theorem rewardTable_eq_ok
    (terminals : ∀ cell ∈ grid.terminalRewards.map Prod.fst, cell ∈ grid.freeCells) :
    grid.rewardTable = .ok grid.rewards := by
  have pairs : (grid.terminalRewards.mapM fun entry => do
      let state ← grid.stateAt entry.1
      return (state, entry.2) : Except (Fault K) (List (Ident × K))) =
        .ok (grid.terminalRewards.map fun entry => (grid.number entry.1, entry.2)) := by
    apply mapM_eq_ok
    intro entry listed
    rw [stateAt_eq_ok (terminals _ (List.mem_map_of_mem listed)), ok_bind, pure_eq_ok]
  rw [rewardTable, pairs, ok_bind, pure_eq_ok, rewards]

variable [Scalar K]

private theorem exists_mergeOutcomes (free : cell ∈ grid.freeCells)
    (outcomes : List (Direction × K))
    (row : Row K) : ∃ merged, grid.mergeOutcomes cell outcomes row = .ok merged := by
  induction outcomes generalizing row with
  | nil => exact ⟨row, rfl⟩
  | cons outcome rest ih =>
      simp only [mergeOutcomes, move_eq_ok free, stateAt_eq_ok (reached_mem free), ok_bind]
      split
      · exact ih row
      · exact ih _

/-- The model of a grid whose start and terminal cells are free is built without a fault, whatever
its numbers are. -/
theorem exists_model (start : grid.start ∈ grid.freeCells)
    (terminals : ∀ cell ∈ grid.terminalRewards.map Prod.fst, cell ∈ grid.freeCells) :
    ∃ model, grid.model = .ok model := by
  have groups : ∃ groups, ((grid.numberedCells.filter fun entry =>
        !grid.rewards.contains entry.1).mapM fun entry =>
      Direction.all.mapM fun direction => do
        let row ← grid.rowFrom entry.2 direction
        return ((entry.1, direction.action), row) :
          Except (Fault K) (List (List ((Ident × Ident) × Row K)))) = .ok groups := by
    apply exists_mapM_eq_ok
    intro entry listed
    apply exists_mapM_eq_ok
    intro direction _
    have free : entry.2 ∈ grid.freeCells := by
      have numbered := (List.mem_filter.mp listed).1
      rw [numberedCells_eq] at numbered
      obtain ⟨cell, free, rfl⟩ := List.mem_map.mp numbered
      exact free
    obtain ⟨row, merged⟩ := exists_mergeOutcomes free (grid.outcomes direction) .empty
    exact ⟨_, by rw [rowFrom, merged, ok_bind, pure_eq_ok]⟩
  obtain ⟨groups, collected⟩ := groups
  rw [model, rewardTable_eq_ok terminals, ok_bind, moveRows, collected, ok_bind, pure_eq_ok, ok_bind,
    stateAt_eq_ok start, ok_bind, pure_eq_ok]
  exact ⟨_, rfl⟩

omit [Scalar K] in
private theorem mem_moveActions {rewards : Table Ident K} {pair : Ident × List Ident} :
    pair ∈ grid.moveActions rewards ↔ ∃ cell ∈ grid.freeCells,
      rewards.contains (grid.number cell) = false ∧
        (grid.number cell, Direction.all.map Direction.action) = pair := by
  simp only [moveActions, numberedCells_eq, List.mem_map, List.mem_filter, Bool.not_eq_true']
  constructor
  · rintro ⟨_, ⟨⟨cell, free, rfl⟩, interior⟩, rfl⟩
    exact ⟨cell, free, interior, rfl⟩
  · rintro ⟨cell, free, interior, rfl⟩
    exact ⟨_, ⟨⟨cell, free, rfl⟩, interior⟩, rfl⟩

/-- The four directions are the legal actions of a free cell that is not terminal. -/
theorem legal_of_model (run : grid.model = .ok model) (free : cell ∈ grid.freeCells)
    (interior : cell ∉ grid.terminalRewards.map Prod.fst) :
    model.legal (grid.number cell) = Direction.all.map Direction.action := by
  obtain ⟨rewards, rewarded, run⟩ := bind_eq_ok_iff.mp run
  obtain ⟨rows, -, run⟩ := bind_eq_ok_iff.mp run
  obtain ⟨initial, -, run⟩ := bind_eq_ok_iff.mp run
  cases run
  have open_ : rewards.contains (grid.number cell) = false := by
    rw [← Bool.not_eq_true, Table.contains_iff]
    intro terminal
    obtain ⟨other, listed, known, same⟩ := mem_terminals_of_rewardTable rewarded terminal
    exact interior ((number_inj known).mp same ▸ listed)
  have member : (grid.number cell, Direction.all.map Direction.action) ∈ grid.moveActions rewards :=
    mem_moveActions.mpr ⟨cell, free, open_, rfl⟩
  have single : ∀ pair ∈ grid.moveActions rewards, pair.1 = grid.number cell →
      pair.2 = Direction.all.map Direction.action := by
    intro pair listed _
    obtain ⟨_, -, -, rfl⟩ := mem_moveActions.mp listed
    rfl
  rw [Model.legal, Table.get?_insertAll_of_mem _ (List.mem_map_of_mem member) single,
    Option.getD_some]

end AnyNumbers

end Grid

variable [Field F]

/-! ## Adding to a row -/

/-- Add probability to a successor. -/
def Row.add (row : Row F) (state : Ident) (probability : F) : Row F :=
  row.insert state (row.probability state + probability)

section Add

variable (row : Row F) (state other : Ident) (probability : F)

private theorem Row.probability_add : (row.add state probability).probability other =
    row.probability other + if state = other then probability else 0 := by
  rw [Row.probability, Row.add, Table.get?_insert]
  split
  · next same => rw [same, Option.getD_some]
  · rw [add_zero, Row.probability]

private theorem Row.mass_add :
    (row.add state probability).mass = row.mass + probability := by
  have inEntries : ∀ entries : List (Ident × F),
      ((Table.overwriteIn state ((Table.lookupIn state entries).getD 0 + probability) entries).map
        Prod.snd).sum = (entries.map Prod.snd).sum + probability := by
    intro entries
    induction entries with
    | nil => simp [Table.overwriteIn, Table.lookupIn]
    | cons entry rest ih =>
        by_cases here : entry.1 = state
        · simp only [Table.overwriteIn, Table.lookupIn, here, if_true, Option.getD_some,
            List.map_cons, List.sum_cons, add_right_comm]
        · simp only [Table.overwriteIn, Table.lookupIn, here, if_false, List.map_cons,
            List.sum_cons, ih, add_assoc]
  exact inEntries row.entries

end Add

namespace Grid

/-! ## Rows -/

/-- The probability of each of the two slips: half of what the intended move leaves. -/
def slip (grid : Grid F) : F := (1 - grid.intendedProbability) / (1 + 1)

/-- The moves that an intended move may turn into, with their probabilities. -/
def landings (grid : Grid F) (intended : Direction) : List (Direction × F) :=
  [(intended, grid.intendedProbability), (intended.perpendicular.1, grid.slip),
    (intended.perpendicular.2, grid.slip)]

variable [LinearOrder F]

def addLandings (grid : Grid F) (cell : Cell) : List (Direction × F) → Row F → Row F
  | [], row => row
  | (direction, probability) :: rest, row =>
    if probability = 0 then grid.addLandings cell rest row
    else grid.addLandings cell rest (row.add (grid.number (grid.reached cell direction)) probability)

/-- The row of a move from a free cell. -/
def exactRow (grid : Grid F) (cell : Cell) (intended : Direction) : Row F :=
  grid.addLandings cell (grid.landings intended) .empty

variable {grid : Grid F} {cell : Cell} {intended : Direction}

private theorem mergeOutcomes_extended (free : cell ∈ grid.freeCells)
    (outcomes : List (Direction × F))
    (row : Row F) :
    grid.extended.mergeOutcomes cell (outcomes.map fun outcome => (outcome.1, .finite outcome.2))
        row.extended = .ok (grid.addLandings cell outcomes row).extended := by
  induction outcomes generalizing row with
  | nil => rfl
  | cons outcome rest ih =>
      have moved : grid.extended.move cell outcome.1 = .ok (grid.reached cell outcome.1) :=
        move_eq_ok free
      have numbered : grid.extended.stateAt (grid.reached cell outcome.1) =
          .ok (grid.number (grid.reached cell outcome.1)) := stateAt_eq_ok (reached_mem free)
      have written : row.extended.insert (grid.number (grid.reached cell outcome.1))
          ((row.extended.get? (grid.number (grid.reached cell outcome.1))).getD Scalar.zero +
            .finite outcome.2) =
          (row.add (grid.number (grid.reached cell outcome.1)) outcome.2).extended := by
        rw [Row.extended_getD, Extended.finite_add, Row.add, Table.extended, Table.extended,
          Table.mapValues_insert]
      rw [List.map_cons, mergeOutcomes, addLandings, Extended.zero_eq, Extended.equal_finite]
      simp only [decide_eq_true_eq, moved, numbered, ok_bind]
      split
      · exact ih row
      · rw [← Extended.zero_eq, written]
        exact ih _

private theorem mass_addLandings (outcomes : List (Direction × F)) (row : Row F) :
    (grid.addLandings cell outcomes row).mass = row.mass + (outcomes.map Prod.snd).sum := by
  induction outcomes generalizing row with
  | nil => exact (add_zero _).symm
  | cons outcome rest ih =>
      rw [addLandings, List.map_cons, List.sum_cons]
      split
      · next zero => rw [ih, zero, zero_add]
      · rw [ih, Row.mass_add, add_assoc]

private theorem probability_addLandings (outcomes : List (Direction × F)) (row : Row F)
    (state : Ident) :
    (grid.addLandings cell outcomes row).probability state = row.probability state +
      (outcomes.map fun outcome =>
        if grid.number (grid.reached cell outcome.1) = state then outcome.2 else 0).sum := by
  induction outcomes generalizing row with
  | nil => exact (add_zero _).symm
  | cons outcome rest ih =>
      rw [addLandings, List.map_cons, List.sum_cons]
      split
      · next zero => rw [ih, zero, ite_self, zero_add]
      · rw [ih, Row.probability_add, add_assoc]

theorem probability_exactRow (state : Ident) :
    (grid.exactRow cell intended).probability state =
      ((grid.landings intended).map fun outcome =>
        if grid.number (grid.reached cell outcome.1) = state then outcome.2 else 0).sum := by
  rw [exactRow, probability_addLandings]
  exact zero_add _

/-- A row with positive entries on free cells only. -/
def OnFree (grid : Grid F) (row : Row F) : Prop :=
  ∀ entry ∈ row.entries, 0 < entry.2 ∧ ∃ landed ∈ grid.freeCells, entry.1 = grid.number landed

private theorem OnFree.probability_nonneg {row : Row F} (fine : grid.OnFree row) (state : Ident) :
    0 ≤ row.probability state := by
  rw [Row.probability]
  cases found : row.get? state with
  | none => exact le_rfl
  | some probability => exact (fine _ ((row.get?_eq_some_iff state probability).mp found)).1.le

/-! ## The model -/

def openRows (grid : Grid F) : List ((Ident × Ident) × Row F) :=
  grid.openCells.flatMap fun cell => Direction.all.map fun direction =>
    ((grid.number cell, direction.action), grid.exactRow cell direction)

/-- The model of an accepted grid. -/
def exact (grid : Grid F) : Model F where
  states := grid.freeCells.map grid.number
  actionTable := (absorbingActions grid.rewards.keys .blank).insertAll grid.openActions
  rowTable := (Table.ofPairs (grid.rewards.keys.map fun state =>
      ((state, .blank), .ofPairs [(state, 1)]))).insertAll grid.openRows
  reward state _ successor :=
    if grid.rewards.contains state then 0 else (grid.rewards.get? successor).getD grid.stepReward
  discount := grid.discount
  initial := grid.number grid.start
  terminals := grid.rewards.keys
  noop := .blank

private theorem Admitted.rewardTable_extended (admitted : grid.Admitted) :
    grid.extended.rewardTable = .ok grid.rewards.extended := by
  have terminals : ∀ cell ∈ grid.extended.terminalRewards.map Prod.fst,
      cell ∈ grid.extended.freeCells := by
    intro cell listed
    rw [extended, List.map_map] at listed
    exact admitted.terminals cell listed
  rw [rewardTable_eq_ok terminals, rewards_extended]

private theorem rowTable_extended (grid : Grid F) :
    grid.exact.extended.rowTable = (absorbingRows grid.rewards.keys .blank).insertAll
      (grid.openRows.map fun pair => (pair.1, pair.2.extended)) := by
  have sure : ∀ state : Ident,
      Table.extended (.ofPairs [(state, (1 : F))]) = .ofPairs [(state, Scalar.one)] := by
    intro state
    rw [Table.extended, Table.mapValues_ofPairs, Extended.one_eq]
    rfl
  rw [Model.extended, exact, Table.mapValues_insertAll, Table.mapValues_ofPairs, absorbingRows,
    List.map_map]
  simp only [Function.comp_def, sure]

private theorem reward_extended (grid : Grid F) : grid.extended.reward grid.rewards.extended =
    fun state successor => .finite (grid.exact.reward state .blank successor) := by
  funext state successor
  have exactly : grid.exact.reward state .blank successor = if grid.rewards.contains state then 0
      else (grid.rewards.get? successor).getD grid.stepReward := rfl
  rw [reward, Table.contains_extended, Table.get?_extended, exactly]
  split
  · exact Extended.zero_eq
  · cases grid.rewards.get? successor <;> rfl

/-! ## Built without a fault -/

section Built

variable [IsStrictOrderedRing F]

private theorem outcomes_extended (grid : Grid F) (intended : Direction) :
    grid.extended.outcomes intended =
      (grid.landings intended).map fun outcome => (outcome.1, .finite outcome.2) := by
  have slips : grid.extended.slipProbability = .finite grid.slip := by
    rw [slipProbability, Extended.one_eq, Extended.two_eq, slip, one_add_one_eq_two]
    exact (congrArg (· / _) (Extended.finite_sub 1 _)).trans (Extended.finite_div _ _ two_ne_zero)
  rw [outcomes, slips]
  rfl

private theorem rowFrom_extended (free : cell ∈ grid.freeCells) (intended : Direction) :
    grid.extended.rowFrom cell intended = .ok (grid.exactRow cell intended).extended := by
  rw [rowFrom, outcomes_extended]
  exact mergeOutcomes_extended free _ .empty

private theorem mass_exactRow : (grid.exactRow cell intended).mass = 1 := by
  have total : ((grid.landings intended).map Prod.snd).sum = 1 := by
    simp only [landings, slip, List.map_cons, List.map_nil, List.sum_cons, List.sum_nil]
    ring
  rw [exactRow, mass_addLandings, total]
  exact zero_add 1

private theorem onFree_addLandings (free : cell ∈ grid.freeCells) {outcomes : List (Direction × F)}
    (nonneg : ∀ outcome ∈ outcomes, 0 ≤ outcome.2) {row : Row F} (fine : grid.OnFree row) :
    grid.OnFree (grid.addLandings cell outcomes row) := by
  induction outcomes generalizing row with
  | nil => exact fine
  | cons outcome rest ih =>
      obtain ⟨here, others⟩ := List.forall_mem_cons.mp nonneg
      rw [addLandings]
      split
      · exact ih others fine
      · next nonzero =>
          have positive : 0 < outcome.2 := here.lt_of_ne' nonzero
          refine ih others (Table.forall_entries_insert fine ⟨?_, _, reached_mem free, rfl⟩)
          exact add_pos_of_nonneg_of_pos (fine.probability_nonneg _) positive

theorem Admitted.onFree_exactRow (admitted : grid.Admitted) (free : cell ∈ grid.freeCells) :
    grid.OnFree (grid.exactRow cell intended) := by
  have slips : 0 ≤ grid.slip :=
    div_nonneg (sub_nonneg.mpr admitted.atMost) (add_pos one_pos one_pos).le
  have nonneg : ∀ outcome ∈ grid.landings intended, 0 ≤ outcome.2 := by
    simp only [landings, List.forall_mem_cons]
    exact ⟨admitted.nonneg, slips, slips, fun _ absent => nomatch absent⟩
  exact onFree_addLandings free nonneg fun _ absent => nomatch absent

private theorem moveRows_extended (grid : Grid F) :
    grid.extended.moveRows grid.rewards.extended =
      .ok (grid.openRows.map fun pair => (pair.1, pair.2.extended)) := by
  have groups : (grid.extended.numberedCells.filter fun entry =>
        !grid.rewards.extended.contains entry.1).mapM (fun entry =>
          Direction.all.mapM fun direction => do
            let row ← grid.extended.rowFrom entry.2 direction
            return ((entry.1, direction.action), row)) =
      (.ok ((grid.openCells.map fun cell => (grid.number cell, cell)).map fun entry =>
        Direction.all.map fun direction =>
          ((entry.1, direction.action), (grid.exactRow entry.2 direction).extended)) :
        Except (Fault (Extended F)) _) := by
    rw [filter_numberedCells]
    apply mapM_eq_ok
    intro entry listed
    obtain ⟨cell, member, rfl⟩ := List.mem_map.mp listed
    apply mapM_eq_ok
    intro direction _
    rw [rowFrom_extended (List.mem_filter.mp member).1, ok_bind, pure_eq_ok]
  rw [moveRows, groups, ok_bind, pure_eq_ok, List.map_map, openRows, List.map_flatMap, List.flatMap]
  simp only [Function.comp_def, List.map_map]

/-- The model of an accepted grid is built without a fault. -/
theorem Admitted.model_extended (admitted : grid.Admitted) :
    grid.extended.model = .ok grid.exact.extended := by
  have initial : grid.extended.stateAt grid.extended.start = .ok (grid.number grid.start) :=
    stateAt_eq_ok admitted.start
  have states : grid.extended.numberedCells.map Prod.fst = grid.freeCells.map grid.number := by
    rw [numberedCells_eq, List.map_map]
    rfl
  have actions : grid.extended.moveActions grid.rewards.extended = grid.openActions := by
    rw [moveActions, filter_numberedCells, List.map_map]
    rfl
  have keys : grid.rewards.extended.keys = grid.rewards.keys := Table.keys_mapValues _ _
  rw [model, admitted.rewardTable_extended, ok_bind, moveRows_extended, ok_bind, initial, ok_bind,
    pure_eq_ok, keys, states, actions, ← rowTable_extended, reward_extended]
  rfl

end Built

/-! ## What the model says of a cell -/

theorem mem_terminals_iff {state : Ident} : state ∈ grid.exact.terminals ↔
    ∃ cell ∈ grid.terminalRewards.map Prod.fst, grid.number cell = state := by
  change state ∈ grid.rewards.keys ↔ _
  rw [rewards, Table.mem_keys_ofPairs, List.map_map]
  simp only [List.mem_map, Function.comp_apply, exists_exists_and_eq_and]

theorem mem_openCells_iff : cell ∈ grid.openCells ↔
    cell ∈ grid.freeCells ∧ grid.number cell ∉ grid.exact.terminals := by
  have terminal : grid.rewards.contains (grid.number cell) = true ↔
      grid.number cell ∈ grid.exact.terminals := grid.rewards.contains_iff _
  rw [openCells, List.mem_filter, Bool.not_eq_true', ← terminal, Bool.not_eq_true]

private theorem mem_openRows_iff {pair : (Ident × Ident) × Row F} : pair ∈ grid.openRows ↔
    ∃ cell ∈ grid.openCells, ∃ direction : Direction,
      ((grid.number cell, direction.action), grid.exactRow cell direction) = pair := by
  simp only [openRows, List.mem_flatMap, List.mem_map, Direction.mem_all, true_and]

theorem legal_terminal {state : Ident} (terminal : state ∈ grid.exact.terminals) :
    grid.exact.legal state = [.blank] := by
  have absent : state ∉ grid.openActions.map Prod.fst := by
    rw [openActions, List.map_map, List.mem_map]
    rintro ⟨cell, listed, rfl⟩
    exact (mem_openCells_iff.mp listed).2 terminal
  have written : (absorbingActions grid.rewards.keys .blank).get? state = some [.blank] := by
    rw [absorbingActions, Table.get?_ofKeys]
    exact if_pos terminal
  rw [Model.legal, exact, Table.get?_insertAll_of_not_mem _ absent, written, Option.getD_some]

theorem legal_open (listed : cell ∈ grid.openCells) :
    grid.exact.legal (grid.number cell) = Direction.all.map Direction.action := by
  have named : grid.number cell ∈ grid.openActions.map Prod.fst := by
    rw [openActions, List.map_map]
    exact List.mem_map_of_mem listed
  have single : ∀ pair ∈ grid.openActions, pair.1 = grid.number cell →
      pair.2 = Direction.all.map Direction.action := by
    intro pair member _
    obtain ⟨_, -, rfl⟩ := List.mem_map.mp member
    rfl
  rw [Model.legal, exact, Table.get?_insertAll_of_mem _ named single, Option.getD_some]

theorem row_terminal {state : Ident} (terminal : state ∈ grid.exact.terminals) :
    grid.exact.rowTable.get? (state, .blank) = some (.ofPairs [(state, 1)]) := by
  have absent : (state, Ident.blank) ∉ grid.openRows.map Prod.fst := by
    rw [List.mem_map]
    rintro ⟨pair, listed, same⟩
    obtain ⟨cell, opened, direction, rfl⟩ := mem_openRows_iff.mp listed
    obtain ⟨rfl, -⟩ := Prod.mk.inj same
    exact (mem_openCells_iff.mp opened).2 terminal
  rw [exact, Table.get?_insertAll_of_not_mem _ absent]
  refine Table.get?_insertAll_of_mem _ ?_ ?_
  · rw [List.map_map]
    exact List.mem_map_of_mem terminal
  · intro pair member same
    obtain ⟨_, -, rfl⟩ := List.mem_map.mp member
    obtain ⟨rfl, -⟩ := Prod.mk.inj same
    rfl

theorem row_open (listed : cell ∈ grid.openCells) (direction : Direction) :
    grid.exact.rowTable.get? (grid.number cell, direction.action) =
      some (grid.exactRow cell direction) := by
  have named : (grid.number cell, direction.action) ∈ grid.openRows.map Prod.fst :=
    List.mem_map_of_mem (mem_openRows_iff.mpr ⟨cell, listed, direction, rfl⟩)
  refine Table.get?_insertAll_of_mem _ named ?_
  intro pair member same
  obtain ⟨other, opened, way, rfl⟩ := mem_openRows_iff.mp member
  obtain ⟨sameCell, sameWay⟩ := Prod.mk.inj same
  rw [(number_inj (mem_openCells_iff.mp opened).1).mp sameCell, Direction.action_inj.mp sameWay]

private theorem absorbs_terminal {state : Ident} (terminal : state ∈ grid.exact.terminals) :
    grid.exact.Absorbs state where
  legal_eq := legal_terminal terminal
  row_eq := row_terminal terminal
  free := if_pos ((grid.rewards.contains_iff state).mpr terminal)

private theorem exists_exact_row {state action : Ident} (member : state ∈ grid.exact.states)
    (legal : action ∈ grid.exact.legal state) :
    ∃ row, grid.exact.rowTable.get? (state, action) = some row := by
  obtain ⟨cell, free, rfl⟩ := List.mem_map.mp member
  by_cases terminal : grid.number cell ∈ grid.exact.terminals
  · rw [legal_terminal terminal, List.mem_singleton] at legal
    subst legal
    exact ⟨_, row_terminal terminal⟩
  · have opened : cell ∈ grid.openCells := mem_openCells_iff.mpr ⟨free, terminal⟩
    rw [legal_open opened] at legal
    obtain ⟨direction, -, rfl⟩ := List.mem_map.mp legal
    exact ⟨_, row_open opened direction⟩

theorem exact_active : ∀ state ∈ grid.exact.states, grid.exact.legal state ≠ [] := by
  intro state member
  obtain ⟨cell, free, rfl⟩ := List.mem_map.mp member
  by_cases terminal : grid.number cell ∈ grid.exact.terminals
  · rw [legal_terminal terminal]
    exact List.cons_ne_nil _ _
  · rw [legal_open (mem_openCells_iff.mpr ⟨free, terminal⟩)]
    exact List.cons_ne_nil _ _

theorem OnFree.stochastic {row : Row F} (fine : grid.OnFree row) (mass : row.mass = 1) :
    row.Stochastic grid.exact.states where
  nonneg entry listed := (fine entry listed).1.le
  known entry listed _ := by
    obtain ⟨-, landed, free, named⟩ := fine entry listed
    rw [named]
    exact List.mem_map_of_mem free
  mass_eq := mass

/-! ## Validity -/

section Valid

variable [IsStrictOrderedRing F]

namespace Admitted

variable (admitted : grid.Admitted)

include admitted

private theorem rows_fine : ∀ entry ∈ grid.exact.rowTable.entries,
    entry.2.mass = 1 ∧ grid.OnFree entry.2 := by
  refine Table.forall_entries_insertAll (Table.forall_entries_insertAll ?_ ?_) ?_
  · exact fun _ absent => nomatch absent
  · intro pair member
    obtain ⟨state, terminal, rfl⟩ := List.mem_map.mp member
    obtain ⟨cell, listed, named⟩ := mem_terminals_iff.mp terminal
    refine ⟨List.sum_singleton, fun entry single => ?_⟩
    cases List.mem_singleton.mp single
    exact ⟨one_pos, cell, admitted.terminals cell listed, named.symm⟩
  · intro pair member
    obtain ⟨cell, opened, direction, rfl⟩ := mem_openRows_iff.mp member
    exact ⟨mass_exactRow, admitted.onFree_exactRow (mem_openCells_iff.mp opened).1⟩

theorem stochastic : grid.exact.Stochastic := by
  intro state member action legal
  obtain ⟨row, found⟩ := exists_exact_row member legal
  obtain ⟨mass, fine⟩ :=
    admitted.rows_fine _ ((grid.exact.rowTable.get?_eq_some_iff _ _).mp found)
  exact ⟨row, found, fine.stochastic mass⟩

theorem accepted : grid.exact.Accepted := admitted.stochastic.accepted exact_active

theorem valid : grid.exact.Valid where
  initial := List.mem_map_of_mem admitted.start
  accepted := admitted.accepted
  idles _ _ terminal := (absorbs_terminal (of_decide_eq_true terminal)).idles

end Admitted

/-- Every accepted grid has a model, which is valid: its rows have mass one, with positive entries on
free cells only, its terminal states are those of the terminal cells, and they absorb without
reward. -/
theorem model_valid (grid : Grid F) (planar : grid.Planar)
    (accepted : grid.extended.check = .ok grid.extended) :
    ∃ model : Model F, grid.extended.model = .ok model.extended ∧
      (∀ entry ∈ model.rowTable.entries, entry.2.mass = 1 ∧
        ∀ successor ∈ entry.2.entries, 0 < successor.2 ∧
          ∃ cell ∈ grid.freeCells, grid.extended.stateAt cell = .ok successor.1) ∧
      (∀ cell ∈ grid.terminalRewards.map Prod.fst, ∃ state,
        grid.extended.stateAt cell = .ok state ∧ model.Absorbs state ∧
          ∀ action successor, model.reward state action successor = 0) ∧
      (∀ state, state ∈ model.terminals ↔
        ∃ cell ∈ grid.terminalRewards.map Prod.fst, grid.extended.stateAt cell = .ok state) ∧
      model.extended.validate.result model.extended = .ok () := by
  have admitted := (check_extended_iff planar).mp accepted
  have numbered : ∀ {cell}, cell ∈ grid.freeCells →
      grid.extended.stateAt cell = .ok (grid.number cell) := fun free => stateAt_eq_ok free
  refine ⟨grid.exact, admitted.model_extended, fun entry listed => ?_, fun cell listed => ?_,
    fun state => ?_, Model.result_validate_iff.mpr admitted.valid⟩
  · obtain ⟨mass, fine⟩ := admitted.rows_fine entry listed
    refine ⟨mass, fun successor member => ?_⟩
    obtain ⟨positive, cell, free, named⟩ := fine successor member
    exact ⟨positive, cell, free, named ▸ numbered free⟩
  · have terminal : grid.number cell ∈ grid.exact.terminals :=
      mem_terminals_iff.mpr ⟨cell, listed, rfl⟩
    exact ⟨_, numbered (admitted.terminals cell listed), absorbs_terminal terminal,
      fun _ _ => if_pos ((grid.rewards.contains_iff _).mpr terminal)⟩
  · rw [mem_terminals_iff]
    refine exists_congr fun cell => and_congr_right fun listed => ?_
    rw [numbered (admitted.terminals cell listed), Except.ok.injEq]

end Valid

end Grid

/-! ## A small grid -/

/-- Three columns and two rows. One wall is listed twice and another lies outside; the start is
terminal, and the other terminal cell is listed with two rewards. -/
def nook : Grid ℚ where
  width := 3
  height := 2
  walls := [.place 1 1, .place 1 1, .place 4 (-1)]
  terminalRewards := [(.place 2 1, 1), (.place 0 0, -1), (.place 2 1, 2)]
  start := .place 0 0
  stepReward := -1 / 25
  intendedProbability := 4 / 5
  discount := 9 / 10

theorem nook_planar : nook.Planar := by
  simp only [Grid.Planar, nook, List.map_cons, List.map_nil, List.forall_mem_cons]
  exact ⟨⟨_, _, rfl⟩, ⟨_, _, rfl⟩, ⟨_, _, rfl⟩, ⟨_, _, rfl⟩, fun _ absent => absurd absent List.not_mem_nil⟩

theorem nook_accepted : nook.extended.check = .ok nook.extended :=
  (Grid.check_extended_iff nook_planar).mpr
    ⟨by decide, by decide, by decide +kernel, by decide +kernel, by decide, by decide⟩

theorem Grid.model_valid_nook :
    (nook.Planar ∧ nook.extended.check = .ok nook.extended) ∧
    ∃ model : Model ℚ, nook.extended.model = .ok model.extended ∧
      (∀ entry ∈ model.rowTable.entries, entry.2.mass = 1) ∧
      model.extended.validate.result model.extended = .ok () := by
  obtain ⟨model, built, rows, -, -, validated⟩ := nook.model_valid nook_planar nook_accepted
  exact ⟨⟨nook_planar, nook_accepted⟩, model, built, fun entry listed => (rows entry listed).1,
    validated⟩

end MarkovDecision
