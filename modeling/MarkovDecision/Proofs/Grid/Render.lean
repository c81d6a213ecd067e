import Mathlib.Algebra.BigOperators.Group.List.Basic
import MarkovDecision.Grid.Render
import MarkovDecision.Proofs.Decimal.Places
import MarkovDecision.Proofs.Grid.Numbering
import MarkovDecision.Proofs.Policy
import MarkovDecision.Proofs.Ready

/-!
# Alignment of pictures

A picture has a line for every row of cells, from the top down, and in it every cell takes seven
characters, or as many as its text has if these are more. So a line is aligned, cell by cell, as long
as all texts of its row fit, and a text that does not fit shifts the rest of the row. Moves and walls
always fit; utilities fit below a thousand and above minus a hundred, up to rounding.
-/

set_option autoImplicit false

namespace MarkovDecision

/-! ## Texts in fields -/

namespace Text

/-- A text between blanks, about as many on the left as on the right. -/
def Centred (width : Nat) (text : String) (field : List Char) : Prop :=
  ∃ left right, field = List.replicate left ' ' ++ text.toList ++ List.replicate right ' ' ∧
    left + right = width - text.length ∧ left ≤ right + 1 ∧ right ≤ left + 1

private theorem center_centred (width : Nat) (text : String) :
    Centred width text (center width text).toList := by
  have spare : (width - text.length) % 2 * (width % 2) ≤ (width - text.length) % 2 :=
    mul_le_of_le_one_right (Nat.zero_le _) (Nat.le_of_lt_succ (Nat.mod_lt width Nat.two_pos))
  rw [center, String.toList_ofList]
  generalize (width - text.length) % 2 * (width % 2) = odd at spare ⊢
  exact ⟨_, _, rfl, by omega, by omega, by omega⟩

private theorem length_center (width : Nat) (text : String) :
    (center width text).length = max width text.length := by
  obtain ⟨left, right, field, blanks, -, -⟩ := center_centred width text
  rw [← String.length_toList, field]
  simp only [List.length_append, List.length_replicate, String.length_toList]
  omega

end Text

namespace Grid

variable {K : Type} {grid : Grid K}

/-! ## Lines -/

/-- Where the text of a column begins in the line of its row. -/
def offset (text : Cell → String) (row : Int) (column : Nat) : Nat :=
  ((List.range column).map fun earlier : Nat =>
    max columnWidth (text (.place earlier row)).length).sum

/-- The texts of a row that fit into their columns. -/
def Fits (grid : Grid K) (text : Cell → String) (row : Int) : Prop :=
  ∀ column : Nat, column < grid.width → (text (.place column row)).length ≤ columnWidth

/-- The line of a row. Every text is in the middle of its own field. The line has the length that is
meant for it exactly if all texts fit, and then the fields are the columns. -/
structure Shows (grid : Grid K) (text : Cell → String) (row : Int) (line : String) : Prop where
  placed : ∀ column : Nat, column < grid.width → Text.Centred columnWidth (text (.place column row))
    ((line.toList.drop (offset text row column)).take
      (max columnWidth (text (.place column row)).length))
  aligned_iff : line.length = columnWidth * grid.width ↔ grid.Fits text row
  aligned : grid.Fits text row → ∀ column : Nat, column < grid.width →
    Text.Centred columnWidth (text (.place column row))
      ((line.toList.drop (columnWidth * column)).take columnWidth)

structure Draws (grid : Grid K) (text : Cell → String) (lines : List String) : Prop where
  height : lines.length = grid.height
  row : ∀ row, 0 ≤ row → row < grid.height →
    ∃ line, lines[(grid.height - 1 - row).toNat]? = some line ∧ grid.Shows text row line

section Lines

variable {text : Cell → String} {row : Int}

private theorem offset_succ (column : Nat) : offset text row (column + 1) =
    offset text row column + max columnWidth (text (.place column row)).length := by
  simp [offset, List.range_succ]

/-- Fields are at least as wide as columns, and texts that fit add nothing. -/
private theorem offset_eq_iff (count : Nat) : columnWidth * count ≤ offset text row count ∧
    (offset text row count = columnWidth * count ↔
      ∀ column < count, (text (.place column row)).length ≤ columnWidth) := by
  induction count with
  | zero => simp [offset]
  | succ count ih =>
      obtain ⟨least, exact⟩ := ih
      rw [offset_succ, Nat.forall_lt_succ_right, ← exact, Nat.mul_succ]
      omega

/-- The line of a row. -/
def line (grid : Grid K) (text : Cell → String) (row : Int) : String :=
  String.join (grid.columns.map fun column => Text.center columnWidth (text (.place column row)))

/-- The fields of a row, one after the other. -/
def fields (grid : Grid K) (text : Cell → String) (row : Int) : List (List Char) :=
  (List.range grid.width.toNat).map fun column : Nat =>
    (Text.center columnWidth (text (.place column row))).toList

private theorem toList_line : (grid.line text row).toList = (grid.fields text row).flatten := by
  simp [line, fields, columns, String.toList_join, List.flatMap_def, Function.comp_def]

private theorem sum_take_fields {column : Nat} (inside : column ≤ grid.width.toNat) :
    (((grid.fields text row).map List.length).take column).sum = offset text row column := by
  simp only [fields, offset, List.map_map, Function.comp_def, String.length_toList,
    Text.length_center, ← List.map_take, List.take_range, Nat.min_eq_left inside]

private theorem length_line : (grid.line text row).length = offset text row grid.width.toNat := by
  have whole : grid.width.toNat = ((grid.fields text row).map List.length).length := by
    simp [fields]
  rw [← sum_take_fields le_rfl, ← String.length_toList, toList_line, List.length_flatten]
  conv_rhs => rw [whole, List.take_length]

private theorem field_line {column : Nat} (inside : column < grid.width.toNat) :
    ((grid.line text row).toList.drop (offset text row column)).take
        (max columnWidth (text (.place column row)).length) =
      (Text.center columnWidth (text (.place column row))).toList := by
  have listed : column < (grid.fields text row).length := by simpa [fields] using inside
  rw [← Text.length_center, ← String.length_toList, ← sum_take_fields inside.le, toList_line,
    List.drop_sum_flatten, List.drop_eq_getElem_cons listed, List.flatten_cons]
  simp [fields]

private theorem shows_line (nonneg : 0 ≤ grid.width) :
    grid.Shows text row (grid.line text row) := by
  have fits : grid.Fits text row ↔
      ∀ column < grid.width.toNat, (text (.place column row)).length ≤ columnWidth :=
    forall_congr' fun column => imp_congr_left (by omega)
  have placed : ∀ column : Nat, column < grid.width →
      Text.Centred columnWidth (text (.place column row))
        (((grid.line text row).toList.drop (offset text row column)).take
          (max columnWidth (text (.place column row)).length)) := by
    intro column inside
    rw [field_line (by omega)]
    exact Text.center_centred _ _
  refine ⟨placed, ?_, fun fit column inside => ?_⟩
  · have meant : (columnWidth * grid.width : Int) = (columnWidth * grid.width.toNat : Nat) := by
      rw [Nat.cast_mul, Int.toNat_of_nonneg nonneg]
    rw [fits, ← (offset_eq_iff grid.width.toNat).2, length_line, meant, Int.natCast_inj]
  · have start : offset text row column = columnWidth * column :=
      (offset_eq_iff column).2.mpr fun earlier before => fit earlier (by omega)
    have here := placed column inside
    rwa [start, Nat.max_eq_left (fit column inside)] at here

end Lines

/-! ## Pictures -/

private theorem render_eq_ok {shown : Cell → Except (Fault K) String} {text : Cell → String}
    (wall : ∀ cell ∈ grid.walls, text cell = "#")
    (free : ∀ cell ∈ grid.freeCells, shown cell = .ok (text cell)) :
    grid.render shown = .ok (grid.rows.reverse.map (grid.line text)) := by
  apply mapM_eq_ok
  intro row inRows
  rw [List.mem_reverse] at inRows
  have texts : (grid.columns.mapM fun column => grid.cellText shown (.place column row)) =
      .ok (grid.columns.map fun column => Text.center columnWidth (text (.place column row))) := by
    apply mapM_eq_ok
    intro column inColumns
    have inside : grid.spans column row = true :=
      spans_iff.mpr ⟨mem_range_iff.mp inColumns, mem_range_iff.mp inRows⟩
    rw [cellText]
    split
    · next blocked => rw [wall _ (of_decide_eq_true blocked), pure_eq_ok]
    · next clear =>
        rw [Bool.not_eq_true, isWall_eq_false_iff] at clear
        rw [free _ (place_mem_freeCells.mpr ⟨inside, clear⟩), ok_bind, pure_eq_ok]
  rw [texts, ok_bind, pure_eq_ok, line]

private theorem draws_lines (width : 0 ≤ grid.width) (height : 0 ≤ grid.height)
    (text : Cell → String) :
    grid.Draws text (grid.rows.reverse.map (grid.line text)) where
  height := by
    simp [rows, height]
  row row nonneg below := by
    refine ⟨grid.line text row, ?_, shows_line width⟩
    have place : (grid.height - 1 - row).toNat < grid.height.toNat := by omega
    have mirrored : grid.height.toNat - 1 - (grid.height - 1 - row).toNat = row.toNat := by omega
    simp [rows, place, mirrored, nonneg]

/-- A picture is drawn if every free cell has a text. -/
theorem exists_drawing (width : 0 ≤ grid.width) (height : 0 ≤ grid.height)
    {shown : Cell → Except (Fault K) String}
    (shows : ∀ cell ∈ grid.freeCells, ∃ text, shown cell = .ok text) :
    ∃ lines text, grid.render shown = .ok lines ∧ grid.Draws text lines ∧
      (∀ cell ∈ grid.walls, text cell = "#") ∧
      ∀ cell ∈ grid.freeCells, shown cell = .ok (text cell) := by
  choose! label labelled using shows
  let text cell := if cell ∈ grid.walls then "#" else label cell
  have wall : ∀ cell ∈ grid.walls, text cell = "#" := fun cell listed => if_pos listed
  have free : ∀ cell ∈ grid.freeCells, shown cell = .ok (text cell) := by
    intro cell known
    obtain ⟨-, -, -, -, clear⟩ := mem_freeCells.mp known
    rw [labelled cell known]
    exact congrArg Except.ok (if_neg clear).symm
  exact ⟨_, text, render_eq_ok wall free, draws_lines width height text, wall, free⟩

private theorem terminalReward?_eq_none {cell : Cell}
    (interior : grid.terminalReward? cell = none) :
    cell ∉ grid.terminalRewards.map Prod.fst := by
  rw [terminalReward?, Option.map_eq_none_iff, List.find?_eq_none] at interior
  intro listed
  obtain ⟨entry, member, rfl⟩ := List.mem_map.mp listed
  exact interior entry (List.mem_reverse.mpr member) (decide_eq_true rfl)

/-- The texts of a picture of utilities. A number fits if it rounds to three digits before the point,
or to two behind a minus sign. -/
structure UtilityTexts (grid : Grid Float) (utility : Utility Float) (text : Cell → String) :
    Prop where
  wall : ∀ cell ∈ grid.walls, text cell = "#"
  free : ∀ cell, grid.Free cell → ∃ state value, grid.stateAt cell = .ok state ∧
    utility.get? state = some value ∧ text cell = Decimal.fixed 3 value ∧
    ∀ number, (Decimal.Reading.ofFloat value).exact = some number →
      ((text cell).length ≤ columnWidth ↔ -(199999 / 2000) < number ∧ number < 1999999 / 2000)

structure PolicyTexts (grid : Grid Float) (policy : Policy) (text : Cell → String) : Prop where
  wall : ∀ cell ∈ grid.walls, text cell = "#"
  terminal : ∀ cell, grid.Free cell → ∀ reward, grid.terminalReward? cell = some reward →
    text cell = Decimal.general 6 true reward
  move : ∀ cell, grid.Free cell → grid.terminalReward? cell = none → ∃ state direction,
    grid.stateAt cell = .ok state ∧ policy.get? state = some (Direction.action direction) ∧
    sign? direction.action = some (text cell) ∧ (text cell).length = 1

private theorem exists_sign (direction : Direction) :
    ∃ sign, sign? direction.action = some sign ∧ sign.length = 1 := by
  cases direction <;> exact ⟨_, rfl, rfl⟩

section Texts

variable {grid : Grid Float} {model : Model Float} {cell : Cell}

private theorem utilityText_eq_ok (free : cell ∈ grid.freeCells) {utility : Utility Float}
    {value : Float} (found : utility.get? (grid.number cell) = some value) :
    grid.utilityText utility cell = .ok (Decimal.fixed 3 value) := by
  rw [utilityText, stateAt_eq_ok free, ok_bind, Table.demand_eq_ok found, ok_bind, pure_eq_ok]

private theorem policyText_terminal {reward : Float}
    (ends : grid.terminalReward? cell = some reward)
    (policy : Policy) : grid.policyText policy cell = .ok (Decimal.general 6 true reward) := by
  rw [policyText, ends]

private theorem policyText_move (free : cell ∈ grid.freeCells)
    (interior : grid.terminalReward? cell = none)
    {policy : Policy} {direction : Direction} {sign : String}
    (chosen : policy.get? (grid.number cell) = some direction.action)
    (signed : sign? direction.action = some sign) : grid.policyText policy cell = .ok sign := by
  simp only [policyText, interior, stateAt_eq_ok free, ok_bind, Table.demand_eq_ok chosen, signed,
    pure_eq_ok]

private theorem exists_utility (built : grid.model = .ok model) {utility : Utility Float}
    (covers : Utility.Covers utility model.states) (free : cell ∈ grid.freeCells) :
    ∃ value, utility.get? (grid.number cell) = some value := by
  have listed := covers _ (number_mem_states built free)
  exact Option.isSome_iff_exists.mp ((utility.get?_isSome_iff _).mpr listed)

private theorem exists_move (built : grid.model = .ok model) {policy : Policy}
    (legal : model.LegalPolicy policy) (free : cell ∈ grid.freeCells)
    (interior : grid.terminalReward? cell = none) :
    ∃ direction, policy.get? (grid.number cell) = some (Direction.action direction) := by
  obtain ⟨action, allowed, chosen⟩ := legal _ (number_mem_states built free)
  rw [legal_of_model built free (terminalReward?_eq_none interior)] at allowed
  obtain ⟨direction, -, rfl⟩ := List.mem_map.mp allowed
  exact ⟨direction, chosen⟩

private theorem exists_utilityPicture (width : 0 ≤ grid.width) (height : 0 ≤ grid.height)
    (built : grid.model = .ok model) {utility : Utility Float}
    (covers : Utility.Covers utility model.states) : ∃ lines text,
    grid.renderUtilities utility = .ok lines ∧ grid.Draws text lines ∧
      grid.UtilityTexts utility text := by
  have shows : ∀ cell ∈ grid.freeCells, ∃ text, grid.utilityText utility cell = .ok text := by
    intro cell free
    obtain ⟨value, found⟩ := exists_utility built covers free
    exact ⟨_, utilityText_eq_ok free found⟩
  obtain ⟨lines, text, rendered, drawn, wall, texts⟩ := exists_drawing width height shows
  refine ⟨lines, text, rendered, drawn, wall, fun cell inside => ?_⟩
  have free := mem_freeCells_iff_free.mpr inside
  obtain ⟨value, found⟩ := exists_utility built covers free
  have same : text cell = Decimal.fixed 3 value :=
    Except.ok.inj ((texts cell free).symm.trans (utilityText_eq_ok free found))
  refine ⟨_, value, stateAt_eq_ok free, found, same, fun number exact => ?_⟩
  rw [same]
  exact Decimal.length_fixed_three_le_iff exact

private theorem exists_policyPicture (width : 0 ≤ grid.width) (height : 0 ≤ grid.height)
    (built : grid.model = .ok model) {policy : Policy} (legal : model.LegalPolicy policy) :
    ∃ lines text, grid.renderPolicy policy = .ok lines ∧ grid.Draws text lines ∧
      grid.PolicyTexts policy text := by
  have shows : ∀ cell ∈ grid.freeCells, ∃ text, grid.policyText policy cell = .ok text := by
    intro cell free
    cases ends : grid.terminalReward? cell with
    | some reward => exact ⟨_, policyText_terminal ends policy⟩
    | none =>
        obtain ⟨direction, chosen⟩ := exists_move built legal free ends
        obtain ⟨sign, signed, -⟩ := exists_sign direction
        exact ⟨sign, policyText_move free ends chosen signed⟩
  obtain ⟨lines, text, rendered, drawn, wall, texts⟩ := exists_drawing width height shows
  refine ⟨lines, text, rendered, drawn, wall, fun cell inside reward ends => ?_,
    fun cell inside interior => ?_⟩
  · have here := texts cell (mem_freeCells_iff_free.mpr inside)
    exact Except.ok.inj (here.symm.trans (policyText_terminal ends policy))
  · have free := mem_freeCells_iff_free.mpr inside
    obtain ⟨direction, chosen⟩ := exists_move built legal free interior
    obtain ⟨sign, signed, single⟩ := exists_sign direction
    have same : text cell = sign :=
      Except.ok.inj ((texts cell free).symm.trans (policyText_move free interior chosen signed))
    rw [same]
    exact ⟨_, direction, stateAt_eq_ok free, chosen, signed, single⟩

end Texts

/-- Both pictures of an accepted grid are drawn, and a line of them is aligned exactly if the texts of
its row fit into their columns. -/
theorem pictures_aligned (grid : Grid Float) (planar : grid.Planar)
    (accepted : grid.check = .ok grid) :
    ∃ model, grid.model = .ok model ∧
      (∀ utility : Utility Float, Utility.Covers utility model.states → ∃ lines text,
        grid.renderUtilities utility = .ok lines ∧ grid.Draws text lines ∧
          grid.UtilityTexts utility text) ∧
      ∀ policy, model.checkPolicy policy = .ok () → ∃ lines text,
        grid.renderPolicy policy = .ok lines ∧ grid.Draws text lines ∧
          grid.PolicyTexts policy text := by
  obtain ⟨⟨wide, high⟩, -, cells⟩ := (check_eq_ok_iff planar).mp accepted
  obtain ⟨start, terminals⟩ := List.forall_mem_cons.mp cells
  obtain ⟨model, built⟩ := exists_model start terminals
  have width : 0 ≤ grid.width := by omega
  have height : 0 ≤ grid.height := by omega
  exact ⟨model, built, fun utility covers => exists_utilityPicture width height built covers,
    fun policy checked =>
      exists_policyPicture width height built (Model.checkPolicy_eq_ok_iff.mp checked)⟩

end Grid

/-! ## A ledge -/

/-- Three columns and two rows, with a wall in the middle of the bottom row and a terminal cell in the
upper right corner. -/
def ledge : Grid Float where
  width := 3
  height := 2
  walls := [.place 1 0]
  terminalRewards := [(.place 2 1, 1.5)]
  start := .place 0 0
  stepReward := -0.5
  intendedProbability := 1
  discount := 0.5

/-- Utilities on the ledge, of which the first is too long for its column. -/
def ledgeUtility : Utility Float :=
  .ofPairs [(.int 0, 1000), (.int 1, 0.5), (.int 2, -99), (.int 3, 12.25), (.int 4, 0)]

def ledgePolicy : Policy :=
  .ofPairs [(.int 0, .text "Up"), (.int 1, .text "Up"), (.int 2, .text "Right"),
    (.int 3, .text "Right"), (.int 4, .blank)]

private theorem ledge_planar : ledge.Planar := by
  intro cell listed
  have places : cell = .place 0 0 ∨ cell = .place 2 1 := by simpa [ledge] using listed
  rcases places with rfl | rfl
  · exact ⟨0, 0, rfl⟩
  · exact ⟨2, 1, rfl⟩

private theorem ledge_accepted : ledge.check = .ok ledge := by
  rw [Grid.check_eq_ok_iff ledge_planar]
  decide +kernel

private theorem ledge_states {model : Model Float} (built : ledge.model = .ok model) :
    model.states = [.int 0, .int 1, .int 2, .int 3, .int 4] := by
  rw [(Grid.states_of_model built).1]
  decide +kernel

private theorem ledgePolicy_legal {model : Model Float} (built : ledge.model = .ok model) :
    model.checkPolicy ledgePolicy = .ok () := by
  have legal : ∀ model ∈ ledge.model.toOption, model.LegalPolicy ledgePolicy := by
    decide +kernel
  exact Model.checkPolicy_eq_ok_iff.mpr (legal model (by rw [built]; rfl))

/-- On the ledge every move fits, so the lines of a policy have 21 characters. -/
theorem Grid.pictures_aligned_ledge :
    (ledge.Planar ∧ ledge.check = .ok ledge) ∧
    ∃ model, ledge.model = .ok model ∧ Utility.Covers ledgeUtility model.states ∧
      model.checkPolicy ledgePolicy = .ok () ∧
      (∃ lines text, ledge.renderUtilities ledgeUtility = .ok lines ∧ ledge.Draws text lines ∧
        ledge.UtilityTexts ledgeUtility text) ∧
      ∃ lines text, ledge.renderPolicy ledgePolicy = .ok lines ∧ ledge.Draws text lines ∧
        ledge.PolicyTexts ledgePolicy text := by
  obtain ⟨model, built, utilities, policies⟩ :=
    Grid.pictures_aligned ledge ledge_planar ledge_accepted
  have covers : Utility.Covers ledgeUtility model.states := by
    rw [ledge_states built]
    unfold Utility.Covers
    decide +kernel
  have legal := ledgePolicy_legal built
  exact ⟨⟨ledge_planar, ledge_accepted⟩, model, built, covers, legal, utilities _ covers,
    policies _ legal⟩

/-- A utility of a thousand has eight characters, so the lower line has 22 instead of 21, and what
follows stands one character further to the right than in the upper line. -/
theorem Grid.renderUtilities_shifts_ledge :
    ledge.Planar ∧ ledge.check = .ok ledge ∧
    (∃ model, ledge.model = .ok model ∧ Utility.Covers ledgeUtility model.states) ∧
    (∀ value ∈ ledgeUtility.values, (Decimal.Reading.ofFloat value).exact.isSome = true) ∧
    ledge.renderUtilities ledgeUtility = .ok ["-99.000 12.250 0.000 ", "1000.000   #    0.500 "] ∧
    "1000.000   #    0.500 ".length ≠ 7 * 3 := by
  have start : ledge.start ∈ ledge.freeCells := by decide +kernel
  have terminals : ∀ cell ∈ ledge.terminalRewards.map Prod.fst, cell ∈ ledge.freeCells := by
    decide +kernel
  obtain ⟨model, built⟩ := Grid.exists_model start terminals
  have covers : Utility.Covers ledgeUtility model.states := by
    rw [ledge_states built]
    unfold Utility.Covers
    decide +kernel
  have drawn : (ledge.renderUtilities ledgeUtility).toOption =
      some ["-99.000 12.250 0.000 ", "1000.000   #    0.500 "] := by
    decide +kernel
  refine ⟨ledge_planar, ledge_accepted, ⟨model, built, covers⟩, by decide +kernel, ?_, by decide⟩
  cases rendered : ledge.renderUtilities ledgeUtility with
  | ok lines =>
      rw [rendered] at drawn
      exact congrArg Except.ok (Option.some.inj drawn)
  | error fault =>
      rw [rendered] at drawn
      cases drawn

end MarkovDecision
