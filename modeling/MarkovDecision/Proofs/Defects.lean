import MarkovDecision.Model.Validation
import MarkovDecision.Proofs.Lookup
import MarkovDecision.Proofs.Ready

/-!
# The first defect of a model

Reading the states in order, and the actions of each state in order, one may come to a state without
actions, to a missing row or to a row that is rejected. Sweeps and validation are two programs that
read in this order, so both stop at the first defect, and neither has noted anything before. A sweep
that comes through has seen every row, and no later sweep finds anything wrong: an entry that passes
its check and that a sum does not pass over is on a known state, as long as probabilities can be
compared with zero.
-/

set_option autoImplicit false

namespace MarkovDecision

/-! ## Numbers that compare with zero -/

section Numbers

variable {K : Type} [Scalar K]

/-- The number is below zero, zero or above zero. Only an undefined number is none of these. -/
def Scalar.Signed (number : K) : Prop :=
  Scalar.below number Scalar.zero = true ∨ Scalar.equal number Scalar.zero = true ∨
    Scalar.below Scalar.zero number = true

def Model.Numeric (model : Model K) : Prop :=
  ∀ key row, model.rowTable.get? key = some row → ∀ entry ∈ row.entries, Scalar.Signed entry.2

end Numbers

private theorem Float.zero_unpacked : (Scalar.zero : Float).toModel.unpack = .zero .positive := rfl

private theorem Float.below_eq (left right : Float) :
    Scalar.below left right = left.toModel.unpack.lt right.toModel.unpack := by
  change decide (decide (left.toModel.unpack.lt right.toModel.unpack = true) = true) = _
  rw [Bool.decide_eq_true, Bool.decide_eq_true]

theorem Float.signed {number : Float} (defined : number.isNaN = false) : Scalar.Signed number := by
  have equal : Scalar.equal number Scalar.zero =
      number.toModel.unpack.beq (Scalar.zero : Float).toModel.unpack := rfl
  rw [Scalar.Signed, Float.below_eq, Float.below_eq, equal, Float.zero_unpacked]
  change number.toModel.unpack.isNaN = false at defined
  cases unpacked : number.toModel.unpack with
  | notANumber =>
      rw [unpacked] at defined
      cases defined
  | infinity sign => cases sign <;> decide
  | zero sign => cases sign <;> decide
  | finite sign mantissa exponent positive =>
      cases sign with
      | negative => exact .inl rfl
      | positive => exact .inr (.inr rfl)

variable {K : Type} [Scalar K] {model : Model K}

private theorem Model.numeric_of_isNaN {model : Model Float}
    (defined : ∀ key row, model.rowTable.get? key = some row → ∀ entry ∈ row.entries,
      entry.2.isNaN = false) : model.Numeric :=
  fun key row listed entry member => Float.signed (defined key row listed entry member)

/-! ## Reading in order -/

/-- What is wrong with the row of an action, if anything: it is missing or rejected. -/
def Model.rowDefect? (model : Model K) (state action : Ident) : Option (Defect K) :=
  match model.row state action with
  | .error (.malformed defect) => some defect
  | _ => none

/-- The first thing that is wrong with the actions of a state and their rows. -/
def Model.stateDefect? (model : Model K) (state : Ident) : Option (Defect K) :=
  if model.legal state = [] then some (.noActions state)
  else (model.legal state).findSome? (model.rowDefect? state)

/-- The first thing that is wrong with the actions and rows of a model. -/
def Model.firstDefect? (model : Model K) : Option (Defect K) :=
  model.states.findSome? model.stateDefect?

/-- The terminal contract, as it is checked: the no-op alone is legal, it stays up to the tolerance,
and staying earns nothing. -/
structure Model.PassesAsTerminal (model : Model K) (state : Ident) : Prop where
  legal_eq : model.legal state = [model.noop]
  stays : ∀ row, model.rowTable.get? (state, model.noop) = some row →
    Scalar.below massTolerance (Scalar.abs ((row.get? state).getD Scalar.zero - Scalar.one)) = false
  free : Scalar.equal (model.reward state model.noop state) Scalar.zero = true

/-- The states that are read before one in which something is wrong. -/
def Model.statesBeforeDefect (model : Model K) : List Ident :=
  model.states.takeWhile fun state => (model.stateDefect? state).isNone

/-! ## Meeting a defect -/

namespace Inquiry

variable {Answer Result Item : Type}

/-- If there is a defect, the inquiry fails with it, and otherwise it answers with a property. -/
def Meets (inquiry : Inquiry K Answer) (model : Model K) (defect? : Option (Defect K))
    (holds : Answer → Prop) : Prop :=
  match defect? with
  | some defect => inquiry.result model = .error (.malformed defect)
  | none => inquiry.Gives model holds

variable {inquiry : Inquiry K Answer} {next : Answer → Inquiry K Result} {holds : Answer → Prop}
  {later : Result → Prop} {first? second? : Option (Defect K)}

/-- What comes after is met only if nothing has been met before. -/
theorem Meets.bind (meets : inquiry.Meets model first? holds)
    (follows : first? = none → ∀ answer, holds answer → (next answer).Meets model second? later) :
    (inquiry >>= next).Meets model (first?.or second?) later := by
  cases first? with
  | some defect =>
      have run : inquiry.result model = .error (.malformed defect) := meets
      change (inquiry >>= next).result model = _
      rw [result_bind, run, error_bind]
  | none =>
      obtain ⟨answer, run, held⟩ := meets
      have reached := follows rfl answer held
      rw [Option.none_or]
      cases second? with
      | some defect =>
          have stopped : (next answer).result model = .error (.malformed defect) := reached
          change (inquiry >>= next).result model = _
          rw [result_bind, run, ok_bind, stopped]
      | none =>
          have gives : inquiry.Gives model (· = answer) := ⟨answer, run, rfl⟩
          exact gives.bind fun _ same => same ▸ reached

private theorem Meets.bind_gives (meets : inquiry.Meets model first? holds)
    (follows : first? = none → ∀ answer, holds answer → (next answer).Gives model later) :
    (inquiry >>= next).Meets model first? later := by
  have bound : (inquiry >>= next).Meets model (first?.or none) later := meets.bind follows
  rwa [Option.or_none] at bound

theorem Meets.mapM {ask : Item → Inquiry K Answer} {defect? : Item → Option (Defect K)}
    {items : List Item} (each : ∀ item ∈ items, (ask item).Meets model (defect? item) fun _ => True) :
    (items.mapM ask).Meets model (items.findSome? defect?) fun _ => True := by
  induction items with
  | nil => exact Gives.pure trivial
  | cons item rest ih =>
      have others := ih fun other listed => each other (List.mem_cons_of_mem _ listed)
      rw [List.mapM_cons, findSome?_cons_or]
      refine (each item List.mem_cons_self).bind fun _ answer _ => ?_
      exact others.bind_gives fun _ answers _ => Gives.pure trivial

theorem Meets.forM {check : Item → Inquiry K PUnit} {defect? : Item → Option (Defect K)}
    {items : List Item} (each : ∀ item ∈ items, (check item).Meets model (defect? item) fun _ => True) :
    (items.forM check).Meets model (items.findSome? defect?) fun _ => True := by
  induction items with
  | nil => exact Gives.pure trivial
  | cons item rest ih =>
      have others := ih fun other listed => each other (List.mem_cons_of_mem _ listed)
      rw [findSome?_cons_or]
      exact (each item List.mem_cons_self).bind fun _ _ _ => others

theorem Meets.tabulate {Key Value : Type} [DecidableEq Key] {keys : List Key}
    {compute : Key → Inquiry K Value} {defect? : Key → Option (Defect K)}
    (each : ∀ key ∈ keys, (compute key).Meets model (defect? key) fun _ => True) :
    (tabulate keys compute).Meets model (keys.findSome? defect?) fun table =>
      ∀ key, key ∈ table.keys ↔ key ∈ keys := by
  cases found : keys.findSome? defect? with
  | none =>
      have clean := List.findSome?_eq_none_iff.mp found
      have computed : ∀ key ∈ keys, (compute key).Gives model fun _ => True := by
        intro key member
        have meets := each key member
        rwa [clean key member] at meets
      exact (gives_tabulate computed).mono fun _ made => made.1
  | some defect =>
      have paired : ∀ key ∈ keys, (do
          let value ← compute key
          return (key, value) : Inquiry K (Key × Value)).Meets model (defect? key) fun _ => True :=
        fun key member => (each key member).bind_gives fun _ value _ => Gives.pure trivial
      have pairs := Meets.mapM paired
      rw [found] at pairs
      have stopped : Inquiry.result model _ = .error (.malformed defect) := pairs
      change (MarkovDecision.tabulate keys compute).result model = _
      rw [MarkovDecision.tabulate, result_bind, stopped, error_bind]

end Inquiry

/-! ## One state -/

private theorem Model.meets_rowOf (model : Model K) (state action : Ident) :
    (Inquiry.rowOf state action).Meets model (model.rowDefect? state action) fun row =>
      model.row state action = .ok row := by
  unfold Model.rowDefect?
  cases run : model.row state action with
  | ok row => exact ⟨row, by rw [Inquiry.result_rowOf, run], rfl⟩
  | error fault =>
      obtain ⟨defect, rfl⟩ := Model.row_fault run
      change (Inquiry.rowOf state action).result model = _
      rw [Inquiry.result_rowOf, run]

/-- Whatever reads the actions of a state and then their rows in order meets the first defect of the
state. -/
private theorem Model.meets_actions_bind {Result : Type} {state : Ident}
    {next : List Ident → Inquiry K Result} {later : Result → Prop}
    (follows : model.legal state ≠ [] → (next (model.legal state)).Meets model
      ((model.legal state).findSome? (model.rowDefect? state)) later) :
    ((liftM (model.actions state) : Inquiry K (List Ident)) >>= next).Meets model
      (model.stateDefect? state) later := by
  unfold Model.stateDefect?
  split
  · next idle =>
      have refused : model.actions state = .error (.malformed (.noActions state)) := by
        cases run : model.actions state with
        | ok actions => exact absurd idle (Model.eq_legal_of_actions run).2
        | error fault =>
            unfold Model.actions at run
            split at run
            · cases run
            · exact run.symm
      change (_ >>= _ : Inquiry K Result).result model = _
      rw [Inquiry.result_bind, Inquiry.result_liftM, refused, error_bind]
  · next active =>
      rw [Model.actions_eq_ok active]
      exact follows active

/-! ## Rows that pass -/

section Sweeps

variable (numeric : model.Numeric)

include numeric

/-- The entries of a row that passes are on known states, except those that a sum passes over. -/
private theorem Model.Numeric.mem_states_of_weighed {state action : Ident} {row : Row K}
    (passed : model.row state action = .ok row) :
    ∀ entry ∈ row.entries, Scalar.equal entry.2 Scalar.zero = false → entry.1 ∈ model.states := by
  obtain ⟨written, raw, passed⟩ := bind_eq_ok_iff.mp passed
  obtain ⟨⟨⟩, checked, passed⟩ := bind_eq_ok_iff.mp passed
  cases passed
  intro entry member weighed
  have signed : Scalar.Signed entry.2 := by
    unfold Model.rawRow at raw
    split at raw
    · next listed =>
        cases raw
        exact numeric _ _ listed entry member
    · cases raw
  obtain ⟨atLeast, admitted⟩ := (checkRow_eq_ok_iff.mp checked).1 entry member
  rcases signed with negative | zero | positive
  · rw [atLeast] at negative
    cases negative
  · rw [weighed] at zero
    cases zero
  · exact decide_eq_true_iff.mp (admitted positive)

/-! ## Sweeps -/

variable {utility : Utility K} (covers : Utility.Covers utility model.states)

include covers

private theorem Model.Numeric.meets_expectedValue (state action : Ident) :
    (model.expectedValue utility state action).Meets model (model.rowDefect? state action)
      fun _ => True := by
  refine (model.meets_rowOf state action).bind_gives fun _ row passed => ?_
  obtain ⟨sum, run⟩ := Model.accumulate_ok covers state action Scalar.zero
    (numeric.mem_states_of_weighed passed)
  exact .of_ok run trivial

private theorem Model.Numeric.meets_improveOver (state : Ident) (actions : List Ident)
    (incumbent : Ident × K) :
    (model.improveOver utility state actions incumbent).Meets model
      (actions.findSome? (model.rowDefect? state)) fun _ => True := by
  induction actions generalizing incumbent with
  | nil => exact Inquiry.Gives.pure trivial
  | cons action rest ih =>
      rw [findSome?_cons_or]
      exact (numeric.meets_expectedValue covers state action).bind fun _ value _ => ih _

private theorem Model.Numeric.meets_bestAction (state : Ident) :
    (model.bestAction utility state).Meets model (model.stateDefect? state) fun _ => True :=
  Model.meets_actions_bind fun _ => numeric.meets_improveOver covers state _ _

private theorem Model.Numeric.meets_sweep :
    (model.sweep utility).Meets model model.firstDefect? fun next =>
      ∀ state, state ∈ next.keys ↔ state ∈ model.states :=
  Inquiry.Meets.tabulate fun state _ =>
    (numeric.meets_bestAction covers state).bind_gives fun _ _ _ => .pure trivial

private theorem Model.Numeric.meets_greedyPolicy :
    (model.greedyPolicy utility).Meets model model.firstDefect? fun policy =>
      ∀ state, state ∈ policy.keys ↔ state ∈ model.states :=
  Inquiry.Meets.tabulate fun state _ =>
    (numeric.meets_bestAction covers state).bind_gives fun _ _ _ => .pure trivial

end Sweeps

/-- Without a defect nothing is ever met. -/
theorem Model.Numeric.sweepable (numeric : model.Numeric) (clean : model.firstDefect? = none) :
    model.Sweepable := by
  constructor
  · intro utility covers
    have meets := numeric.meets_sweep covers
    rwa [clean] at meets
  · intro utility covers
    have meets := numeric.meets_greedyPolicy covers
    rw [clean] at meets
    exact meets.mono fun _ _ => trivial

/-! ## Silence -/

section Silence

variable {Answer Result Item : Type}

theorem Inquiry.Silent.mapM {ask : Item → Inquiry K Answer} {items : List Item}
    (each : ∀ item, (ask item).Silent model) : (items.mapM ask).Silent model := by
  induction items with
  | nil => exact .pure _
  | cons item rest ih =>
      rw [List.mapM_cons]
      exact (each item).bind fun _ => ih.bind fun _ => .pure _

theorem Inquiry.Silent.forM {check : Item → Inquiry K PUnit} {items : List Item}
    (each : ∀ item, (check item).Silent model) : (items.forM check).Silent model := by
  induction items with
  | nil => exact .pure _
  | cons item rest ih => exact (each item).bind fun _ => ih

theorem Inquiry.Silent.tabulate {Key Value : Type} [DecidableEq Key] {keys : List Key}
    {compute : Key → Inquiry K Value} (each : ∀ key, (compute key).Silent model) :
    (MarkovDecision.tabulate keys compute).Silent model :=
  .bind (.mapM fun key => (each key).bind fun _ => .pure _) fun _ => .pure _

/-- An inquiry that has failed before noting anything fails so whatever was to come after it. -/
private theorem Inquiry.answer_bind_of_answer {inquiry : Inquiry K Answer} {fault : Fault K}
    (stopped : inquiry.answer model = ⟨.error fault, []⟩) (next : Answer → Inquiry K Result) :
    (inquiry >>= next).answer model = ⟨.error fault, []⟩ := by
  rw [Inquiry.answer_bind, stopped]

private theorem Model.expectedValue_silent (utility : Utility K) (state action : Ident) :
    (model.expectedValue utility state action).Silent model :=
  .bind (.rowOf _ _) fun _ => .liftM _

private theorem Model.improveOver_silent (utility : Utility K) (state : Ident)
    (actions : List Ident)
    (incumbent : Ident × K) : (model.improveOver utility state actions incumbent).Silent model := by
  induction actions generalizing incumbent with
  | nil => exact .pure _
  | cons action rest ih => exact .bind (model.expectedValue_silent utility state action) fun _ => ih _

private theorem Model.bestAction_silent (utility : Utility K) (state : Ident) :
    (model.bestAction utility state).Silent model :=
  .bind (.liftM _) fun _ => model.improveOver_silent utility state _ _

theorem Model.sweep_silent (utility : Utility K) : (model.sweep utility).Silent model :=
  .tabulate fun state => .bind (model.bestAction_silent utility state) fun _ => .pure _

theorem Model.greedyPolicy_silent (utility : Utility K) : (model.greedyPolicy utility).Silent model :=
  .tabulate fun state => .bind (model.bestAction_silent utility state) fun _ => .pure _

private theorem Model.checkAbsorbing_silent (state : Ident) :
    (model.checkAbsorbing state).Silent model := by
  refine .bind (.liftM _) fun actions => ?_
  split
  · exact .liftM (.error _)
  · refine .bind (.rowOf _ _) fun row => ?_
    dsimp only
    split
    · exact .liftM (.error _)
    · split
      · exact .pure _
      · exact .liftM (.error _)

private theorem Model.validate_silent : model.validate.Silent model := by
  unfold Model.validate
  split
  · refine .forM fun state => ?_
    refine .bind (.liftM _) fun actions => ?_
    refine .bind (.forM fun action => .bind (.rowOf _ _) fun _ => .pure _) fun _ => ?_
    split
    · exact model.checkAbsorbing_silent state
    · exact .pure _
  · exact .liftM (.error _)

end Silence

/-! ## Validation -/

private theorem Model.PassesAsTerminal.gives_checkAbsorbing {state : Ident}
    (passes : model.PassesAsTerminal state) (clean : model.rowDefect? state model.noop = none) :
    (model.checkAbsorbing state).Gives model fun _ => True := by
  have actions : model.actions state = .ok [model.noop] := by
    rw [Model.actions_eq_ok (by rw [passes.legal_eq]; exact List.cons_ne_nil _ _), passes.legal_eq]
  have looked := model.meets_rowOf state model.noop
  rw [clean] at looked
  refine Inquiry.Gives.of_ok_bind actions ?_
  rw [if_neg (not_not.mpr rfl)]
  refine Inquiry.Gives.bind looked fun row passed => ?_
  dsimp only
  rw [passes.stays row (Model.row_eq_ok_iff.mp passed).1, if_neg Bool.false_ne_true, if_pos passes.free]
  exact .pure trivial

/-- The rows of a state are read before its contract, so the contract counts only in a state without
defects. -/
theorem Model.meets_validateState {state : Ident}
    (kept : model.stateDefect? state = none → model.isTerminal state = true →
      model.PassesAsTerminal state) :
    (model.validateState state).Meets model (model.stateDefect? state) fun _ => True := by
  refine Model.meets_actions_bind fun active => ?_
  have rows : ∀ action ∈ model.legal state, (do
      let _ ← Inquiry.rowOf state action
      return () : Inquiry K PUnit).Meets model (model.rowDefect? state action) fun _ => True :=
    fun action _ => (model.meets_rowOf state action).bind_gives fun _ _ _ => .pure trivial
  refine (Inquiry.Meets.forM rows).bind_gives fun clean _ _ => ?_
  split
  · next terminal =>
      have passes := kept (by rw [Model.stateDefect?, if_neg active]; exact clean) terminal
      refine passes.gives_checkAbsorbing (List.findSome?_eq_none_iff.mp clean _ ?_)
      rw [passes.legal_eq]
      exact List.mem_cons_self
  · exact .pure trivial

/-- Validation comes to the first defect if no contract is violated before. -/
theorem Model.meets_validateStates {states : List Ident}
    (kept : ∀ state ∈ states.takeWhile fun state => (model.stateDefect? state).isNone,
      model.isTerminal state = true → model.PassesAsTerminal state) :
    (states.forM model.validateState).Meets model (states.findSome? model.stateDefect?)
      fun _ => True := by
  induction states with
  | nil => exact Inquiry.Gives.pure trivial
  | cons state rest ih =>
      rw [findSome?_cons_or]
      refine (Model.meets_validateState fun clean terminal => ?_).bind fun clean _ _ => ih ?_
      · exact kept state (by simp [clean]) terminal
      · intro other listed
        exact kept other (by simp [clean, listed])

/-! ## The first defect -/

theorem Model.Numeric.answer_valueIteration (numeric : model.Numeric)
    (discount : model.checkDiscount = .ok ()) {epsilon : K}
    (positive : Scalar.atMost epsilon Scalar.zero = false) (recordHistory : Bool)
    {defect : Defect K} (found : model.firstDefect? = some defect) (budget : Nat) :
    (model.valueIteration epsilon recordHistory (budget + 1)).answer model =
      ⟨.error (.malformed defect), []⟩ := by
  have met : (model.sweep model.zeroUtility).result model = .error (.malformed defect) := by
    have meets := numeric.meets_sweep model.zeroUtility_covers
    rwa [found] at meets
  have swept : (model.sweep model.zeroUtility).answer model = ⟨.error (.malformed defect), []⟩ := by
    rw [model.sweep_silent, met]
  have once : (model.sweepOnce recordHistory ⟨model.zeroUtility, [], []⟩).answer model =
      ⟨.error (.malformed defect), []⟩ := Inquiry.answer_bind_of_answer swept _
  refine ((Inquiry.Silent.liftM _).answer_bind (by rw [Inquiry.result_liftM, discount])).trans ?_
  rw [positive, if_neg Bool.false_ne_true]
  exact Inquiry.answer_bind_of_answer (Inquiry.answer_bind_of_answer once _) _

private theorem Model.answer_validate (known : model.knows model.initial = true)
    (kept : ∀ state ∈ model.statesBeforeDefect, model.isTerminal state = true →
      model.PassesAsTerminal state)
    {defect : Defect K} (found : model.firstDefect? = some defect) :
    model.validate.answer model = ⟨.error (.malformed defect), []⟩ := by
  have met : model.validate.result model = .error (.malformed defect) := by
    have meets := Model.meets_validateStates kept
    rw [← Model.firstDefect?, found] at meets
    rw [Model.validate, if_pos known]
    exact meets
  rw [model.validate_silent, met]

/-- A model has a first defect or none. If it has one, then value iteration fails with it in its first
sweep, before anything is noted, and so does validation, unless it finds the initial state unknown or
a terminal contract violated before. If it has none, then neither a sweep nor the final policy fails.
It does not matter which rows are remembered to have passed before. -/
theorem Model.valueIteration_meets_firstDefect (model : Model K) (numeric : model.Numeric)
    (discount : model.checkDiscount = .ok ()) (epsilon : K)
    (positive : Scalar.atMost epsilon Scalar.zero = false) (recordHistory : Bool)
    (checked : Inquiry.Checked) (sound : checked.Sound model) :
    (∀ defect, model.firstDefect? = some defect →
      (∀ budget, ((model.valueIteration epsilon recordHistory (budget + 1)).resume model checked).1 =
        ⟨.error (.malformed defect), []⟩) ∧
      (model.knows model.initial = true →
        (∀ state ∈ model.statesBeforeDefect, model.isTerminal state = true →
          model.PassesAsTerminal state) →
        (model.validate.resume model checked).1 = ⟨.error (.malformed defect), []⟩)) ∧
    (model.firstDefect? = none → ∀ budget, ∃ outcome,
      ((model.valueIteration epsilon recordHistory budget).resume model checked).1.result =
        .ok outcome) := by
  refine ⟨fun defect found => ⟨fun budget => ?_, fun known kept => ?_⟩, fun clean budget => ?_⟩
  · rw [(Inquiry.resume_eq_answer sound _).1]
    exact numeric.answer_valueIteration discount positive recordHistory found budget
  · rw [(Inquiry.resume_eq_answer sound _).1]
    exact Model.answer_validate known kept found
  · rw [(Inquiry.resume_eq_answer sound _).1]
    obtain ⟨outcome, run, -⟩ := (numeric.sweepable clean).gives_valueIteration recordHistory discount
      positive budget
    exact ⟨outcome, run⟩

/-- From the second place one may return to the end or leave for a place that is not on the map. -/
def leavingTheMap : Model Float where
  states := [.int 0, .int 1]
  actionTable := .ofPairs [(.int 0, [.text "stay"]), (.int 1, [.text "return", .text "leave"])]
  rowTable := .ofPairs [((.int 0, .text "stay"), .ofPairs [(.int 0, 1)]),
    ((.int 1, .text "return"), .ofPairs [(.int 0, 0.75), (.int 1, 0.25)]),
    ((.int 1, .text "leave"), .ofPairs [(.int 1, 0.5), (.int 2, 0.5)])]
  reward _ _ _ := 0
  discount := 0.5
  initial := .int 1
  terminals := [.int 0]
  noop := .text "stay"

theorem Model.valueIteration_meets_firstDefect_leavingTheMap :
    (leavingTheMap.Numeric ∧ leavingTheMap.checkDiscount = .ok () ∧
      Scalar.atMost (0.001 : Float) Scalar.zero = false ∧
      Inquiry.Checked.Sound leavingTheMap ∅ ∧
      leavingTheMap.firstDefect? = some (.unknownSuccessor (.int 1) (.text "leave") (.int 2)) ∧
      leavingTheMap.knows leavingTheMap.initial = true ∧
      ∀ state ∈ leavingTheMap.statesBeforeDefect, leavingTheMap.isTerminal state = true →
        leavingTheMap.PassesAsTerminal state) ∧
    (∀ budget, ((leavingTheMap.valueIteration 0.001 false (budget + 1)).resume leavingTheMap ∅).1 =
      ⟨.error (.malformed (.unknownSuccessor (.int 1) (.text "leave") (.int 2))), []⟩) ∧
    (leavingTheMap.validate.resume leavingTheMap ∅).1 =
      ⟨.error (.malformed (.unknownSuccessor (.int 1) (.text "leave") (.int 2))), []⟩ := by
  have numeric : leavingTheMap.Numeric := by
    refine Model.numeric_of_isNaN fun key row listed => ?_
    have defined : ∀ found ∈ leavingTheMap.rowTable.entries, ∀ entry ∈ found.2.entries,
        entry.2.isNaN = false := by
      decide +kernel
    exact defined (key, row) ((Table.get?_eq_some_iff _ _ _).mp listed)
  have discount : leavingTheMap.checkDiscount = .ok () := rfl
  have positive : Scalar.atMost (0.001 : Float) Scalar.zero = false := by decide +kernel
  have sound : Inquiry.Checked.Sound leavingTheMap ∅ := Inquiry.Checked.sound_empty _
  have found : leavingTheMap.firstDefect? =
      some (.unknownSuccessor (.int 1) (.text "leave") (.int 2)) := rfl
  have known : leavingTheMap.knows leavingTheMap.initial = true := by decide
  have kept : ∀ state ∈ leavingTheMap.statesBeforeDefect, leavingTheMap.isTerminal state = true →
      leavingTheMap.PassesAsTerminal state := by
    intro state listed terminal
    cases of_decide_eq_true terminal with
    | head =>
      refine ⟨rfl, fun row written => ?_, rfl⟩
      cases written
      rfl
    | tail _ absent => cases absent
  obtain ⟨meets, -⟩ := Model.valueIteration_meets_firstDefect leavingTheMap numeric discount 0.001
    positive false ∅ sound
  exact ⟨⟨numeric, discount, positive, sound, found, known, kept⟩, (meets _ found).1,
    (meets _ found).2 known kept⟩

end MarkovDecision
