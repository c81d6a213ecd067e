import Mathlib.Algebra.Order.Ring.GeomSum
import MarkovDecision.Proofs.PolicyIteration.Optimality
import MarkovDecision.Proofs.Validation
import MarkovDecision.Proofs.ValueIteration.Run
import MarkovDecision.Proofs.Walk.Run

/-!
# Terminal states

A walk that stands on a terminal state ends there and has earned nothing. Sweeps do not know terminal
states: they back up the no-op row like any other. Validation makes this row stay up to the tolerance
and makes staying free, but it neither forbids a trace of probability on other states nor looks at
what these transitions earn. So the utility of a terminal state is what seeps in through the trace:
nothing if the row stays altogether, and little if the trace earns little.
-/

set_option autoImplicit false

namespace MarkovDecision

variable {F : Type} [Field F]

/-! ## One entry of a row -/

theorem Row.sum_at (row : Row F) (state : Ident) (value : F) :
    (row.entries.map fun entry => entry.2 * if entry.1 = state then value else 0).sum =
      row.probability state * value := by
  have inEntries : ∀ entries : List (Ident × F), (entries.map Prod.fst).Nodup →
      (entries.map fun entry => entry.2 * if entry.1 = state then value else 0).sum =
        (Table.lookupIn state entries).getD 0 * value := by
    intro entries
    induction entries with
    | nil => simp [Table.lookupIn]
    | cons entry rest ih =>
        intro distinct
        obtain ⟨fresh, others⟩ := List.nodup_cons.mp distinct
        rw [List.map_cons, List.sum_cons, Table.lookupIn]
        split
        · next here =>
            have elsewhere : ∀ number ∈ rest.map fun entry =>
                entry.2 * if entry.1 = state then value else 0, number = 0 := by
              intro number member
              obtain ⟨other, listed, rfl⟩ := List.mem_map.mp member
              have away : other.1 ≠ state := fun same =>
                fresh (List.mem_map.mpr ⟨other, listed, same.trans here.symm⟩)
              rw [if_neg away, mul_zero]
            rw [List.sum_eq_zero elsewhere, add_zero, Option.getD_some]
        · rw [ih others, mul_zero, zero_add]
  exact inEntries row.entries row.nodup_keys

variable (model : Model F) (state : Ident)

/-- What the other successors of the no-op contribute to a backup. -/
def Model.seepage (value : Ident → F) : F :=
  model.mean (fun successor => if successor = state then 0
    else model.reward state model.noop successor + model.discount * value successor) state model.noop

/-- The values of a state in successive sweeps from zero that back up its no-op alone, which earns
nothing by staying. -/
structure Model.Seeps (values : Nat → Ident → F) : Prop where
  start : values 0 state = 0
  step : ∀ count, values (count + 1) state =
    model.discount * ((model.rowAt state model.noop).probability state * values count state) +
      model.seepage state (values count)

variable [LinearOrder F] {model state}

theorem Model.Idles.backup_eq (idles : model.Idles state) (value : Ident → F) :
    model.backup value state model.noop =
      model.discount * ((model.rowAt state model.noop).probability state * value state) +
        model.seepage state value := by
  have split : (fun successor => model.reward state model.noop successor +
      model.discount * value successor) =
        (fun successor => if successor = state then model.discount * value state else 0) +
          fun successor => if successor = state then 0
            else model.reward state model.noop successor + model.discount * value successor := by
    funext successor
    rw [Pi.add_apply]
    split
    · next same => rw [same, idles.free, zero_add, add_zero]
    · rw [zero_add]
  have staying : model.mean (fun successor =>
      if successor = state then model.discount * value state else 0) state model.noop =
        (model.rowAt state model.noop).probability state * (model.discount * value state) :=
    Row.sum_at _ state _
  rw [Model.backup, split, Model.mean_add, staying, Model.seepage, mul_left_comm]

theorem Model.Idles.seeps (idles : model.Idles state) {values : Nat → Ident → F}
    (start : values 0 state = 0)
    (step : ∀ count, values (count + 1) state = model.backup (values count) state model.noop) :
    model.Seeps state values :=
  ⟨start, fun count => (step count).trans (idles.backup_eq _)⟩

theorem Model.Idles.greedy_eq (idles : model.Idles state) (value : Ident → F) :
    model.greedy value state = model.noop := by
  rw [Model.greedy, idles.legal_eq]
  rfl

private theorem Model.Idles.seeps_iterate (idles : model.Idles state) :
    model.Seeps state model.iterate := by
  refine idles.seeps rfl fun count => ?_
  rw [Model.iterate_succ, Model.best, idles.greedy_eq]

theorem Model.Idles.seeps_follow (idles : model.Idles state) {choice : Ident → Ident}
    (legal : choice state ∈ model.legal state) :
    model.Seeps state fun count => (model.follow choice)^[count] 0 := by
  have noop : choice state = model.noop := by
    rw [idles.legal_eq] at legal
    exact List.mem_singleton.mp legal
  refine idles.seeps rfl fun count => ?_
  rw [Function.iterate_succ_apply', Model.follow, noop]

/-! ## How much seeps in -/

variable [IsStrictOrderedRing F]

section Bounds

variable (idles : model.Idles state) (accepted : (model.rowAt state model.noop).Accepted model.knows)

include idles accepted

private theorem Model.Idles.mean_away_le :
    model.mean (fun successor => if successor = state then 0 else 1)
    state model.noop ≤ 2 / 10 ^ 9 := by
  have split : (fun successor => if successor = state then 0 else 1) +
      (fun successor => if successor = state then 1 else 0) = fun _ : Ident => (1 : F) := by
    funext successor
    rw [Pi.add_apply]
    split
    · exact zero_add 1
    · exact add_zero 1
  have staying : model.mean (fun successor => if successor = state then 1 else 0) state model.noop =
      (model.rowAt state model.noop).probability state * 1 := Row.sum_at _ state 1
  have whole := model.mean_const state model.noop 1
  rw [← split, Model.mean_add, staying, mul_one, mul_one] at whole
  have loop := (abs_le.mp idles.near).1
  have mass := (abs_le.mp accepted.near).2
  linarith

private theorem Model.Idles.abs_seepage_le {value : Ident → F} {bound : F} (nonneg : 0 ≤ bound)
    (small : ∀ entry ∈ (model.rowAt state model.noop).entries, entry.1 ≠ state → 0 < entry.2 →
      |model.reward state model.noop entry.1 + model.discount * value entry.1| ≤ bound) :
    |model.seepage state value| ≤ 2 / 10 ^ 9 * bound := by
  have capped : |model.seepage state value| ≤
      bound * model.mean (fun successor => if successor = state then 0 else 1) state model.noop := by
    rw [← Model.mean_scale]
    refine Model.abs_mean_le_mean accepted.nonneg fun entry listed positive => ?_
    split
    · rw [abs_zero, mul_zero]
    · next away =>
        rw [mul_one]
        exact small entry listed away positive
  refine capped.trans ?_
  rw [mul_comm (2 / 10 ^ 9)]
  exact mul_le_mul_of_nonneg_left (idles.mean_away_le accepted) nonneg

/-- What stays shrinks by the discount and grows by the tolerance at most, and what seeps in is
added. -/
theorem Model.Seeps.abs_values_le {values : Nat → Ident → F} (seeps : model.Seeps state values) {bound : F}
    (nonneg : 0 ≤ bound) (count : Nat)
    (small : ∀ earlier < count, ∀ entry ∈ (model.rowAt state model.noop).entries,
      entry.1 ≠ state → 0 < entry.2 →
        |model.reward state model.noop entry.1 + model.discount * values earlier entry.1| ≤ bound) :
    |values count state| ≤
      2 / 10 ^ 9 * bound * ∑ power ∈ Finset.range count, (|model.discount| * (1 + 1 / 10 ^ 9)) ^ power := by
  have rate : |(model.rowAt state model.noop).probability state| ≤ 1 + 1 / 10 ^ 9 := by
    have loop := abs_le.mp idles.near
    rw [abs_le]
    constructor <;> linarith
  induction count with
  | zero => simp [seeps.start]
  | succ count ih =>
      have before := ih fun earlier sooner => small earlier (sooner.trans (Nat.lt_succ_self count))
      have seeping := idles.abs_seepage_le accepted nonneg (small count (Nat.lt_succ_self count))
      calc |values (count + 1) state|
          ≤ |model.discount| *
              (|(model.rowAt state model.noop).probability state| * |values count state|) +
                |model.seepage state (values count)| := by
            rw [seeps.step, ← abs_mul, ← abs_mul]
            exact abs_add_le _ _
        _ ≤ |model.discount| * ((1 + 1 / 10 ^ 9) * |values count state|) + 2 / 10 ^ 9 * bound := by
            gcongr
        _ ≤ |model.discount| * (1 + 1 / 10 ^ 9) * (2 / 10 ^ 9 * bound *
              ∑ power ∈ Finset.range count, (|model.discount| * (1 + 1 / 10 ^ 9)) ^ power) +
                2 / 10 ^ 9 * bound := by
            rw [← mul_assoc]
            gcongr
        -- One more sweep multiplies the geometric sum by its rate and adds one.
        _ = _ := by rw [geom_sum_succ]; ring

end Bounds

/-! ## Terminal states of valid models -/

/-- Values of a state in successive sweeps that are due to seepage alone. They are zero exactly if
nothing seeps in, so if nothing leaves the state, and otherwise of the size of the tolerances, as long
as a bound is known for what the other successors of positive probability earn. -/
structure Model.NearlyWorthless (model : Model F) (state : Ident) (values : Nat → Ident → F) :
    Prop where
  seeps : model.Seeps state values
  zero_iff : (∀ count, values count state = 0) ↔ ∀ count, model.seepage state (values count) = 0
  worthless : (∀ entry ∈ (model.rowAt state model.noop).entries, 0 < entry.2 → entry.1 = state) →
    ∀ count, values count state = 0
  small : ∀ bound, 0 ≤ bound → ∀ count,
    (∀ earlier < count, ∀ entry ∈ (model.rowAt state model.noop).entries, entry.1 ≠ state →
      0 < entry.2 →
        |model.reward state model.noop entry.1 + model.discount * values earlier entry.1| ≤ bound) →
    |values count state| ≤
      2 / 10 ^ 9 * bound * ∑ power ∈ Finset.range count, (|model.discount| * (1 + 1 / 10 ^ 9)) ^ power

theorem Model.Seeps.nearlyWorthless {values : Nat → Ident → F} (seeps : model.Seeps state values)
    (idles : model.Idles state) (accepted : (model.rowAt state model.noop).Accepted model.knows) :
    model.NearlyWorthless state values where
  seeps := seeps
  zero_iff := by
    constructor
    · intro zero count
      have step := seeps.step count
      rw [zero, zero, mul_zero, mul_zero, zero_add] at step
      exact step.symm
    · intro dry count
      induction count with
      | zero => exact seeps.start
      | succ count ih => rw [seeps.step, ih, dry, mul_zero, mul_zero, add_zero]
  worthless stays count := by
    have worthless := seeps.abs_values_le idles accepted le_rfl count fun _ _ entry listed away positive =>
      absurd (stays entry listed positive) away
    rw [mul_zero, zero_mul] at worthless
    exact abs_nonpos_iff.mp worthless
  small _ nonneg count := seeps.abs_values_le idles accepted nonneg count

private theorem Model.result_rollout_terminal {K : Type} [Scalar K] {model : Model K}
    {state : Ident}
    (terminal : model.isTerminal state = true) {Source : Type} [UniformSource Source K]
    (source : Source) (policy : Policy) (trial limit : Int) (keep : Bool) :
    (model.rollout policy state trial limit keep source).result model =
      .ok (⟨trial, Scalar.zero, 0, true, state, []⟩, source) := by
  have walks : model.Walks policy keep (.start state) source [] (.start state) source :=
    .stand _ _
  rw [walks.result_rollout ⟨Nat.zero_le _, Or.inl terminal⟩]
  exact if_pos terminal

/-- In a validated model a walk from a terminal state returns zero without a step. The sweeps of value
iteration from zero, and those of the evaluation of a legal policy, give it nearly nothing. -/
theorem Model.validated_terminal_nearlyWorthless (model : Model F)
    (validated : model.extended.validate.result model.extended = .ok ()) (state : Ident)
    (member : state ∈ model.states) (terminal : model.isTerminal state = true) :
    (∀ {Source : Type} [UniformSource Source (Extended F)] (source : Source) (policy : Policy)
      (trial limit : Int) (keep : Bool),
      (model.extended.rollout policy state trial limit keep source).result model.extended =
        .ok (⟨trial, .finite 0, 0, true, state, []⟩, source)) ∧
    (∃ values, model.NearlyWorthless state values ∧
      (∀ count, ∃ utility,
        (model.extended.sweepTimes count model.extended.zeroUtility).result model.extended =
          .ok utility ∧ Utility.Reads utility model.states (values count)) ∧
      ∀ (epsilon : F) (recordHistory : Bool) (budget : Nat) (solution : Solution (Extended F)),
        (model.extended.valueIteration (.finite epsilon) recordHistory budget).result
          model.extended = .ok (some solution) →
        Utility.Reads solution.utility model.states (values solution.iterations) ∧
          ∀ (index : Nat) (utility : Utility (Extended F)),
            solution.history[index]? = some utility →
              Utility.Reads utility model.states (values (index + 1))) ∧
    ∀ policy, model.extended.checkPolicy policy = .ok () →
      ∃ values, model.NearlyWorthless state values ∧ ∀ count : Nat, 1 ≤ count →
        ∃ utility, Utility.Reads utility model.states (values count) ∧
          (model.extended.evaluatePolicy policy count none).result model.extended = do
            model.extended.checkDiscount
            return utility := by
  have valid := Model.result_validate_iff.mp validated
  have idles := valid.idles state member terminal
  have row := valid.accepted.row member (by rw [idles.legal_eq]; exact List.mem_singleton_self _)
  refine ⟨fun source policy trial limit keep => ?_, ?_, fun policy checked => ?_⟩
  · have ends : model.extended.isTerminal state = true := terminal
    rw [Model.result_rollout_terminal ends, Extended.zero_eq]
  · refine ⟨model.iterate, idles.seeps_iterate.nearlyWorthless idles row,
      Model.result_sweepTimes valid.accepted model.zeroUtility_reads, fun epsilon recordHistory budget solution run => ?_⟩
    obtain ⟨-, -, count, -, rfl⟩ := Model.solution_of_valueIteration valid.accepted run
    refine ⟨model.tabled_reads _, fun index utility recorded => ?_⟩
    rw [Model.history_getElem? recorded]
    exact model.tabled_reads _
  · have lawful : model.extended.LegalPolicy policy := Model.checkPolicy_eq_ok_iff.mp checked
    have legal : model.LegalPolicy policy := lawful
    have choice := legal.legalChoice
    refine ⟨_, (idles.seeps_follow (choice state member)).nearlyWorthless idles row,
      fun count positive => ⟨_, model.tabled_reads _, ?_⟩⟩
    exact Model.result_evaluatePolicy_of_sweeps valid.accepted legal.takes choice
      (Int.natCast_pos.mpr positive) none model.zeroUtility_reads

/-- The last place of the trip stays altogether, so every number of sweeps leaves it at zero. -/
theorem Model.validated_terminal_nearlyWorthless_trip :
    (trip.extended.validate.result trip.extended = .ok () ∧ Ident.int 2 ∈ trip.states ∧
      trip.isTerminal (.int 2) = true) ∧
    ∀ count, ∃ utility,
      (trip.extended.sweepTimes count trip.extended.zeroUtility).result trip.extended = .ok utility ∧
        utility.get? (.int 2) = some (.finite 0) := by
  have validated := Model.result_validate_iff.mpr trip_valid
  have member : Ident.int 2 ∈ trip.states := by decide +kernel
  have terminal : trip.isTerminal (.int 2) = true := by decide +kernel
  obtain ⟨-, ⟨values, worth, swept, -⟩, -⟩ :=
    Model.validated_terminal_nearlyWorthless trip validated (.int 2) member terminal
  have stays : ∀ entry ∈ (trip.rowAt (.int 2) trip.noop).entries, 0 < entry.2 →
      entry.1 = .int 2 := by decide +kernel
  refine ⟨⟨validated, member, terminal⟩, fun count => ?_⟩
  obtain ⟨utility, run, reads⟩ := swept count
  exact ⟨utility, run, by rw [reads _ member, worth.worthless stays count]⟩

/-! ## A terminal state that leaks -/

/-- The second place is terminal, but a trace of probability within the tolerance leads back to the
first place and earns its inverse. -/
def leaking : Model ℚ where
  states := [.int 0, .int 1]
  actionTable := .ofPairs [(.int 0, [.text "go"]), (.int 1, [.blank])]
  rowTable := .ofPairs [((.int 0, .text "go"), .ofPairs [(.int 1, 1)]),
    ((.int 1, .blank), .ofPairs [(.int 1, 1 - 1 / 2 ^ 31), (.int 0, 1 / 2 ^ 31)])]
  reward state _ successor := if state = .int 1 ∧ successor = .int 0 then 2 ^ 31 else 0
  discount := 1 / 2
  initial := .int 0
  terminals := [.int 1]
  noop := .blank

private theorem leaking_valid : leaking.Valid := by decide +kernel

/-- Validation lets the leak through. One sweep of either kind then gives the terminal state the
utility one, while walks from it return zero. -/
theorem Model.validated_terminal_earns_leaking :
    let policy : Policy := .ofPairs [(.int 0, .text "go"), (.int 1, .blank)]
    leaking.extended.validate.result leaking.extended = .ok () ∧
    (0 ≤ leaking.discount ∧ leaking.discount < 1) ∧ Ident.int 1 ∈ leaking.states ∧
    leaking.isTerminal (.int 1) = true ∧ leaking.extended.checkPolicy policy = .ok () ∧
    (∃ utility, (leaking.extended.sweepTimes 1 leaking.extended.zeroUtility).result
        leaking.extended = .ok utility ∧ utility.get? (.int 1) = some (.finite 1)) ∧
    (∃ utility, (leaking.extended.evaluatePolicy policy 1 none).result leaking.extended =
        .ok utility ∧ utility.get? (.int 1) = some (.finite 1)) ∧
    ∀ {Source : Type} [UniformSource Source (Extended ℚ)] (source : Source),
      (leaking.extended.rollout policy (.int 1) 0 defaultMaxSteps false source).result
        leaking.extended = .ok (⟨0, .finite 0, 0, true, .int 1, []⟩, source) := by
  intro policy
  have discount : 0 ≤ leaking.discount ∧ leaking.discount < 1 := by decide +kernel
  have member : Ident.int 1 ∈ leaking.states := by decide +kernel
  have terminal : leaking.extended.isTerminal (.int 1) = true := by decide +kernel
  have legal : leaking.LegalPolicy policy := by decide +kernel
  have lawful : leaking.extended.LegalPolicy policy := legal
  have swept : leaking.best^[1] 0 (.int 1) = 1 := by decide +kernel
  have followed : (leaking.follow policy.choice)^[1] 0 (.int 1) = 1 := by decide +kernel
  refine ⟨Model.result_validate_iff.mpr leaking_valid, discount, member, terminal,
    Model.checkPolicy_eq_ok_iff.mpr lawful, ?_, ?_, fun source => ?_⟩
  · obtain ⟨utility, run, reads⟩ := Model.result_sweepTimes leaking_valid.accepted leaking.zeroUtility_reads 1
    exact ⟨utility, run, by rw [reads _ member, swept]⟩
  · have run := Model.result_evaluatePolicy leaking_valid.accepted legal.takes legal.legalChoice
      discount one_pos none leaking.zeroUtility_reads
    exact ⟨_, run, by rw [leaking.tabled_reads _ _ member]; exact congrArg _ (congrArg _ followed)⟩
  · rw [Model.result_rollout_terminal terminal, Extended.zero_eq]

end MarkovDecision
