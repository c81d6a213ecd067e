import MarkovDecision.Event.Message
import MarkovDecision.Proofs.Defects
import MarkovDecision.Proofs.ValueIteration.Run

/-!
# Traces of value iteration

Whatever the model and however its numbers behave, a run of value iteration that returns has taken
one sweep after the other from zero, and everything it returns and notes is read off these sweeps.
The invariant of the loop is that its progress is a function of the number of sweeps alone. Whether
the history is recorded shows in the history only.
-/

set_option autoImplicit false

namespace MarkovDecision

variable {K : Type} [Scalar K] {model : Model K} {recordHistory : Bool} {count budget : Nat}
  {threshold epsilon : K}

/-! ## Sweeps from zero -/

/-- The utility after a number of sweeps from zero. A sweep that fails would leave it as it was. -/
def Model.swept (model : Model K) : Nat → Utility K
  | 0 => model.zeroUtility
  | count + 1 => ((model.sweep (model.swept count)).result model).toOption.getD (model.swept count)

/-- What the sweep after a number of sweeps changes. -/
def Model.sweptBy (model : Model K) (count : Nat) : K :=
  (Utility.distance (model.swept (count + 1)) (model.swept count)).toOption.getD Scalar.undefined

def Model.progressAt (model : Model K) (recordHistory : Bool) (count : Nat) : Progress K where
  utility := model.swept count
  deltas := ((List.range count).map model.sweptBy).reverse
  history :=
    if recordHistory then ((List.range count).map fun sweep => model.swept (sweep + 1)).reverse else []

def Model.solutionAt (model : Model K) (recordHistory : Bool) (count : Nat) (policy : Policy) :
    Solution K where
  utility := model.swept count
  policy := policy
  iterations := count
  deltas := (List.range count).map model.sweptBy
  history := if recordHistory then (List.range count).map fun sweep => model.swept (sweep + 1) else []

/-- The sweep after a number of sweeps does not fail, and its change can be measured. -/
structure Model.SweepRuns (model : Model K) (count : Nat) : Prop where
  swept : (model.sweep (model.swept count)).result model = .ok (model.swept (count + 1))
  measured :
    Utility.distance (model.swept (count + 1)) (model.swept count) = .ok (model.sweptBy count)

/-- From a place on, the first sweep whose change is within the threshold comes after so many others,
and none of them fails. -/
inductive Model.SettlesAfter (model : Model K) (threshold : K) : (start more : Nat) → Prop
  | now {start : Nat} (runs : model.SweepRuns start)
      (settled : Scalar.atMost (model.sweptBy start) threshold = true) :
      SettlesAfter model threshold start 0
  | later {start more : Nat} (runs : model.SweepRuns start)
      (unsettled : Scalar.atMost (model.sweptBy start) threshold = false)
      (rest : SettlesAfter model threshold (start + 1) more) :
      SettlesAfter model threshold start (more + 1)

private theorem Model.progressAt_succ (model : Model K) (recordHistory : Bool) (count : Nat) :
    model.progressAt recordHistory (count + 1) =
      ⟨model.swept (count + 1), model.sweptBy count :: (model.progressAt recordHistory count).deltas,
        if recordHistory then
          model.swept (count + 1) :: (model.progressAt recordHistory count).history
        else []⟩ := by
  cases recordHistory <;> simp [Model.progressAt, List.range_succ]

private theorem Model.progressAt_zero (model : Model K) (recordHistory : Bool) :
    model.progressAt recordHistory 0 = ⟨model.zeroUtility, [], []⟩ := by
  cases recordHistory <;> rfl

private theorem Model.progressAt_deltas_length (model : Model K) (recordHistory : Bool)
    (count : Nat) :
    (model.progressAt recordHistory count).deltas.length = count := by
  simp [Model.progressAt]

/-! ## One turn of the loop -/

private theorem Model.sweepRuns_of_sweepOnce {turned : K × Progress K}
    (run : (model.sweepOnce recordHistory (model.progressAt recordHistory count)).result model =
      .ok turned) : model.SweepRuns count := by
  obtain ⟨utility, swept, run⟩ := Inquiry.result_bind_eq_ok_iff.mp run
  obtain ⟨delta, measured, -⟩ := Inquiry.result_bind_eq_ok_iff.mp run
  rw [Inquiry.result_liftM] at measured
  have next : model.swept (count + 1) = utility := by
    have same : (model.sweep (model.swept count)).result model = .ok utility := swept
    rw [Model.swept, same]
    rfl
  have change : Utility.distance (model.swept (count + 1)) (model.swept count) = .ok delta := by
    rw [next]
    exact measured
  refine ⟨by rw [next]; exact swept, ?_⟩
  rw [Model.sweptBy, change]
  rfl

private theorem Model.SweepRuns.answer_sweepOnce (runs : model.SweepRuns count)
    (recordHistory : Bool) :
    (model.sweepOnce recordHistory (model.progressAt recordHistory count)).answer model =
      ⟨.ok (model.sweptBy count, model.progressAt recordHistory (count + 1)),
        [.sweep (count + 1) (model.sweptBy count)]⟩ := by
  have measured : (liftM (Utility.distance (model.swept (count + 1)) (model.swept count)) :
      Inquiry K K).result model = .ok (model.sweptBy count) := by
    rw [Inquiry.result_liftM, runs.measured]
  refine ((model.sweep_silent _).answer_bind runs.swept).trans ?_
  refine ((Inquiry.Silent.liftM _).answer_bind measured).trans ?_
  rw [Inquiry.answer_bind, List.length_cons, model.progressAt_deltas_length, model.progressAt_succ]
  rfl

/-! ## The loop -/

private theorem Model.exists_settlesAfter {start : Nat} {stopped : K × Progress K}
    (run : (model.sweepUntil recordHistory threshold budget
      (model.progressAt recordHistory start)).result model = .ok (some stopped)) :
    ∃ more < budget, model.SettlesAfter threshold start more := by
  induction budget generalizing start with
  | zero => cases run
  | succ budget ih =>
      obtain ⟨turned, once, run⟩ := Inquiry.result_bind_eq_ok_iff.mp run
      have runs := Model.sweepRuns_of_sweepOnce once
      -- The turn did not fail, so what it came to is known.
      rw [Inquiry.result, runs.answer_sweepOnce] at once
      cases once
      dsimp only at run
      cases settled : Scalar.atMost (model.sweptBy start) threshold with
      | true => exact ⟨0, Nat.succ_pos budget, .now runs settled⟩
      | false =>
          rw [settled, if_neg Bool.false_ne_true] at run
          obtain ⟨more, within, rest⟩ := ih run
          exact ⟨more + 1, Nat.succ_lt_succ within, .later runs settled rest⟩

/-- From the progress of a run with a history, the loop goes the same way as from the progress of one
without. -/
theorem Model.SettlesAfter.answer_sweepUntil {start more : Nat}
    (settles : model.SettlesAfter threshold start more) (enough : more < budget)
    (recordHistory : Bool) :
    (model.sweepUntil recordHistory threshold budget
        (model.progressAt recordHistory start)).answer model =
      ⟨.ok (some (model.sweptBy (start + more), model.progressAt recordHistory (start + more + 1))),
        (List.range' start (more + 1)).map fun sweep => .sweep (sweep + 1) (model.sweptBy sweep)⟩ := by
  induction settles generalizing budget with
  | now runs settled =>
      cases budget with
      | zero => cases enough
      | succ budget =>
          rw [Model.sweepUntil, Inquiry.answer_bind, runs.answer_sweepOnce]
          dsimp only
          rw [if_pos settled]
          rfl
  | @later start more runs unsettled rest ih =>
      cases budget with
      | zero => cases enough
      | succ budget =>
          rw [Model.sweepUntil, Inquiry.answer_bind, runs.answer_sweepOnce]
          dsimp only
          rw [unsettled, if_neg Bool.false_ne_true, ih (Nat.lt_of_succ_lt_succ enough),
            List.range'_succ, show start + 1 + more = start + (more + 1) by omega]
          rfl

theorem Model.SettlesAfter.runs {start more : Nat} (settles : model.SettlesAfter threshold start more) :
    ∀ sweep ≤ more, model.SweepRuns (start + sweep) := by
  induction settles with
  | now runs settled =>
      intro sweep bound
      cases Nat.le_zero.mp bound
      exact runs
  | @later start more runs unsettled rest ih =>
      intro sweep within
      cases sweep with
      | zero => exact runs
      | succ sweep =>
          have run := ih sweep (Nat.le_of_succ_le_succ within)
          rwa [show start + 1 + sweep = start + (sweep + 1) by omega] at run

private theorem Model.SettlesAfter.settled_iff {start more : Nat}
    (settles : model.SettlesAfter threshold start more) :
    ∀ sweep ≤ more,
      Scalar.atMost (model.sweptBy (start + sweep)) threshold = true ↔ sweep = more := by
  induction settles with
  | now runs settled =>
      intro sweep bound
      cases Nat.le_zero.mp bound
      simpa using settled
  | @later start more runs unsettled rest ih =>
      intro sweep within
      cases sweep with
      | zero => simp [unsettled]
      | succ sweep =>
          have settled := ih sweep (Nat.le_of_succ_le_succ within)
          rw [show start + 1 + sweep = start + (sweep + 1) by omega] at settled
          simpa using settled

/-! ## Whole runs -/

/-- The utilities that a run passes through and what each of its sweeps changes. Only the last change
is within the threshold. -/
structure Model.Trail (model : Model K) (threshold : K) (count : Nat) (path : Nat → Utility K)
    (change : Nat → K) : Prop where
  start : path 0 = model.zeroUtility
  swept : ∀ sweep < count, (model.sweep (path sweep)).result model = .ok (path (sweep + 1))
  measured : ∀ sweep < count,
    Utility.distance (path (sweep + 1)) (path sweep) = .ok (change sweep)
  settled_iff : ∀ sweep < count,
    Scalar.atMost (change sweep) threshold = true ↔ sweep + 1 = count

private theorem Model.SettlesAfter.trail {more : Nat}
    (settles : model.SettlesAfter threshold 0 more) :
    model.Trail threshold (more + 1) model.swept model.sweptBy := by
  have runs (sweep : Nat) (within : sweep < more + 1) : model.SweepRuns sweep := by
    simpa using settles.runs sweep (Nat.le_of_lt_succ within)
  refine ⟨rfl, fun sweep within => (runs sweep within).swept,
    fun sweep within => (runs sweep within).measured, fun sweep within => ?_⟩
  simpa using settles.settled_iff sweep (Nat.le_of_lt_succ within)

theorem Model.answer_valueIteration {more : Nat} {policy : Policy}
    (discount : model.checkDiscount = .ok ())
    (positive : Scalar.atMost epsilon Scalar.zero = false)
    (settles : model.SettlesAfter (stoppingThreshold epsilon model.discount) 0 more)
    (enough : more < budget)
    (greedy : (model.greedyPolicy (model.swept (more + 1))).result model = .ok policy)
    (recordHistory : Bool) :
    (model.valueIteration epsilon recordHistory budget).answer model =
      ⟨.ok (some (model.solutionAt recordHistory (more + 1) policy)),
        (List.range (more + 1)).map (fun sweep => .sweep (sweep + 1) (model.sweptBy sweep)) ++
          [.sweepsDone (more + 1) (model.sweptBy more)
            (stoppingThreshold epsilon model.discount)]⟩ := by
  have loop := settles.answer_sweepUntil enough recordHistory
  rw [Nat.zero_add, ← List.range_eq_range'] at loop
  have last : (model.greedyPolicy (model.progressAt recordHistory (more + 1)).utility).result model =
      .ok policy := greedy
  have same : (⟨model.swept (more + 1), policy, more + 1,
      (model.progressAt recordHistory (more + 1)).deltas.reverse,
      (model.progressAt recordHistory (more + 1)).history.reverse⟩ : Solution K) =
        model.solutionAt recordHistory (more + 1) policy := by
    cases recordHistory <;> simp [Model.progressAt, Model.solutionAt]
  refine ((Inquiry.Silent.liftM _).answer_bind (by rw [Inquiry.result_liftM, discount])).trans ?_
  rw [positive, if_neg Bool.false_ne_true, ← model.progressAt_zero recordHistory,
    Inquiry.answer_bind, loop]
  dsimp only
  rw [Inquiry.answer_report_bind, (model.greedyPolicy_silent _).answer_bind last,
    model.progressAt_deltas_length, ← same]
  rfl

private theorem Model.exists_settlesAfter_of_valueIteration {solution : Solution K}
    (run : (model.valueIteration epsilon recordHistory budget).result model = .ok (some solution)) :
    ∃ more policy, model.SettlesAfter (stoppingThreshold epsilon model.discount) 0 more ∧
      (model.greedyPolicy (model.swept (more + 1))).result model = .ok policy ∧
      ∀ flag, (model.valueIteration epsilon flag budget).answer model =
        ⟨.ok (some (model.solutionAt flag (more + 1) policy)),
          (List.range (more + 1)).map (fun sweep => .sweep (sweep + 1) (model.sweptBy sweep)) ++
            [.sweepsDone (more + 1) (model.sweptBy more)
              (stoppingThreshold epsilon model.discount)]⟩ := by
  obtain ⟨_, discount, entered⟩ := Inquiry.result_bind_eq_ok_iff.mp run
  rw [Inquiry.result_liftM] at discount
  split at entered
  · cases entered
  · next positive =>
      rw [Bool.not_eq_true] at positive
      obtain ⟨stopped, loop, finished⟩ := Inquiry.result_bind_eq_ok_iff.mp entered
      rw [← model.progressAt_zero recordHistory] at loop
      cases stopped with
      | none => cases finished
      | some stopped =>
          obtain ⟨more, enough, settles⟩ := Model.exists_settlesAfter loop
          rw [Inquiry.result, settles.answer_sweepUntil enough, Nat.zero_add] at loop
          cases loop
          obtain ⟨_, -, finished⟩ := Inquiry.result_bind_eq_ok_iff.mp finished
          obtain ⟨policy, greedy, -⟩ := Inquiry.result_bind_eq_ok_iff.mp finished
          exact ⟨more, policy, settles, greedy,
            Model.answer_valueIteration discount positive settles enough greedy⟩

/-- A run that returns has taken sweep after sweep from zero up to the first one whose change is within
the threshold. It returns the last utility, its greedy policy, the number of sweeps and what each
changed, and it notes each sweep and then that they are done. To record the history adds the
utilities of all sweeps and changes nothing else. -/
theorem Model.valueIteration_traced (model : Model K) (epsilon : K) (recordHistory : Bool)
    (budget : Nat) (solution : Solution K)
    (run : (model.valueIteration epsilon recordHistory budget).result model = .ok (some solution)) :
    ∃ (path : Nat → Utility K) (change : Nat → K) (log : List (Event K)),
      model.Trail (stoppingThreshold epsilon model.discount) solution.iterations path change ∧
      1 ≤ solution.iterations ∧ solution.deltas.length = solution.iterations ∧
      solution.deltas = (List.range solution.iterations).map change ∧
      solution.utility = path solution.iterations ∧
      (model.greedyPolicy solution.utility).result model = .ok solution.policy ∧
      solution.history = (if recordHistory then
        (List.range solution.iterations).map fun sweep => path (sweep + 1) else []) ∧
      log = (List.range solution.iterations).map (fun sweep => .sweep (sweep + 1) (change sweep)) ++
        [.sweepsDone solution.iterations (change (solution.iterations - 1))
          (stoppingThreshold epsilon model.discount)] ∧
      log.map Event.level = List.replicate solution.iterations .debug ++ [.info] ∧
      ∀ flag : Bool, (model.valueIteration epsilon flag budget).answer model =
        ⟨.ok (some { solution with history := if flag then
          (List.range solution.iterations).map fun sweep => path (sweep + 1) else [] }), log⟩ := by
  obtain ⟨more, policy, settles, greedy, answers⟩ := Model.exists_settlesAfter_of_valueIteration run
  have returned := congrArg Inquiry.Outcome.result (answers recordHistory)
  rw [← Inquiry.result, run] at returned
  cases returned
  refine ⟨model.swept, model.sweptBy, _, settles.trail, Nat.succ_pos more, by simp [Model.solutionAt],
    rfl, rfl, greedy, rfl, rfl, ?_, answers⟩
  simp [Model.solutionAt, Event.level, Function.comp_def, List.map_const']

/-- Three sweeps, with changes of one, a half and a quarter. -/
theorem Model.valueIteration_traced_outing :
    ∃ solution path change log,
      ((outing 0).extended.valueIteration (.finite (1 / 4)) true 5).result (outing 0).extended =
        .ok (some solution) ∧
      (outing 0).extended.Trail (stoppingThreshold (.finite (1 / 4)) (outing 0).extended.discount) 3
        path change ∧
      solution.history = [path 1, path 2, path 3] ∧
      log.map Event.level = [.debug, .debug, .debug, .info] ∧
      ((outing 0).extended.valueIteration (.finite (1 / 4)) false 5).answer (outing 0).extended =
        ⟨.ok (some { solution with history := [] }), log⟩ := by
  have accepted : (outing 0).Accepted := by decide +kernel
  have discount : 0 ≤ (outing 0).discount ∧ (outing 0).discount < 1 := by decide +kernel
  have stops : (outing 0).StopsAfter (1 / 4) 2 := by decide +kernel
  have run := Model.result_valueIteration accepted true discount (by norm_num : (0 : ℚ) < 1 / 4)
    (by decide : 2 < 5) stops
  obtain ⟨path, change, log, trail, -, -, -, -, -, history, -, levels, answers⟩ :=
    Model.valueIteration_traced _ _ _ _ _ run
  exact ⟨_, path, change, log, run, trail, history, levels, answers false⟩

end MarkovDecision
