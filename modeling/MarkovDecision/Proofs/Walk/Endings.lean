import Mathlib.Algebra.BigOperators.Ring.Finset
import Mathlib.Algebra.BigOperators.Ring.List
import Mathlib.Data.List.Sort
import Mathlib.Data.String.Basic
import MarkovDecision.Experiment.Outcomes
import MarkovDecision.Proofs.Extended
import MarkovDecision.Proofs.Ident.Written
import MarkovDecision.Proofs.Walk.StateEstimates

/-!
# Where finished walks end

A walk finishes only in a terminal state. The terminal states are listed once each, in the order of
their written names, so the finished walks of a batch are divided among the listed states without
remainder. Only the members of the list of terminal states matter, not their order.
-/

set_option autoImplicit false

namespace MarkovDecision

variable {K : Type} [Scalar K] {model : Model K}

/-! ## Final states -/

section Final

variable {Source : Type} [UniformSource Source K] {policy : Policy} {keep : Bool}

private theorem Model.isTerminal_of_absorbed {allowed : Nat} {position last : Position K}
    {source later : Source}
    (run : (model.walkFrom policy keep allowed position source).result model =
      .ok (.absorbed last, later)) : model.isTerminal last.state = true := by
  induction allowed generalizing position source with
  | zero =>
      rw [Model.walkFrom] at run
      split at run
      · next terminal =>
          cases run
          exact terminal
      · cases run
  | succ allowed ih =>
      rw [Model.walkFrom] at run
      split at run
      · next terminal =>
          cases run
          exact terminal
      · obtain ⟨action, -, run⟩ := Inquiry.result_bind_eq_ok_iff.mp run
        obtain ⟨row, -, run⟩ := Inquiry.result_bind_eq_ok_iff.mp run
        exact ih run

private theorem Model.Trials.final_mem {start : Ident} {limit : Int} {index count : Nat}
    {source : Source} {trials : List (Trial K)} {failure : Option (Fault K)}
    (run : model.Trials policy start limit keep index count source trials failure) :
    ∀ rollout ∈ (Batch.ofTrials trials).rollouts, rollout.final ∈ model.terminals := by
  induction run with
  | done => simp
  | failed => simp
  | finished run _ ih =>
      obtain ⟨position, walked, rfl⟩ := Model.result_rollout_eq_ok_iff.mp run
      have ends : position.state ∈ model.terminals :=
        of_decide_eq_true (Model.isTerminal_of_absorbed walked)
      simpa using ⟨ends, ih⟩
  | dropped _ _ _ ih => simpa using ih

end Final

/-! ## Terminal states in order -/

omit [Scalar K] in
@[simp] theorem Model.mem_sortedTerminals {state : Ident} :
    state ∈ model.sortedTerminals ↔ state ∈ model.terminals := by
  simp [Model.sortedTerminals]

omit [Scalar K] in
private theorem Model.sortedTerminals_nodup (model : Model K) : model.sortedTerminals.Nodup :=
  (List.mergeSort_perm _ _).nodup_iff.mpr (Table.keys_nodup _)

omit [Scalar K] in
private theorem Model.sortedTerminals_pairwise (model : Model K) :
    model.sortedTerminals.Pairwise fun left right => left.written < right.written := by
  have sorted : model.sortedTerminals.Pairwise fun left right =>
      decide (left.written ≤ right.written) = true := by
    apply List.pairwise_mergeSort
    · simpa using fun _ _ _ => String.le_trans
    · simpa using fun _ _ => String.le_total _ _
  refine (sorted.and model.sortedTerminals_nodup).imp fun {left right} both => ?_
  have distinct : left.written ≠ right.written := fun same => both.2 (Ident.written_inj.mp same)
  exact lt_of_le_of_ne (of_decide_eq_true both.1) distinct

/-- The model with its terminal states listed anew. -/
def Model.relisted (model : Model K) (terminals : List Ident) : Model K :=
  { model with terminals }

omit [Scalar K] in
@[simp] theorem Model.terminals_relisted (terminals : List Ident) :
    (model.relisted terminals).terminals = terminals := rfl

/-- Rows do not depend on the terminal states, and neither do answers. -/
theorem Inquiry.answer_relisted {Answer : Type} (terminals : List Ident)
    (inquiry : Inquiry K Answer) :
    inquiry.answer (model.relisted terminals) = inquiry.answer model := by
  induction inquiry with
  | done => rfl
  | fail => rfl
  | ask state action next ih =>
      have asked : (model.relisted terminals).row state action = model.row state action := rfl
      simp only [Inquiry.answer, asked]
      cases model.row state action with
      | error fault => rfl
      | ok row => exact ih row
  | note event next ih => exact congrArg _ (ih ())

omit [Scalar K] in
private theorem Model.checkPolicy_relisted (terminals : List Ident) (policy : Policy) :
    (model.relisted terminals).checkPolicy policy = model.checkPolicy policy := by
  have legal : ∀ states, (model.relisted terminals).checkLegal policy states =
      model.checkLegal policy states := by
    intro states
    induction states with
    | nil => rfl
    | cons state rest ih =>
        simp only [Model.checkLegal, ih]
        rfl
  simp only [Model.checkPolicy, legal]
  rfl

section Relisted

variable {terminals : List Ident} (same : ∀ state, state ∈ terminals ↔ state ∈ model.terminals)

include same

omit [Scalar K] in
private theorem Model.sortedTerminals_relisted :
    (model.relisted terminals).sortedTerminals = model.sortedTerminals := by
  apply (model.relisted terminals).sortedTerminals_pairwise.eq_of_mem_iff
    model.sortedTerminals_pairwise
  simpa using same

omit [Scalar K] in
private theorem Model.isTerminal_relisted (state : Ident) :
    (model.relisted terminals).isTerminal state = model.isTerminal state := by
  simp [Model.isTerminal, same]

variable {Source : Type} [UniformSource Source K]

private theorem Model.walkFrom_relisted (policy : Policy) (keep : Bool) (allowed : Nat)
    (position : Position K) (source : Source) :
    (model.relisted terminals).walkFrom policy keep allowed position source =
      model.walkFrom policy keep allowed position source := by
  induction allowed generalizing position source with
  | zero => simp only [Model.walkFrom, Model.isTerminal_relisted same]
  | succ allowed ih =>
      simp only [Model.walkFrom, Model.isTerminal_relisted same, ih]
      rfl

private theorem Model.runTrials_relisted (policy : Policy) (start : Ident) (limit : Int)
    (mode : LimitMode) (keep : Bool) (remaining trial : Nat) (source : Source) (batch : Batch K) :
    (model.relisted terminals).runTrials policy start limit mode keep remaining trial source batch =
      model.runTrials policy start limit mode keep remaining trial source batch := by
  induction remaining generalizing trial source batch with
  | zero => rfl
  | succ remaining ih =>
      simp only [Model.runTrials, Model.walk, Model.walkFrom_relisted same, ih]

private theorem Model.walkToEnds_relisted (rules : SpreadRules K) (rule : RateRule K)
    (significance : K)
    (policy : Policy) (settings : BatchSettings) (source : Except (Fault K) Source) :
    (model.relisted terminals).walkToEnds rules rule significance policy settings source =
      model.walkToEnds rules rule significance policy settings source := by
  simp only [Model.walkToEnds, Model.runBatch, Model.checkPolicy_relisted,
    Model.runTrials_relisted same, Model.endingRates, Model.sortedTerminals_relisted same]
  rfl

end Relisted

/-! ## Counts -/

omit [Scalar K] in
@[simp] theorem endingCount_nil (state : Ident) : endingCount ([] : List (Rollout K)) state = 0 := rfl

omit [Scalar K] in
private theorem endingCount_cons (rollout : Rollout K) (rollouts : List (Rollout K))
    (state : Ident) :
    endingCount (rollout :: rollouts) state =
      endingCount rollouts state + if rollout.final = state then 1 else 0 := by
  simp [endingCount, List.countP_cons]

omit [Scalar K] in
private theorem endingCount_le (rollouts : List (Rollout K)) (state : Ident) :
    endingCount rollouts state ≤ rollouts.length := List.countP_le_length

omit [Scalar K] in
/-- No walk is counted twice, and none is left out if the listed states cover the final ones. -/
private theorem sum_endingCount {states : List Ident} (distinct : states.Nodup)
    {rollouts : List (Rollout K)} (covered : ∀ rollout ∈ rollouts, rollout.final ∈ states) :
    (states.map (endingCount rollouts)).sum = rollouts.length := by
  induction rollouts with
  | nil => simp [funext endingCount_nil]
  | cons rollout rest ih =>
      have listed := covered rollout List.mem_cons_self
      have once : (states.map fun state => if rollout.final = state then 1 else 0).sum = 1 := by
        rw [List.sum_map_eq_nsmul_single rollout.final _ fun other away _ => if_neg away.symm,
          List.count_eq_one_of_mem distinct listed, if_pos rfl, one_nsmul]
      have others := ih fun other member => covered other (List.mem_cons_of_mem _ member)
      rw [funext (endingCount_cons rollout rest), List.sum_map_add, others, once, List.length_cons]

/-! ## Rates -/

section Rates

variable {F : Type} [Field F] [LinearOrder F] [IsStrictOrderedRing F]

private theorem share_eq (count trials : Nat) :
    (share count trials : Extended F) = .finite ((count : F) / trials) := by
  unfold share
  split
  · next zero => simp [zero]
  · next nonzero =>
      rw [Extended.ofCount_eq, Extended.ofCount_eq, Extended.finite_div _ _ (Nat.cast_ne_zero.mpr nonzero)]

omit [Scalar K] in
private theorem sum_rates {states : List Ident} (distinct : states.Nodup)
    {rollouts : List (Rollout K)} (covered : ∀ rollout ∈ rollouts, rollout.final ∈ states)
    (finished : 0 < rollouts.length) :
    (states.map fun state => (endingCount rollouts state : F) / rollouts.length).sum = 1 := by
  have nonzero : (rollouts.length : F) ≠ 0 := Nat.cast_ne_zero.mpr finished.ne'
  calc (states.map fun state => (endingCount rollouts state : F) / rollouts.length).sum
      = (states.map fun state => (endingCount rollouts state : F)).sum / rollouts.length := by
        simp only [div_eq_mul_inv, List.sum_map_mul_right]
    _ = ((states.map (endingCount rollouts)).sum : Nat) / rollouts.length := by
        rw [Nat.cast_list_sum, List.map_map]
        rfl
    _ = 1 := by rw [sum_endingCount distinct covered, div_self nonzero]

/-- The endings of a batch account for its finished walks. Each of these has ended in a terminal state;
exactly the terminal states are listed, in the order of their written names; the count of each is at
most the number of walks and decides its rate and its interval. The rates are shares of the whole, and
without a finished walk nothing is known. -/
structure Batch.Accounts (batch : Batch (Extended F)) (model : Model (Extended F))
    (rule : RateRule (Extended F)) (endings : List (EndingRate (Extended F))) : Prop where
  final : ∀ rollout ∈ batch.rollouts, rollout.final ∈ model.terminals
  listed : ∀ state, state ∈ endings.map EndingRate.state ↔ state ∈ model.terminals
  ordered : (endings.map EndingRate.state).Pairwise fun left right => left.written < right.written
  counted : ∀ ending ∈ endings, ∃ count : Nat, count = endingCount batch.rollouts ending.state ∧
    count ≤ batch.rollouts.length ∧ ending.rate = .finite ((count : F) / batch.rollouts.length) ∧
    (ending.low, ending.high) = rateBounds rule count batch.rollouts.length
  shared : 0 < batch.rollouts.length → ∃ rates : List F,
    endings.map EndingRate.rate = rates.map .finite ∧ rates.sum = 1
  idle : batch.rollouts = [] → ∀ ending ∈ endings,
    ending.rate = .finite 0 ∧ ending.low = .finite 0 ∧ ending.high = .finite 1

private theorem Model.accounts_endingRates (model : Model (Extended F))
    (rule : RateRule (Extended F))
    {batch : Batch (Extended F)}
    (final : ∀ rollout ∈ batch.rollouts, rollout.final ∈ model.terminals) :
    batch.Accounts model rule (model.endingRates rule batch.rollouts) := by
  have states : (model.endingRates rule batch.rollouts).map EndingRate.state =
      model.sortedTerminals := by
    rw [Model.endingRates, List.map_map]
    exact List.map_id _
  refine ⟨final, ?_, ?_, ?_, ?_, ?_⟩
  · simp [states]
  · simpa only [states] using model.sortedTerminals_pairwise
  · intro ending listed
    obtain ⟨state, -, rfl⟩ := List.mem_map.mp listed
    exact ⟨_, rfl, endingCount_le _ _, share_eq _ _, rfl⟩
  · intro finished
    refine ⟨_, ?_, sum_rates model.sortedTerminals_nodup
      (fun rollout member => Model.mem_sortedTerminals.mpr (final rollout member)) finished⟩
    simp only [Model.endingRates, List.map_map]
    exact List.map_congr_left fun state _ => share_eq _ _
  · intro idle ending listed
    obtain ⟨state, -, rfl⟩ := List.mem_map.mp listed
    simp [idle, endingRate, share, rateBounds]

end Rates

/-- What an experiment reports on where walks end accounts for every finished walk, and it does not
depend on how the terminal states are listed. -/
theorem Model.walkToEnds_accounts {F : Type} [Field F] [LinearOrder F] [IsStrictOrderedRing F]
    {Source : Type} [UniformSource Source (Extended F)] (model : Model (Extended F))
    (rules : SpreadRules (Extended F)) (rule : RateRule (Extended F)) (significance : Extended F)
    (policy : Policy) (settings : BatchSettings) (source : Except (Fault (Extended F)) Source)
    (estimate : Estimate (Extended F)) (endings : List (EndingRate (Extended F)))
    (run : (model.walkToEnds rules rule significance policy settings source).result model =
      .ok (estimate, endings)) :
    (∃ batch, (model.runBatch policy .blank settings source).result model = .ok batch ∧
      estimate = .ofRollouts rules significance batch.discarded batch.rollouts ∧
      batch.rollouts.length + batch.discarded = settings.trials ∧
      batch.Accounts model rule endings) ∧
    ∀ terminals, (∀ state, state ∈ terminals ↔ state ∈ model.terminals) →
      ((model.relisted terminals).walkToEnds rules rule significance policy settings source).result
        (model.relisted terminals) = .ok (estimate, endings) := by
  constructor
  · obtain ⟨batch, ran, reported⟩ := Inquiry.result_bind_eq_ok_iff.mp run
    cases reported
    obtain ⟨ready, trials, -, walks, -, rfl⟩ := Model.exists_trials_of_runBatch ran
    refine ⟨_, ran, rfl, ?_, model.accounts_endingRates rule walks.final_mem⟩
    obtain ⟨_, counted, -⟩ := Inquiry.result_bind_eq_ok_iff.mp ran
    rw [Inquiry.result_liftM, checkCount_eq_ok_iff] at counted
    rw [Batch.length_add_discarded, walks.length_eq_of_none, Int.toNat_of_nonneg counted.le]
  · intro terminals same
    rw [Model.walkToEnds_relisted same, Inquiry.result, Inquiry.answer_relisted]
    exact run

/-! ## A fork with two ends -/

/-- From the first place one stays with probability one half, or comes to one of two ends. -/
def fork : Model ℚ where
  states := [.int 0, .int 1, .int 2]
  actionTable := .ofKeys [.int 0, .int 1, .int 2] fun _ => [.text "go"]
  rowTable := .ofPairs [
    ((.int 0, .text "go"), .ofPairs [(.int 0, 1 / 2), (.int 1, 1 / 4), (.int 2, 1 / 4)]),
    ((.int 1, .text "go"), .ofPairs [(.int 1, 1)]),
    ((.int 2, .text "go"), .ofPairs [(.int 2, 1)])]
  reward state _ _ := if state = .int 0 then 1 else 0
  discount := 1 / 2
  initial := .int 0
  terminals := [.int 2, .int 1]
  noop := .text "go"

def forward : Policy := .ofKeys fork.states fun _ => .text "go"

/-- The exact interval at the level `1 / 20` for the rate of an outcome in one trial. -/
def singleTrialRule : RateRule (Extended ℚ) := fun count _ =>
  if count = 0 then (.finite 0, .finite (39 / 40)) else (.finite (1 / 40), .finite 1)

/-- The first of two trials of one step is dropped, and the second one ends in the place that is listed
first among the ends and second in their order. -/
theorem Model.walkToEnds_accounts_fork :
    let settings : BatchSettings := ⟨2, 1, "discard", false⟩
    let draws : Draws (Extended ℚ) := ⟨[.finite (1 / 4), .finite (7 / 8)], .finite 0, 0⟩
    let rules : SpreadRules (Extended ℚ) :=
      ⟨fun _ => .undefined, fun _ _ => (.undefined, .undefined)⟩
    ∃ estimate endings,
      (fork.extended.walkToEnds rules singleTrialRule (.finite (1 / 20)) forward settings
        (.ok draws)).result fork.extended = .ok (estimate, endings) ∧
      (∃ batch, (fork.extended.runBatch forward .blank settings (.ok draws)).result fork.extended =
          .ok batch ∧
        batch.rollouts.map Rollout.final = [.int 2] ∧ batch.discarded = 1 ∧
        batch.rollouts.length + batch.discarded = settings.trials ∧
        batch.Accounts fork.extended singleTrialRule endings) ∧
      ∀ terminals, (∀ state, state ∈ terminals ↔ state ∈ fork.extended.terminals) →
        ((fork.extended.relisted terminals).walkToEnds rules singleTrialRule (.finite (1 / 20)) forward
          settings (.ok draws)).result (fork.extended.relisted terminals) = .ok (estimate, endings) := by
  intro settings draws rules
  have walked : ((fork.extended.runBatch forward .blank settings (.ok draws)).result
      fork.extended).toOption.map (fun batch => (batch.rollouts.map Rollout.final, batch.discarded)) =
        some ([.int 2], 1) := by
    decide +kernel
  cases ran : (fork.extended.runBatch forward .blank settings (.ok draws)).result fork.extended with
  | error fault =>
      rw [ran] at walked
      cases walked
  | ok batch =>
      have run : (fork.extended.walkToEnds rules singleTrialRule (.finite (1 / 20)) forward settings
          (.ok draws)).result fork.extended = .ok _ :=
        Inquiry.result_bind_eq_ok_iff.mpr ⟨batch, ran, rfl⟩
      obtain ⟨⟨found, again, -, complete, accounts⟩, anew⟩ :=
        fork.extended.walkToEnds_accounts rules singleTrialRule _ forward settings (.ok draws) _ _ run
      cases ran.symm.trans again
      rw [ran] at walked
      obtain ⟨finals, discarded⟩ := Prod.mk.inj (Option.some.inj walked)
      exact ⟨_, _, run, ⟨batch, rfl, finals, discarded, complete, accounts⟩, anew⟩

end MarkovDecision
