import MarkovDecision.Proofs.PolicyIteration.Optimality
import MarkovDecision.Proofs.ValueIteration.GreedyPolicy
import MarkovDecision.Proofs.Walk.Expectation

/-!
# Values within the discounted reward bound

If no reward that can be earned exceeds a bound in size, then a number of discounted steps come to at
most a geometric sum. One backup takes values within the sum for some steps to values within the sum
for one step more, whichever legal action it follows. Sweeps, evaluations, the rounds of policy
iteration and walks all repeat this one step.
-/

set_option autoImplicit false

namespace MarkovDecision

variable {F : Type} [Field F] [LinearOrder F] {model : Model F} {bound : F}

/-- No reward of a legal action exceeds the bound in size where the successor has positive
probability. -/
def Model.RewardsWithin (model : Model F) (bound : F) : Prop :=
  ∀ state ∈ model.states, ∀ action ∈ model.legal state,
    ∀ entry ∈ (model.rowAt state action).entries, 0 < entry.2 →
      |model.reward state action entry.1| ≤ bound

instance (model : Model F) (bound : F) : Decidable (model.RewardsWithin bound) :=
  inferInstanceAs (Decidable (∀ _ ∈ _, ∀ _ ∈ _, ∀ _ ∈ _, _))

/-- What a number of discounted steps can earn at most. -/
def Model.reach (model : Model F) (bound : F) (count : Nat) : F :=
  bound * (1 - model.discount ^ count) / (1 - model.discount)

/-- A utility with numbers of at most the given size. -/
def Utility.Within (utility : Utility (Extended F)) (states : List Ident) (ceiling : F) : Prop :=
  ∀ state ∈ states, ∃ value, utility.get? state = some (.finite value) ∧ |value| ≤ ceiling

theorem Utility.Reads.within {utility : Utility (Extended F)} {states : List Ident}
    {value : Ident → F} {ceiling : F} (reads : Utility.Reads utility states value)
    (small : ∀ state ∈ states, |value state| ≤ ceiling) : utility.Within states ceiling :=
  fun state member => ⟨value state, reads state member, small state member⟩

variable [IsStrictOrderedRing F]

private theorem Model.abs_zero_le_reach (model : Model F) (bound : F) :
    ∀ state ∈ model.states, |(0 : Ident → F) state| ≤ model.reach bound 0 := by
  simp [Model.reach]

private theorem Model.reach_succ (below : model.discount < 1) (bound : F) (count : Nat) :
    model.reach bound (count + 1) = bound + model.discount * model.reach bound count := by
  have room : 1 - model.discount ≠ 0 := (sub_pos.mpr below).ne'
  rw [Model.reach, Model.reach]
  field_simp
  ring

/-! ## One step -/

private theorem Model.abs_reward_add_le (nonneg : 0 ≤ model.discount) {reward later ceiling : F}
    (now : |reward| ≤ bound) (rest : |later| ≤ ceiling) :
    |reward + model.discount * later| ≤ bound + model.discount * ceiling := by
  calc |reward + model.discount * later|
      ≤ |reward| + |model.discount * later| := abs_add_le _ _
    _ = |reward| + model.discount * |later| := by rw [abs_mul, abs_of_nonneg nonneg]
    _ ≤ bound + model.discount * ceiling :=
        add_le_add now (mul_le_mul_of_nonneg_left rest nonneg)

section Stochastic

variable (stochastic : model.Stochastic) (discount : 0 ≤ model.discount ∧ model.discount < 1)
  (rewards : model.RewardsWithin bound)

include stochastic discount rewards

private theorem Model.RewardsWithin.abs_backup_le {state action : Ident} {value : Ident → F}
    {ceiling : F} (member : state ∈ model.states) (legal : action ∈ model.legal state)
    (small : ∀ other ∈ model.states, |value other| ≤ ceiling) :
    |model.backup value state action| ≤ bound + model.discount * ceiling := by
  have row := stochastic.row member legal
  calc |model.backup value state action|
      ≤ model.mean (fun _ => bound + model.discount * ceiling) state action := by
        apply Model.abs_mean_le_mean row.nonneg
        intro entry listed positive
        exact Model.abs_reward_add_le discount.1 (rewards state member action legal entry listed positive)
          (small entry.1 (row.known entry listed positive))
    _ = bound + model.discount * ceiling := by rw [Model.mean_const, row.mass_eq, one_mul]

/-! ## Repeated steps -/

theorem Model.RewardsWithin.abs_iterate_le {operator : (Ident → F) → Ident → F}
    (backs : ∀ value, ∀ state ∈ model.states, ∃ action ∈ model.legal state,
      operator value state = model.backup value state action)
    {value : Ident → F} {made : Nat}
    (small : ∀ state ∈ model.states, |value state| ≤ model.reach bound made) (count : Nat) :
    ∀ state ∈ model.states, |operator^[count] value state| ≤ model.reach bound (made + count) := by
  induction count with
  | zero => exact small
  | succ count ih =>
      intro state member
      obtain ⟨action, legal, same⟩ := backs (operator^[count] value) state member
      rw [Function.iterate_succ_apply', same, ← Nat.add_assoc, Model.reach_succ discount.2]
      exact rewards.abs_backup_le stochastic discount member legal ih

private theorem Model.RewardsWithin.abs_iterate_best_le
    (active : ∀ state ∈ model.states, model.legal state ≠ []) (count : Nat) :
    ∀ state ∈ model.states, |model.best^[count] 0 state| ≤ model.reach bound count := by
  have backs : ∀ value, ∀ state ∈ model.states, ∃ action ∈ model.legal state,
      model.best value state = model.backup value state action :=
    fun value state member => ⟨_, Model.greedy_mem value (active state member), rfl⟩
  have swept := rewards.abs_iterate_le stochastic discount backs (model.abs_zero_le_reach bound) count
  rwa [Nat.zero_add] at swept

private theorem Model.RewardsWithin.abs_iterate_follow_le {choice : Ident → Ident}
    (legal : model.LegalChoice choice) {value : Ident → F} {made : Nat}
    (small : ∀ state ∈ model.states, |value state| ≤ model.reach bound made) (count : Nat) :
    ∀ state ∈ model.states,
      |(model.follow choice)^[count] value state| ≤ model.reach bound (made + count) := by
  refine rewards.abs_iterate_le stochastic discount ?_ small count
  exact fun _ state member => ⟨choice state, legal state member, rfl⟩

/-- Each round evaluates from where the one before has left off, so the sweeps of all rounds add up,
although the policy changes between them. -/
theorem Model.RewardsWithin.abs_standing_le
    (active : ∀ state ∈ model.states, model.legal state ≠ []) {choice : Ident → Ident}
    (legal : model.LegalChoice choice) (sweeps rounds : Nat) :
    ∀ state ∈ model.states,
      |(model.standing sweeps choice rounds).value state| ≤ model.reach bound (sweeps * rounds) := by
  induction rounds with
  | zero => exact model.abs_zero_le_reach bound
  | succ rounds ih =>
      rw [Model.standing_succ, Nat.mul_succ]
      exact rewards.abs_iterate_follow_le stochastic discount
        (Model.standing_legal active legal sweeps rounds) ih sweeps

end Stochastic

/-! ## Walks -/

section Walks

variable {Source : Type} [UniformSource Source (Extended F)] {policy : Policy} {keep : Bool}
  {position last : Position (Extended F)} {source later : Source} {steps : List (Step (Extended F))}

/-- The first reward of a walk counts in full, and all later ones are discounted once more. -/
theorem Model.Walks.abs_earned_le (stochastic : model.Stochastic)
    (discount : 0 ≤ model.discount ∧ model.discount < 1) (rewards : model.RewardsWithin bound)
    (legal : model.LegalPolicy policy)
    (walks : model.extended.Walks policy keep position source steps last later)
    (member : position.state ∈ model.states) :
    |model.earned policy position.state (steps.map Step.successor)| ≤
      model.reach bound steps.length := by
  induction walks with
  | stand => simp [Model.earned, Model.reach]
  | @step position last source later action successor row steps running chosen looked drawn rest ih =>
      obtain ⟨entry, found, rfl, positive⟩ := Model.exists_drawn_entry looked drawn
      have taken := Policy.choice_of_get? chosen
      have lawful : action ∈ model.legal position.state := taken ▸ legal.legalChoice _ member
      have known := (stochastic.row member lawful).known entry found positive
      rw [List.map_cons, Model.earned, List.length_cons, Model.reach_succ discount.2, taken]
      exact Model.abs_reward_add_le discount.1
        (rewards _ member action lawful entry found positive) (ih known)

private theorem Model.RewardsWithin.abs_total_le (stochastic : model.Stochastic)
    (discount : 0 ≤ model.discount ∧ model.discount < 1) (rewards : model.RewardsWithin bound)
    (legal : model.LegalPolicy policy) {start : Ident} (member : start ∈ model.states)
    {trial limit : Int} {rollout : Rollout (Extended F)}
    (run : (model.extended.rollout policy start trial limit keep source).result model.extended =
      .ok (rollout, later)) :
    ∃ (count : Nat) (total : F), rollout.steps = count ∧ rollout.total = .finite total ∧
      |total| ≤ model.reach bound count := by
  obtain ⟨_, -, -, last, left, ⟨steps, walks, stops, rfl⟩, total, -⟩ :=
    Model.exists_outcome stochastic legal member source keep limit.toNat
  rw [walks.result_rollout stops trial] at run
  split at run
  · cases run
    have length : last.steps = steps.length := walks.steps_eq.trans (Nat.zero_add _)
    exact ⟨steps.length, _, congrArg Nat.cast length, total,
      walks.abs_earned_le stochastic discount rewards legal member⟩
  · cases run

end Walks

/-! ## All runs -/

/-- Whatever sweeps, evaluations, rounds and walks compute is within the discounted reward bound for
as many steps as they have made. -/
structure Model.StaysWithin (model : Model F) (bound : F) : Prop where
  sweeps : ∀ count utility,
    (model.extended.sweepTimes count model.extended.zeroUtility).result model.extended =
      .ok utility →
    utility.Within model.states (model.reach bound count)
  swept : (∀ state ∈ model.states, model.legal state ≠ []) → ∀ count, ∃ utility,
    (model.extended.sweepTimes count model.extended.zeroUtility).result model.extended = .ok utility
  solutions : ∀ (epsilon : F) recordHistory budget solution,
    (model.extended.valueIteration (.finite epsilon) recordHistory budget).result model.extended =
      .ok (some solution) →
    solution.utility.Within model.states (model.reach bound solution.iterations) ∧
    ∀ (index : Nat) (utility : Utility (Extended F)), solution.history[index]? = some utility →
      utility.Within model.states (model.reach bound (index + 1))
  evaluations : ∀ policy sweeps, model.LegalPolicy policy → 1 ≤ sweeps → ∃ utility,
    (model.extended.evaluatePolicy policy sweeps none).result model.extended = .ok utility ∧
    utility.Within model.states (model.reach bound sweeps.toNat)
  rounds : ∀ sweeps result, model.Returns sweeps result → ∀ place round,
    result.rounds[place]? = some round → round.index = place + 1 ∧
      round.utility.Within model.states (model.reach bound (sweeps.toNat * round.index))
  rollouts : ∀ {Source : Type} [UniformSource Source (Extended F)] (policy : Policy)
    (start : Ident) (trial limit : Int) (keep : Bool) (source later : Source)
    (rollout : Rollout (Extended F)), model.LegalPolicy policy → start ∈ model.states →
    (model.extended.rollout policy start trial limit keep source).result model.extended =
      .ok (rollout, later) →
    ∃ (count : Nat) (total : F), rollout.steps = count ∧ rollout.total = .finite total ∧
      |total| ≤ model.reach bound count

section Runs

variable (stochastic : model.Stochastic) (discount : 0 ≤ model.discount ∧ model.discount < 1)
  (rewards : model.RewardsWithin bound)

include stochastic discount rewards

private theorem Model.RewardsWithin.within_sweepTimes {count : Nat} {utility : Utility (Extended F)}
    (run : (model.extended.sweepTimes count model.extended.zeroUtility).result model.extended =
      .ok utility) : utility.Within model.states (model.reach bound count) := by
  cases count with
  | zero =>
      cases run
      exact model.zeroUtility_reads.within (model.abs_zero_le_reach bound)
  | succ count =>
      obtain ⟨_, swept, -⟩ := Inquiry.result_bind_eq_ok_iff.mp run
      have active := Model.active_of_sweep swept
      obtain ⟨lifted, same, reads⟩ := Model.result_sweepTimes (stochastic.accepted active)
        model.zeroUtility_reads (count + 1)
      cases run.symm.trans same
      exact reads.within (rewards.abs_iterate_best_le stochastic discount active (count + 1))

private theorem Model.RewardsWithin.within_solution {epsilon : F} {recordHistory : Bool}
    {budget : Nat} {solution : Solution (Extended F)}
    (run : (model.extended.valueIteration (.finite epsilon) recordHistory budget).result
      model.extended = .ok (some solution)) :
    solution.utility.Within model.states (model.reach bound solution.iterations) ∧
    ∀ (index : Nat) (utility : Utility (Extended F)), solution.history[index]? = some utility →
      utility.Within model.states (model.reach bound (index + 1)) := by
  have active := Model.active_of_valueIteration run
  obtain ⟨-, -, count, -, rfl⟩ :=
    Model.solution_of_valueIteration (stochastic.accepted active) run
  have within : ∀ made,
      (model.tabled (model.iterate made)).Within model.states (model.reach bound made) := fun made =>
    (model.tabled_reads _).within (rewards.abs_iterate_best_le stochastic discount active made)
  refine ⟨within (count + 1), fun index utility recorded => ?_⟩
  rw [Model.history_getElem? recorded]
  exact within (index + 1)

private theorem Model.RewardsWithin.within_evaluatePolicy {policy : Policy} {sweeps : Int}
    (legal : model.LegalPolicy policy) (positive : 1 ≤ sweeps) : ∃ utility,
    (model.extended.evaluatePolicy policy sweeps none).result model.extended = .ok utility ∧
    utility.Within model.states (model.reach bound sweeps.toNat) := by
  have swept := rewards.abs_iterate_follow_le stochastic discount legal.legalChoice
    (model.abs_zero_le_reach bound) sweeps.toNat
  rw [Nat.zero_add] at swept
  exact ⟨_, Model.result_evaluatePolicy (stochastic.accepted legal.active) legal.takes
    legal.legalChoice discount positive none model.zeroUtility_reads,
    (model.tabled_reads _).within swept⟩

private theorem Model.RewardsWithin.within_round {sweeps : Int}
    {result : PolicyIteration (Extended F)}
    (returns : model.Returns sweeps result) {place : Nat} {round : Round (Extended F)}
    (listed : result.rounds[place]? = some round) :
    round.index = place + 1 ∧
      round.utility.Within model.states (model.reach bound (sweeps.toNat * round.index)) := by
  obtain ⟨active, -, choice, rounds, legal, ended⟩ := returns.exists_ended stochastic
  obtain ⟨index, made⟩ := ended.traced place round listed
  have small := rewards.abs_standing_le stochastic discount active legal sweeps.toNat (place + 1)
  refine ⟨index, ?_⟩
  rw [made.utility, index]
  rw [Model.standing_succ] at small
  exact (model.tabled_reads _).within small

end Runs

/-- Over stochastic rows and with a discount below one, all that is computed from zeros stays within
the discounted sum of a bound on the rewards. -/
theorem Model.staysWithin (model : Model F) (stochastic : model.Stochastic)
    (discount : 0 ≤ model.discount ∧ model.discount < 1) (bound : F)
    (rewards : model.RewardsWithin bound) : model.StaysWithin bound where
  sweeps _ _ run := rewards.within_sweepTimes stochastic discount run
  swept active count :=
    let ⟨utility, run, _⟩ := Model.result_sweepTimes (stochastic.accepted active)
      model.zeroUtility_reads count
    ⟨utility, run⟩
  solutions _ _ _ _ run := rewards.within_solution stochastic discount run
  evaluations _ _ legal positive := rewards.within_evaluatePolicy stochastic discount legal positive
  rounds _ _ returns _ _ listed := rewards.within_round stochastic discount returns listed
  rollouts _ _ _ _ _ _ _ _ legal member run :=
    rewards.abs_total_le stochastic discount legal member run

/-- On the trip every reward is one or zero, so two steps earn at most `3 / 2`. -/
theorem Model.staysWithin_trip :
    (trip.Stochastic ∧ (0 ≤ trip.discount ∧ trip.discount < 1) ∧ trip.RewardsWithin 1) ∧
    trip.reach 1 2 = 3 / 2 ∧ trip.StaysWithin 1 := by
  have stochastic : trip.Stochastic := by decide +kernel
  have discount : 0 ≤ trip.discount ∧ trip.discount < 1 := by decide +kernel
  have rewards : trip.RewardsWithin 1 := by decide +kernel
  exact ⟨⟨stochastic, discount, rewards⟩, by decide +kernel,
    Model.staysWithin trip stochastic discount 1 rewards⟩

end MarkovDecision
