import MarkovDecision.Proofs.PolicyIteration.Optimality
import MarkovDecision.Proofs.ValueIteration.Convergence

/-!
# The policy that value iteration returns

The returned policy is greedy for the last utility, so one of its backups is the next optimal sweep,
and the stopping rule bounds how far that would move. From this the exact utility of the policy, and
every evaluation of it by a number of sweeps from zero, is close to the returned utility.
-/

set_option autoImplicit false

namespace MarkovDecision

variable {F : Type} [Field F] [LinearOrder F] [IsStrictOrderedRing F] {model : Model F} {epsilon : F}
  {count : Nat} {choice : Ident → Ident}

/-- The sweep after the one that meets the stopping rule moves no state by more than
`(1 - discount) * epsilon`, also without a discount. -/
theorem Model.Settles.change_succ_le (settles : model.Settles epsilon count) (positive : 0 < epsilon)
    (discount : 0 ≤ model.discount ∧ model.discount < 1)
    (contracts : Contracts model.states model.discount model.best) :
    model.change (count + 1) ≤ (1 - model.discount) * epsilon := by
  have shrinks := Model.change_succ_le contracts count
  rcases settles with zero | small
  · rw [zero, zero_mul] at shrinks
    rw [zero, sub_zero, one_mul]
    exact shrinks.trans positive.le
  · rcases discount.1.eq_or_lt with zero | nonzero
    · rw [← zero, zero_mul] at shrinks
      exact shrinks.trans (mul_nonneg (sub_pos.mpr discount.2).le positive.le)
    · calc model.change (count + 1)
          ≤ model.discount * model.change count := shrinks
        _ ≤ model.discount * (epsilon * (1 - model.discount) / model.discount) :=
            mul_le_mul_of_nonneg_left small discount.1
        _ = (1 - model.discount) * epsilon := by
            rw [mul_div_cancel₀ _ nonzero.ne', mul_comm]

section Greedy

variable (settles : model.Settles epsilon count) (positive : 0 < epsilon)
  (discount : 0 ≤ model.discount ∧ model.discount < 1)
  (optimal : Contracts model.states model.discount model.best)
  (contracts : Contracts model.states model.discount (model.follow choice))
  (greedy : ∀ state ∈ model.states, choice state = model.greedy (model.iterate (count + 1)) state)

include settles positive discount optimal greedy

private theorem Model.Settles.abs_follow_sub_le :
    ∀ state ∈ model.states,
      |model.follow choice (model.iterate (count + 1)) state - model.iterate (count + 1) state| ≤
        (1 - model.discount) * epsilon := by
  intro state member
  rw [Model.follow_eq_best (greedy state member), ← Model.iterate_succ]
  exact (abs_sub_le_gap member).trans (settles.change_succ_le positive discount optimal)

include contracts

private theorem Model.Settles.abs_exact_sub_le {exact : Ident → F}
    (stays : ∀ state ∈ model.states, model.follow choice exact state = exact state) :
    ∀ state ∈ model.states, |exact state - model.iterate (count + 1) state| ≤ epsilon :=
  contracts.abs_fixed_sub_le discount.2 positive.le
    (settles.abs_follow_sub_le positive discount optimal greedy) stays

/-- Sweeps from zero first lose what they have not seen yet, which is a power of the discount times
the size of the utility. -/
private theorem Model.gap_evaluated_le (sweeps : Nat) :
    gap model.states ((model.follow choice)^[sweeps] 0) (model.iterate (count + 1)) ≤
      epsilon + model.discount ^ sweeps * gap model.states (model.iterate (count + 1)) 0 := by
  have size := gap_nonneg model.states (model.iterate (count + 1)) 0
  have faded : 0 ≤ model.discount ^ sweeps * gap model.states (model.iterate (count + 1)) 0 :=
    mul_nonneg (pow_nonneg discount.1 _) size
  apply gap_le (add_nonneg positive.le faded)
  intro state member
  have start : ∀ other ∈ model.states, |(0 : Ident → F) other - model.iterate (count + 1) other| ≤
      gap model.states (model.iterate (count + 1)) 0 := by
    intro other listed
    rw [abs_sub_comm]
    exact abs_sub_le_gap listed
  have unseen := contracts.abs_iterates_sub_le size discount.1 start sweeps state member
  have settled := contracts.abs_iterate_sub_self_le positive.le
    (settles.abs_follow_sub_le positive discount optimal greedy) sweeps state member
  calc |(model.follow choice)^[sweeps] 0 state - model.iterate (count + 1) state|
      ≤ |(model.follow choice)^[sweeps] 0 state -
            (model.follow choice)^[sweeps] (model.iterate (count + 1)) state| +
          |(model.follow choice)^[sweeps] (model.iterate (count + 1)) state -
            model.iterate (count + 1) state| := abs_sub_le _ _ _
    _ ≤ model.discount ^ sweeps * gap model.states (model.iterate (count + 1)) 0 + epsilon :=
        add_le_add unseen settled
    _ = epsilon + model.discount ^ sweeps * gap model.states (model.iterate (count + 1)) 0 :=
        add_comm _ _

end Greedy

/-! ## Returned solutions -/

omit [IsStrictOrderedRing F] in
private theorem Model.solutionAfter_policy_takes (model : Model F) (recordHistory : Bool)
    (count : Nat) :
    (model.solutionAfter recordHistory count).policy.Takes model.states
      (model.greedy (model.iterate count)) := by
  intro state member
  simp [Model.solutionAfter, member]

omit [IsStrictOrderedRing F] in
/-- A run that returns has made a sweep, so every state has actions. -/
theorem Model.active_of_valueIteration {recordHistory : Bool} {budget : Nat}
    {solution : Solution (Extended F)}
    (run : (model.extended.valueIteration (.finite epsilon) recordHistory budget).result
      model.extended = .ok (some solution)) :
    ∀ state ∈ model.states, model.legal state ≠ [] := by
  cases budget with
  | zero =>
      obtain ⟨discount, positive⟩ := Model.entry_of_valueIteration run
      rw [Model.result_valueIteration_of_loop discount positive rfl] at run
      cases run
  | succ budget =>
      obtain ⟨_, swept⟩ := Model.exists_sweep_of_valueIteration run
      exact Model.active_of_sweep swept

theorem Model.exists_solution [Archimedean F] (stochastic : model.Stochastic)
    (active : ∀ state ∈ model.states, model.legal state ≠ [])
    (discount : 0 ≤ model.discount ∧ model.discount < 1) (positive : 0 < epsilon)
    (recordHistory : Bool) :
    ∃ solution : Solution (Extended F), ∀ budget, solution.iterations ≤ budget →
      (model.extended.valueIteration (.finite epsilon) recordHistory budget).result model.extended =
        .ok (some solution) := by
  have contracts := stochastic.best_contracts active discount.1
  obtain ⟨enough, settled⟩ := Model.exists_settles contracts discount.2 discount positive
  obtain ⟨last, -, stops⟩ := settled.exists_stopsAfter
  exact ⟨_, fun budget enough => Model.result_valueIteration (stochastic.accepted active)
    recordHistory discount positive enough stops⟩

/-- Value iteration returns a solution, and the policy of every solution is worth what its utility
says. Evaluating it by `sweeps` sweeps from zero comes within `epsilon` and `discount ^ sweeps` times
the greatest size of the utility; its exact utility is within `epsilon` of the returned utility and
within twice `epsilon` of the optimum. -/
theorem Model.valueIteration_policy_worth [Archimedean F] (model : Model F)
    (stochastic : model.Stochastic) (epsilon : F) (recordHistory : Bool) :
    ((∀ state ∈ model.states, model.legal state ≠ []) →
      0 ≤ model.discount ∧ model.discount < 1 → 0 < epsilon →
      ∃ solution : Solution (Extended F), ∀ budget, solution.iterations ≤ budget →
        (model.extended.valueIteration (.finite epsilon) recordHistory budget).result
          model.extended = .ok (some solution)) ∧
    ∀ (budget : Nat) (solution : Solution (Extended F)),
      (model.extended.valueIteration (.finite epsilon) recordHistory budget).result
        model.extended = .ok (some solution) →
      (∀ sweeps : Int, 1 ≤ sweeps → ∃ (evaluated : Utility (Extended F)) (far size : F),
        (model.extended.evaluatePolicy solution.policy sweeps none).result model.extended =
          .ok evaluated ∧
        Utility.distance evaluated solution.utility = .ok (.finite far) ∧
        Utility.distance solution.utility model.extended.zeroUtility = .ok (.finite size) ∧
        far ≤ epsilon + model.discount ^ sweeps.toNat * size) ∧
      (∃ exact, model.EvaluationFixes solution.policy exact) ∧
      (∃ optimum, model.SweepFixes optimum) ∧
      ∀ exact optimum : Utility F,
        model.EvaluationFixes solution.policy exact → model.SweepFixes optimum →
        ∀ state ∈ model.states, ∃ computed own best : F,
          solution.utility.get? state = some (.finite computed) ∧
          exact.get? state = some own ∧ optimum.get? state = some best ∧
          |own - computed| ≤ epsilon ∧ |own - best| ≤ 2 * epsilon := by
  refine ⟨fun active discount positive =>
    Model.exists_solution stochastic active discount positive recordHistory, ?_⟩
  intro budget solution run
  have accepted := stochastic.accepted (Model.active_of_valueIteration run)
  obtain ⟨discount, positive, count, stops, rfl⟩ := Model.solution_of_valueIteration accepted run
  have optimal := stochastic.best_contracts accepted.active discount.1
  let choice := model.greedy (model.iterate (count + 1))
  have takes := model.solutionAfter_policy_takes recordHistory (count + 1)
  have legal : model.LegalChoice choice :=
    fun state member => Model.greedy_mem _ (accepted.active state member)
  have contracts := stochastic.follow_contracts discount.1 legal
  have allowed := takes.legalPolicy legal
  refine ⟨fun sweeps least => ?_, stochastic.exists_evaluationFixes discount allowed,
    stochastic.exists_sweepFixes accepted.active discount,
    fun exact optimum evaluated solved state member => ?_⟩
  · refine ⟨_, _, _, Model.result_evaluatePolicy accepted takes legal discount least none
        model.zeroUtility_reads,
      model.distance_tabled _ _, ?_, Model.gap_evaluated_le stops.settles positive discount optimal
        contracts (fun _ _ => rfl) sweeps.toNat⟩
    rw [Model.zeroUtility_extended]
    exact model.distance_tabled _ _
  · obtain ⟨own, covered, stays⟩ := evaluated.exists_value accepted allowed
    obtain ⟨best, known, keeps⟩ := solved.exists_value accepted
    have near := stops.settles.abs_exact_sub_le positive discount optimal contracts
      (fun _ _ => rfl)
      (fun other listed => (takes.follow_eq own other listed).symm.trans (stays other listed))
      state member
    have close := stops.settles.abs_sub_le positive discount.2 optimal keeps state member
    refine ⟨_, _, _, model.tabled_reads _ state member, covered state member, known state member,
      near, ?_⟩
    calc |own state - best state|
        ≤ |own state - model.iterate (count + 1) state| +
            |model.iterate (count + 1) state - best state| := abs_sub_le _ _ _
      _ ≤ epsilon + epsilon := add_le_add near close
      _ = 2 * epsilon := (two_mul epsilon).symm

/-- On the outing three sweeps return the policy that sets off, whose exact values are `4 / 3` and
`2`. -/
theorem Model.valueIteration_policy_worth_outing :
    let model := outing 0
    let solution := model.solutionAfter true 3
    let exact : Utility ℚ := .ofKeys model.states fun state => if state = .int 0 then 4 / 3 else 2
    (model.Stochastic ∧ (∀ state ∈ model.states, model.legal state ≠ []) ∧
      (0 ≤ model.discount ∧ model.discount < 1) ∧ (0 : ℚ) < 1 / 4 ∧
      (model.extended.valueIteration (.finite (1 / 4)) true 3).result model.extended =
        .ok (some solution) ∧
      (1 : Int) ≤ 2 ∧ model.EvaluationFixes solution.policy exact ∧ model.SweepFixes exact) ∧
    (∃ returned : Solution (Extended ℚ), ∀ budget, returned.iterations ≤ budget →
      (model.extended.valueIteration (.finite (1 / 4)) true budget).result model.extended =
        .ok (some returned)) ∧
    (∃ (evaluated : Utility (Extended ℚ)) (far size : ℚ),
      (model.extended.evaluatePolicy solution.policy 2 none).result model.extended =
        .ok evaluated ∧
      Utility.distance evaluated solution.utility = .ok (.finite far) ∧
      Utility.distance solution.utility model.extended.zeroUtility = .ok (.finite size) ∧
      far ≤ 1 / 4 + model.discount ^ 2 * size) ∧
    ∀ state ∈ model.states, ∃ computed own best : ℚ,
      solution.utility.get? state = some (.finite computed) ∧
      exact.get? state = some own ∧ exact.get? state = some best ∧
      |own - computed| ≤ 1 / 4 ∧ |own - best| ≤ 2 * (1 / 4) := by
  intro model solution exact
  have accepted : model.Accepted := by decide +kernel
  have discount : 0 ≤ model.discount ∧ model.discount < 1 := by decide +kernel
  have positive : (0 : ℚ) < 1 / 4 := by norm_num
  have stops : model.StopsAfter (1 / 4) 2 := by decide +kernel
  have run := Model.result_valueIteration accepted true discount positive (Nat.lt_succ_self 2) stops
  have legal : model.LegalPolicy solution.policy := by decide +kernel
  have evaluated : model.EvaluationFixes solution.policy exact :=
    Model.evaluationFixes_of_follow_eq accepted legal discount (by decide +kernel)
  have fixed : model.SweepFixes exact := Model.sweepFixes_of_best_eq accepted (by decide +kernel)
  obtain ⟨returns, worth⟩ :=
    Model.valueIteration_policy_worth model outing_stochastic (1 / 4) true
  obtain ⟨evaluations, -, -, near⟩ := worth 3 solution run
  exact ⟨⟨outing_stochastic, accepted.active, discount, positive, run, by norm_num, evaluated, fixed⟩,
    returns accepted.active discount positive, evaluations 2 (by norm_num),
    near exact exact evaluated fixed⟩

end MarkovDecision
