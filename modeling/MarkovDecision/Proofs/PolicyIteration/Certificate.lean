import MarkovDecision.Proofs.PolicyIteration.Optimality
import MarkovDecision.Proofs.PolicyIteration.Trace

/-!
# What the last round certifies

The last round of a run replaces nothing, so by the utility that it computed no action gains more than
the margin. One more evaluation of the returned policy tells how far this utility is from the exact
one. Both together bound the distance to the optimum, and what the evaluation still moves is known
beforehand from the first backup of the round.
-/

set_option autoImplicit false

namespace MarkovDecision

variable {F : Type} [Field F] [LinearOrder F] {model : Model F} {choice : Ident → Ident}
  {value computed exact optimum : Ident → F}

/-- The distance by which one more evaluation of the policy moves a utility. -/
def Model.Residual (model : Model F) (policy : Policy) (utility : Utility (Extended F))
    (residual : F) : Prop :=
  ∃ next,
    (model.extended.evaluatePolicy policy 1 (some utility)).result model.extended = .ok next ∧
    Utility.distance next utility = .ok (.finite residual)

/-- The distance by which one more backup of a choice moves values. -/
def Model.drift (model : Model F) (choice : Ident → Ident) (value : Ident → F) : F :=
  gap model.states (model.follow choice value) value

/-- The optimum exceeds the exact utility of the policy by a number from zero to the bound, in every
state. -/
structure Model.OptimalWithin (model : Model F) (policy : Policy) (bound : F) : Prop where
  evaluated : ∃ exact, model.EvaluationFixes policy exact
  solved : ∃ optimum, model.SweepFixes optimum
  near : ∀ exact optimum, model.EvaluationFixes policy exact → model.SweepFixes optimum →
    ∀ state ∈ model.states, ∃ own best, exact.get? state = some own ∧
      optimum.get? state = some best ∧ 0 ≤ best - own ∧ best - own ≤ bound

/-- The utility from which the round at a place was evaluated: that of the round before, and zeros for
the first round. -/
def Model.priorUtility (model : Model F) (result : PolicyIteration (Extended F)) (place : Nat) :
    Utility (Extended F) :=
  (enteringUtility result.rounds place).getD model.extended.zeroUtility

private theorem PolicyIteration.Ended.priorUtility_eq {result : PolicyIteration (Extended F)}
    {sweeps rounds : Nat} (ended : result.Ended model sweeps choice rounds) :
    model.priorUtility result rounds = model.tabled (model.standing sweeps choice rounds).value := by
  cases rounds with
  | zero => exact model.zeroUtility_extended
  | succ rounds =>
      have within : rounds < result.rounds.length := by
        rw [ended.length_eq]
        omega
      have listed : result.rounds[rounds]? = some result.rounds[rounds] :=
        List.getElem?_eq_getElem within
      rw [Model.priorUtility, enteringUtility, previousRound, listed, Model.standing_succ]
      exact (ended.traced rounds _ listed).2.utility

variable [IsStrictOrderedRing F]

private theorem Model.residual_tabled (accepted : model.Accepted)
    (discount : 0 ≤ model.discount ∧ model.discount < 1) {policy : Policy}
    (takes : policy.Takes model.states choice) (legal : model.LegalChoice choice) :
    model.Residual policy (model.tabled value) (model.drift choice value) :=
  ⟨_, Model.result_evaluatePolicy accepted takes legal discount one_pos _ (model.tabled_reads value),
    model.distance_tabled _ _⟩

section Quiet

variable (stochastic : model.Stochastic)
  (active : ∀ state ∈ model.states, model.legal state ≠ [])
  (discount : 0 ≤ model.discount ∧ model.discount < 1)

include stochastic active discount

private theorem Model.optimum_sub_computed_le
    (quiet : ∀ state ∈ model.states, ¬ model.Improvable choice computed state)
    (solved : ∀ state ∈ model.states, model.best optimum state = optimum state) :
    ∀ state ∈ model.states,
      optimum state - computed state ≤ (model.drift choice computed + margin) / (1 - model.discount) := by
  have contracts := stochastic.best_contracts active discount.1
  have slack : 0 ≤ model.drift choice computed + margin :=
    add_nonneg (gap_nonneg _ _ _) margin_pos.le
  apply contracts.sub_le discount.2 slack
  intro state member
  have settled : model.best computed state ≤ model.follow choice computed state + margin :=
    not_lt.mp (quiet state member)
  have moved : model.follow choice computed state - computed state ≤ model.drift choice computed :=
    (le_abs_self _).trans (abs_sub_le_gap member)
  linarith [solved state member]

variable (legal : model.LegalChoice choice)
  (stays : ∀ state ∈ model.states, model.follow choice exact state = exact state)
  (solved : ∀ state ∈ model.states, model.best optimum state = optimum state)

include legal stays solved

private theorem Model.exact_le_optimum : ∀ state ∈ model.states, exact state ≤ optimum state := by
  have contracts := stochastic.best_contracts active discount.1
  refine contracts.le_fixed discount.2 (fun state member => ?_) solved
  calc exact state = model.follow choice exact state := (stays state member).symm
    _ ≤ model.best exact state := Model.backup_le_best exact (legal state member)

private theorem Model.optimum_sub_exact_le
    (quiet : ∀ state ∈ model.states, ¬ model.Improvable choice computed state) :
    ∀ state ∈ model.states, optimum state - exact state ≤
      (2 * model.drift choice computed + margin) / (1 - model.discount) := by
  intro state member
  have above := Model.optimum_sub_computed_le stochastic active discount quiet solved state member
  have contracts := stochastic.follow_contracts discount.1 legal
  have near : |exact state - computed state| ≤
      model.drift choice computed / (1 - model.discount) :=
    contracts.fixed_sub_le_gap discount.2 stays state member
  calc optimum state - exact state
      = (optimum state - computed state) + (computed state - exact state) := by ring
    _ ≤ (model.drift choice computed + margin) / (1 - model.discount) +
          model.drift choice computed / (1 - model.discount) :=
        add_le_add above (abs_sub_le_iff.mp near).2
    _ = (2 * model.drift choice computed + margin) / (1 - model.discount) := by ring

end Quiet

private theorem PolicyIteration.Ended.optimalWithin {result : PolicyIteration (Extended F)}
    {sweeps rounds : Nat} (ended : result.Ended model sweeps choice rounds)
    (stochastic : model.Stochastic) (active : ∀ state ∈ model.states, model.legal state ≠ [])
    (discount : 0 ≤ model.discount ∧ model.discount < 1) (legal : model.LegalChoice choice) :
    let last := model.standing sweeps choice rounds
    model.OptimalWithin result.policy
      ((2 * model.drift last.choice (model.evaluated sweeps last) + margin) /
        (1 - model.discount)) := by
  intro last
  have accepted := stochastic.accepted active
  have lawful := Model.standing_legal active legal sweeps rounds
  refine ⟨stochastic.exists_evaluationFixes discount (ended.takes.legalPolicy lawful),
    stochastic.exists_sweepFixes active discount, ?_⟩
  intro exact optimum evaluated solved state member
  obtain ⟨own, covered, stays⟩ := ended.takes.exists_value accepted evaluated
  obtain ⟨best, known, keeps⟩ := solved.exists_value accepted
  refine ⟨_, _, covered state member, known state member, sub_nonneg.mpr ?_, ?_⟩
  · exact Model.exact_le_optimum stochastic active discount lawful stays keeps state member
  · exact Model.optimum_sub_exact_le stochastic active discount lawful stays keeps ended.ends.quiet
      state member

/-- Every run returns a policy that is optimal within a bound read off its last round: twice the
residual of the last utility, and the margin. The residual is at most that of the utility of the round
before, discounted by the sweeps of the last round. -/
theorem Model.policyIteration_certifies (model : Model F) (stochastic : model.Stochastic)
    (sweeps : Int) (result : PolicyIteration (Extended F)) (returns : model.Returns sweeps result) :
    ∃ place last residual moved, result.rounds.length = place + 1 ∧
      result.rounds[place]? = some last ∧
      model.Residual result.policy last.utility residual ∧
      model.Residual result.policy (model.priorUtility result place) moved ∧
      residual ≤ model.discount ^ sweeps.toNat * moved ∧
      model.OptimalWithin result.policy ((2 * residual + margin) / (1 - model.discount)) := by
  obtain ⟨active, discount, choice, rounds, legal, ended⟩ := returns.exists_ended stochastic
  have accepted := stochastic.accepted active
  have lawful := Model.standing_legal active legal sweeps.toNat rounds
  have contracts := stochastic.follow_contracts discount.1 lawful
  obtain ⟨last, latest, -, -, computed⟩ := ended.last
  rw [List.getLast?_eq_getElem?, ended.length_eq, Nat.add_sub_cancel] at latest
  have residual : ∀ value : Ident → F, model.Residual result.policy (model.tabled value)
      (model.drift (model.standing sweeps.toNat choice rounds).choice value) :=
    fun _ => Model.residual_tabled accepted discount ended.takes lawful
  exact ⟨rounds, last, _, _, ended.length_eq, latest, computed ▸ residual _,
    ended.priorUtility_eq ▸ residual _, contracts.gap_iterate_le discount.1 _ _,
    ended.optimalWithin stochastic active discount legal⟩

/-- On the outing with one sweep a round, from the policy that stays. -/
theorem Model.policyIteration_certifies_outing :
    let model := outing 0
    let policy : Policy := .ofKeys model.states fun _ => .text "stay"
    model.Stochastic ∧ model.LegalPolicy policy ∧
    ∃ (result : PolicyIteration (Extended ℚ)) (budget : Nat),
      (model.extended.policyIteration 1
        (.given policy : StartingPolicy (Extended ℚ) Generator) budget).result model.extended =
          .ok (some result) ∧
      model.Returns 1 result ∧
      ∃ place last residual moved, result.rounds.length = place + 1 ∧
        result.rounds[place]? = some last ∧
        model.Residual result.policy last.utility residual ∧
        model.Residual result.policy (model.priorUtility result place) moved ∧
        residual ≤ model.discount ^ (1 : Int).toNat * moved ∧
        model.OptimalWithin result.policy ((2 * residual + margin) / (1 - model.discount)) := by
  intro model policy
  have active : ∀ state ∈ model.states, model.legal state ≠ [] := by decide +kernel
  have discount : 0 ≤ model.discount ∧ model.discount < 1 := by decide +kernel
  have legal : model.LegalPolicy policy := by decide +kernel
  obtain ⟨result, -, runs, -⟩ :=
    Model.exists_ended Generator outing_stochastic active discount one_pos legal
  have run := runs result.rounds.length le_rfl
  have returns : model.Returns 1 result := ⟨Generator, _, _, _, run⟩
  exact ⟨outing_stochastic, legal, result, _, run, returns,
    Model.policyIteration_certifies model outing_stochastic 1 result returns⟩

end MarkovDecision
