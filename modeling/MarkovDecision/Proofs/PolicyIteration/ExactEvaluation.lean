import MarkovDecision.Proofs.PolicyIteration.Improvement

/-!
# Improvement after exact evaluation

An improvement that compares actions by the exact utility of the policy has no error to set against
the margin. The gain in the states whose action it replaces is a gain of one backup. It carries over to
the exact utilities of the two policies because the backups of the new policy are monotone and lower
the exact utility of the old one nowhere.
-/

set_option autoImplicit false

namespace MarkovDecision

variable {F : Type} [Field F] [LinearOrder F] {model : Model F}

/-- The exact utility of the second policy is nowhere below that of the first, and above it by more
than the margin in the states where they choose differently. Both exist. -/
structure Model.Raises (model : Model F) (before after : Policy) : Prop where
  evaluated : ∃ exact, model.EvaluationFixes before exact
  reevaluated : ∃ exact, model.EvaluationFixes after exact
  rises : ∀ lower upper, model.EvaluationFixes before lower → model.EvaluationFixes after upper →
    ∀ state ∈ model.states, ∃ low high, lower.get? state = some low ∧
      upper.get? state = some high ∧ low ≤ high ∧
      (after.get? state ≠ before.get? state → low + margin < high)

variable [IsStrictOrderedRing F] {choice : Ident → Ident} {value : Ident → F} {state : Ident}

/-- Another action is chosen only where that gains more than the margin, and an action that gains so
much is another one. -/
theorem Model.improved_eq_iff :
    model.improved choice value state = choice state ↔ ¬ model.Improvable choice value state := by
  constructor
  · intro same better
    have raised := better.add_margin_le
    rw [Model.follow_congr same] at raised
    exact absurd raised (not_le.mpr (lt_add_of_pos_right _ margin_pos))
  · exact fun settled => if_neg settled

/-- What an improvement leaves behind that compares by the values of a choice. -/
structure Model.ImprovedTo (model : Model F) (choice : Ident → Ident) (value : Ident → F)
    (before after : Policy) (replaced : Nat) : Prop where
  takes : after.Takes model.states (model.improved choice value)
  changes : ∀ state ∈ model.states,
    after.get? state ≠ before.get? state ↔ model.Improvable choice value state
  counts : replaced = 0 ↔ ∀ state ∈ model.states, after.get? state = before.get? state

private theorem Model.result_improvePolicy_states (accepted : model.Accepted)
    {utility : Utility (Extended F)} (reads : Utility.Reads utility model.states value)
    {policy : Policy} (takes : policy.Takes model.states choice)
    (legal : model.LegalChoice choice) :
    ∃ after replaced,
      (model.extended.improvePolicy utility model.states (policy, 0)).result model.extended =
        .ok (after, replaced) ∧
      model.ImprovedTo choice value policy after replaced := by
  obtain ⟨after, run, chosen, -⟩ :=
    Model.result_improvePolicy accepted reads (fun _ member => member) takes legal 0
  have changes : ∀ state ∈ model.states,
      after.get? state ≠ policy.get? state ↔ model.Improvable choice value state := by
    intro state member
    rw [chosen state member, takes state member, Ne, Option.some_inj, Model.improved_eq_iff, not_not]
  refine ⟨after, _, run, chosen, changes, ?_⟩
  simp only [Nat.zero_add, Finset.card_eq_zero, Finset.filter_eq_empty_iff, List.mem_toFinset]
  refine forall₂_congr fun state member => ?_
  rw [← changes state member, not_not]

omit [IsStrictOrderedRing F] in
theorem Model.ImprovedTo.legalPolicy {before after : Policy} {replaced : Nat}
    (improved : model.ImprovedTo before.choice value before after replaced)
    (legal : model.LegalPolicy before) : model.LegalPolicy after :=
  improved.takes.legalPolicy (Model.improved_legal legal.active legal.legalChoice)

section Exact

variable {before after : Policy} {replaced : Nat} {exact : Ident → F} (stochastic : model.Stochastic)
  (discount : 0 ≤ model.discount ∧ model.discount < 1) (legal : model.LegalPolicy before)
  (stays : ∀ state ∈ model.states, model.follow before.choice exact state = exact state)
  (improved : model.ImprovedTo before.choice exact before after replaced)

include stochastic discount legal stays

theorem Model.EvaluationFixes.eq_exact {utility : Utility F}
    (evaluated : model.EvaluationFixes before utility) :
    ∀ state ∈ model.states, utility.get? state = some (exact state) := by
  have contracts := stochastic.follow_contracts discount.1 legal.legalChoice
  obtain ⟨value, found, keeps⟩ := evaluated.exists_value (stochastic.accepted legal.active) legal
  have same : ∀ state ∈ model.states, value state = exact state := by
    apply contracts.eq_of_sub_eq discount.2
    intro state member
    rw [keeps state member, stays state member]
  intro state member
  rw [found state member, same state member]

include improved

private theorem Model.ImprovedTo.raises : model.Raises before after := by
  have accepted := stochastic.accepted legal.active
  have lawful := improved.legalPolicy legal
  refine ⟨stochastic.exists_evaluationFixes discount legal,
    stochastic.exists_evaluationFixes discount lawful, ?_⟩
  intro lower upper evaluated reevaluated state member
  have found := evaluated.eq_exact stochastic discount legal stays
  obtain ⟨next, held, settles⟩ := improved.takes.exists_value accepted reevaluated
  have level : ∀ other ∈ model.states, exact other - exact other ≤ 0 := fun _ _ => (sub_self _).le
  have close : model.discount * (0 + 0) ≤ margin := by simpa using margin_pos.le
  refine ⟨_, _, found state member, held state member, ?_, fun differs => ?_⟩
  · exact Model.exact_le_of_improved stochastic legal.active discount legal.legalChoice stays level
      level settles close state member
  · have better := (improved.changes state member).mp differs
    simpa using better.add_lt_exact stochastic legal.active discount legal.legalChoice stays level
      level settles close member

private theorem Model.ImprovedTo.nearlyOptimal
    (kept : ∀ state ∈ model.states, after.get? state = before.get? state) :
    model.NearlyOptimal before := by
  have accepted := stochastic.accepted legal.active
  have quiet : ∀ state ∈ model.states, ¬ model.Improvable before.choice exact state := by
    intro state member better
    exact (improved.changes state member).mpr better (kept state member)
  have gain : ∀ state ∈ model.states, model.best exact state ≤ exact state + margin := by
    intro state member
    rw [← stays state member]
    exact not_lt.mp (quiet state member)
  refine ⟨stochastic.exists_evaluationFixes discount legal,
    stochastic.exists_sweepFixes legal.active discount, ?_⟩
  intro lower optimum evaluated solved
  have found := evaluated.eq_exact stochastic discount legal stays
  obtain ⟨best, known, keeps⟩ := solved.exists_value accepted
  rw [Utility.exceedsAtMost_iff (Utility.extended_reads known) (Utility.extended_reads found)]
  exact Model.optimum_le stochastic legal.active discount margin_pos.le gain keeps

end Exact

/-- One improvement of a legal policy by its exact utility. The new policy is legal and nowhere worse,
and by more than the margin better where it chooses differently. If it chooses nowhere differently, the
policy was already nearly optimal. -/
theorem Model.improvePolicy_raises (model : Model F) (stochastic : model.Stochastic)
    (discount : 0 ≤ model.discount ∧ model.discount < 1) (policy : Policy)
    (legal : model.LegalPolicy policy) :
    (∃ exact, model.EvaluationFixes policy exact) ∧
    ∀ exact : Utility F, model.EvaluationFixes policy exact →
      ∃ after replaced,
        (model.extended.improvePolicy exact.extended model.states (policy, 0)).result
            model.extended = .ok (after, replaced) ∧
        model.LegalPolicy after ∧ model.Raises policy after ∧
        (replaced = 0 ↔ ∀ state ∈ model.states, after.get? state = policy.get? state) ∧
        ((∀ state ∈ model.states, after.get? state = policy.get? state) →
          model.NearlyOptimal policy) := by
  refine ⟨stochastic.exists_evaluationFixes discount legal, ?_⟩
  intro exact evaluated
  have accepted := stochastic.accepted legal.active
  obtain ⟨value, found, stays⟩ := evaluated.exists_value accepted legal
  obtain ⟨after, replaced, run, improved⟩ := Model.result_improvePolicy_states accepted
    (Utility.extended_reads found) legal.takes legal.legalChoice
  exact ⟨after, replaced, run, improved.legalPolicy legal,
    improved.raises stochastic discount legal stays, improved.counts,
    improved.nearlyOptimal stochastic discount legal stays⟩

/-- On the outing the policy that stays earns nothing at the first place. Its improvement sets off. -/
theorem Model.improvePolicy_raises_outing :
    let model := outing 0
    let policy : Policy := .ofKeys model.states fun _ => .text "stay"
    let exact : Utility ℚ := .ofKeys model.states fun state => if state = .int 0 then 0 else 2
    (model.Stochastic ∧ (0 ≤ model.discount ∧ model.discount < 1) ∧ model.LegalPolicy policy ∧
      model.EvaluationFixes policy exact) ∧
    ∃ after replaced,
      (model.extended.improvePolicy exact.extended model.states (policy, 0)).result
          model.extended = .ok (after, replaced) ∧
      after.get? (.int 0) ≠ policy.get? (.int 0) ∧
      model.LegalPolicy after ∧ model.Raises policy after ∧
      (replaced = 0 ↔ ∀ state ∈ model.states, after.get? state = policy.get? state) ∧
      ((∀ state ∈ model.states, after.get? state = policy.get? state) →
        model.NearlyOptimal policy) := by
  intro model policy exact
  have discount : 0 ≤ model.discount ∧ model.discount < 1 := by decide +kernel
  have legal : model.LegalPolicy policy := by decide +kernel
  have accepted : model.Accepted := by decide +kernel
  have evaluated : model.EvaluationFixes policy exact :=
    Model.evaluationFixes_of_follow_eq accepted legal discount (by decide +kernel)
  obtain ⟨-, improves⟩ := Model.improvePolicy_raises model outing_stochastic discount policy legal
  obtain ⟨after, replaced, run, lawful, raises, counts, near⟩ := improves exact evaluated
  have sets : ((model.extended.improvePolicy exact.extended model.states (policy, 0)).result
      model.extended).toOption.map (fun improved => improved.1.get? (.int 0)) =
        some (some (.text "set off")) := by
    decide +kernel
  rw [run] at sets
  have moved : after.get? (.int 0) = some (.text "set off") := Option.some_inj.mp sets
  refine ⟨⟨outing_stochastic, discount, legal, evaluated⟩, after, replaced, run, ?_, lawful, raises,
    counts, near⟩
  rw [moved]
  decide +kernel

end MarkovDecision
