import Mathlib.Algebra.BigOperators.Group.Finset.Basic
import Mathlib.Algebra.Order.Archimedean.Basic
import Mathlib.Algebra.Order.BigOperators.Group.Finset
import MarkovDecision.Proofs.FixedPoint
import MarkovDecision.Proofs.PolicyIteration.Run
import MarkovDecision.Random.Generator

/-!
# Termination of policy iteration

The values of a round come from a bounded number of backups, so they need not be those of any policy
and may sink from round to round. What the first backup of a round lowers is at most `1 - rate` times
a slack, and the evaluation shrinks the slack. Values of the first backups, less the slack, therefore
never sink, and a round that replaces an action lifts one of them by more than the margin. They stay
below a ceiling, so only finitely many rounds replace an action.
-/

set_option autoImplicit false

namespace MarkovDecision

variable {F : Type} [Field F]

/-- The first backup of a round. -/
def Model.head (model : Model F) (standing : Standing F) : Ident → F :=
  model.follow standing.choice standing.value

private theorem Model.follow_evaluated (model : Model F) (sweeps : Nat) (standing : Standing F) :
    model.follow standing.choice (model.evaluated sweeps standing) =
      (model.follow standing.choice)^[sweeps] (model.head standing) :=
  (Function.iterate_succ_apply' (model.follow standing.choice) sweeps standing.value).symm.trans
    (Function.iterate_succ_apply _ _ _)

variable [LinearOrder F] {model : Model F} {choice : Ident → Ident} {value : Ident → F} {state : Ident}

/-- The first backup of a round lowers no value by more than `1 - rate` times the slack. -/
structure Model.Sinks (model : Model F) (rate slack : F) (standing : Standing F) : Prop where
  nonneg : 0 ≤ slack
  fall_le : ∀ state ∈ model.states,
    standing.value state - model.head standing state ≤ (1 - rate) * slack

/-- The values of the first backup of a round, less the slack, added up. -/
def Model.height (model : Model F) (rate slack : F) (standing : Standing F) : F :=
  ∑ state ∈ model.states.toFinset, (model.head standing state - rate * slack)

theorem Model.Improvable.add_margin_le (better : model.Improvable choice value state) :
    model.follow choice value state + margin ≤
      model.follow (model.improved choice value) value state := by
  have greedy : model.improved choice value state = model.greedy value state := if_pos better
  rw [Model.follow_eq_best greedy]
  exact better.le

variable [IsStrictOrderedRing F]

theorem Model.follow_le_follow_improved (state : Ident) :
    model.follow choice value state ≤ model.follow (model.improved choice value) value state := by
  by_cases better : model.Improvable choice value state
  · exact (le_add_of_nonneg_right margin_pos.le).trans better.add_margin_le
  · have kept : model.improved choice value state = choice state := if_neg better
    exact (Model.follow_congr kept value).ge

/-! ## One round -/

section Advance

variable {rate slack : F} {standing : Standing F} {sweeps : Nat}
  (contracts : Contracts model.states rate (model.follow standing.choice)) (rate_nonneg : 0 ≤ rate)
  (below : rate < 1)

include contracts rate_nonneg below

private theorem Model.Sinks.evaluated_sub_le (sinks : model.Sinks rate slack standing)
    (count : Nat) :
    ∀ state ∈ model.states, model.evaluated count standing state -
      model.follow standing.choice (model.evaluated count standing) state ≤
        rate ^ count * ((1 - rate) * slack) := by
  rw [Model.follow_evaluated]
  exact contracts.iterate_sub_le (mul_nonneg (sub_pos.mpr below).le sinks.nonneg) rate_nonneg
    sinks.fall_le count

theorem Model.Sinks.advance (sinks : model.Sinks rate slack standing) :
    model.Sinks rate (rate ^ sweeps * slack) (model.advance sweeps standing) := by
  refine ⟨mul_nonneg (pow_nonneg rate_nonneg _) sinks.nonneg, fun state member => ?_⟩
  have fall := sinks.evaluated_sub_le contracts rate_nonneg below sweeps state member
  have lifted : model.follow standing.choice (model.evaluated sweeps standing) state ≤
      model.head (model.advance sweeps standing) state :=
    Model.follow_le_follow_improved state
  have arranged : rate ^ sweeps * ((1 - rate) * slack) = (1 - rate) * (rate ^ sweeps * slack) := by
    ring
  change model.evaluated sweeps standing state - _ ≤ _
  linarith

/-- Values of successive backups, less the slack that is left, do not sink. -/
theorem Model.Sinks.head_sub_le (sinks : model.Sinks rate slack standing) (count : Nat) :
    ∀ state ∈ model.states, model.head standing state - rate * slack ≤
      model.follow standing.choice (model.evaluated count standing) state -
        rate * (rate ^ count * slack) := by
  intro state member
  induction count with
  | zero => simp [Model.evaluated, Model.head]
  | succ count ih =>
      refine ih.trans ?_
      have fall := sinks.evaluated_sub_le contracts rate_nonneg below (count + 1) state member
      have next : model.evaluated (count + 1) standing =
          model.follow standing.choice (model.evaluated count standing) :=
        Function.iterate_succ_apply' _ _ _
      have split : rate ^ (count + 1) * ((1 - rate) * slack) =
          rate * (rate ^ count * slack) - rate * (rate ^ (count + 1) * slack) := by
        ring
      rw [split, next] at fall
      rw [next]
      linarith

private theorem Model.Sinks.head_advance (sinks : model.Sinks rate slack standing) :
    ∀ state ∈ model.states, model.head standing state - rate * slack ≤
      model.head (model.advance sweeps standing) state - rate * (rate ^ sweeps * slack) := by
  intro state member
  exact (sinks.head_sub_le contracts rate_nonneg below sweeps state member).trans
    (sub_le_sub_right (Model.follow_le_follow_improved state) _)

private theorem Model.Sinks.height_advance (sinks : model.Sinks rate slack standing)
    (member : state ∈ model.states)
    (better : model.Improvable standing.choice (model.evaluated sweeps standing) state) :
    model.height rate slack standing + margin ≤
      model.height rate (rate ^ sweeps * slack) (model.advance sweeps standing) := by
  let rise := fun state => model.head (model.advance sweeps standing) state -
    rate * (rate ^ sweeps * slack) - (model.head standing state - rate * slack)
  have nonneg : ∀ state ∈ model.states.toFinset, 0 ≤ rise state := fun state listed =>
    sub_nonneg.mpr
      (sinks.head_advance contracts rate_nonneg below state (List.mem_toFinset.mp listed))
  have lifted : margin ≤ rise state := by
    have held := sinks.head_sub_le contracts rate_nonneg below sweeps state member
    have gained : model.follow standing.choice (model.evaluated sweeps standing) state + margin ≤
        model.head (model.advance sweeps standing) state := better.add_margin_le
    simp only [rise]
    linarith
  have total := Finset.single_le_sum nonneg (List.mem_toFinset.mpr member)
  rw [Finset.sum_sub_distrib] at total
  unfold Model.height
  linarith

end Advance

private theorem Model.Sinks.height_le {rate slack ceiling : F} {standing : Standing F}
    (sinks : model.Sinks rate slack standing) (rate_nonneg : 0 ≤ rate)
    (bounded : ∀ state ∈ model.states, |model.head standing state| ≤ ceiling) :
    model.height rate slack standing ≤ model.states.toFinset.card • ceiling := by
  apply Finset.sum_le_card_nsmul
  intro state listed
  have capped := (le_abs_self _).trans (bounded state (List.mem_toFinset.mp listed))
  have weight := mul_nonneg rate_nonneg sinks.nonneg
  linarith

/-! ## Whole runs -/

section Rounds

variable {rate : F} (active : ∀ state ∈ model.states, model.legal state ≠ [])
  (contracts : ∀ choice, model.LegalChoice choice →
    Contracts model.states rate (model.follow choice))
  (rate_nonneg : 0 ≤ rate) (below : rate < 1) (legal : model.LegalChoice choice)

include active contracts legal

theorem Model.Ceiling.abs_standing_le {ceiling : F} (capped : model.Ceiling rate ceiling)
    (sweeps rounds : Nat) :
    ∀ state ∈ model.states, |(model.standing sweeps choice rounds).value state| ≤ ceiling := by
  induction rounds with
  | zero =>
      intro state member
      exact abs_zero.trans_le capped.nonneg
  | succ rounds ih =>
      have lawful := Model.standing_legal active legal sweeps rounds
      rw [Model.standing_succ]
      exact capped.abs_iterate_le lawful (contracts _ lawful) ih sweeps

include rate_nonneg below

/-- While no round is quiet, the height grows by the margin with every round. -/
theorem Model.exists_height (sweeps rounds : Nat)
    (restless : ∀ earlier < rounds, ¬ model.Quiet sweeps choice earlier) {slack : F}
    (sinks : model.Sinks rate slack ⟨choice, 0⟩) :
    ∃ left, model.Sinks rate left (model.standing sweeps choice rounds) ∧
      model.height rate slack ⟨choice, 0⟩ + rounds * margin ≤
        model.height rate left (model.standing sweeps choice rounds) := by
  induction rounds with
  | zero => exact ⟨slack, sinks, by simp [Model.standing]⟩
  | succ rounds ih =>
      obtain ⟨left, sinking, grown⟩ := ih fun earlier before => restless earlier (by omega)
      have lawful := Model.standing_legal active legal sweeps rounds
      have shrinks := contracts _ lawful
      have moves := restless rounds (Nat.lt_succ_self rounds)
      simp only [Model.Quiet, not_forall, not_not] at moves
      obtain ⟨state, member, better⟩ := moves
      rw [Model.standing_succ]
      refine ⟨rate ^ sweeps * left, sinking.advance shrinks rate_nonneg below, ?_⟩
      have step := sinking.height_advance shrinks rate_nonneg below member better
      push_cast
      linarith

/-- Some round is quiet, whatever the number of sweeps. -/
theorem Model.exists_quiet [Archimedean F] (sweeps : Nat) :
    ∃ rounds, model.Quiet sweeps choice rounds := by
  by_contra restless
  rw [not_exists] at restless
  have room : 0 < 1 - rate := sub_pos.mpr below
  let start : Standing F := ⟨choice, 0⟩
  let slack := gap model.states start.value (model.head start) / (1 - rate)
  have sinks : model.Sinks rate slack start := by
    refine ⟨div_nonneg (gap_nonneg _ _ _) room.le, fun state member => ?_⟩
    rw [mul_div_cancel₀ _ room.ne']
    exact (le_abs_self _).trans (abs_sub_le_gap member)
  obtain ⟨ceiling, capped⟩ := model.exists_ceiling below
  let limit := model.states.toFinset.card • ceiling - model.height rate slack start
  obtain ⟨rounds, many⟩ := exists_nat_gt (limit / margin)
  obtain ⟨left, sinking, grown⟩ := Model.exists_height active contracts rate_nonneg below legal sweeps
    rounds (fun earlier _ => restless earlier) sinks
  have lawful := Model.standing_legal active legal sweeps rounds
  have bounded := sinking.height_le rate_nonneg (capped.abs_iterate_le lawful (contracts _ lawful)
    (capped.abs_standing_le active contracts legal sweeps rounds) 1)
  rw [div_lt_iff₀ margin_pos] at many
  simp only [limit] at many
  linarith

end Rounds

section Whole

variable [Archimedean F]

theorem Model.exists_ended (Source : Type) [IndexSource Source] (stochastic : model.Stochastic)
    (active : ∀ state ∈ model.states, model.legal state ≠ [])
    (discount : 0 ≤ model.discount ∧ model.discount < 1) {sweeps : Int} (positive : 0 < sweeps)
    {policy : Policy} (legal : model.LegalPolicy policy) :
    ∃ (result : PolicyIteration (Extended F)) (rounds : Nat),
      (∀ budget, result.rounds.length ≤ budget →
        (model.extended.policyIteration sweeps
          (.given policy : StartingPolicy (Extended F) Source) budget).result model.extended =
            .ok (some result)) ∧
      result.Ended model sweeps.toNat policy.choice rounds := by
  have accepted := stochastic.accepted active
  have lawful : model.extended.LegalPolicy policy := legal
  obtain ⟨begun, entry, takes⟩ := Model.exists_startPolicy Source lawful
  obtain ⟨last, quiet⟩ := Model.exists_quiet active (fun _ => stochastic.follow_contracts discount.1)
    discount.1 discount.2 legal.legalChoice sweeps.toNat
  obtain ⟨rounds, -, ends⟩ := quiet.exists_endsAfter
  obtain ⟨result, run, ended⟩ := Model.result_policyIteration accepted discount positive entry takes
    (Nat.lt_succ_self rounds) ends
  refine ⟨result, rounds, fun budget enough => ?_, ended⟩
  rw [ended.length_eq] at enough
  exact Model.result_policyIteration_mono enough run

variable {Source : Type} [IndexSource Source]

/-- From every legal policy and for every positive number of sweeps, policy iteration comes to a
round that replaces nothing, and it returns after this round for every budget that allows it. -/
theorem Model.policyIteration_terminates (model : Model F) (stochastic : model.Stochastic)
    (active : ∀ state ∈ model.states, model.legal state ≠ [])
    (discount : 0 ≤ model.discount ∧ model.discount < 1) (sweeps : Int) (positive : 1 ≤ sweeps)
    (policy : Policy) (legal : model.LegalPolicy policy) :
    ∃ result : PolicyIteration (Extended F),
      (∀ budget, result.rounds.length ≤ budget →
        (model.extended.policyIteration sweeps
          (.given policy : StartingPolicy (Extended F) Source) budget).result model.extended =
            .ok (some result)) ∧
      ∃ last, result.rounds.getLast? = some last ∧ last.changed = false ∧
        last.policy = result.policy := by
  obtain ⟨result, rounds, runs, ended⟩ :=
    Model.exists_ended Source stochastic active discount positive legal
  obtain ⟨last, latest, kept, still, -⟩ := ended.last
  exact ⟨result, runs, last, latest, still, kept⟩

/-- On the outing with one sweep a round, from the policy that stays. -/
theorem Model.policyIteration_terminates_outing :
    let model := outing 0
    let policy : Policy := .ofKeys model.states fun _ => .text "stay"
    (model.Stochastic ∧ (∀ state ∈ model.states, model.legal state ≠ []) ∧
      (0 ≤ model.discount ∧ model.discount < 1) ∧ (1 : Int) ≤ 1 ∧ model.LegalPolicy policy) ∧
    ∃ result : PolicyIteration (Extended ℚ),
      (∀ budget, result.rounds.length ≤ budget →
        (model.extended.policyIteration 1
          (.given policy : StartingPolicy (Extended ℚ) Generator) budget).result model.extended =
            .ok (some result)) ∧
      ∃ last, result.rounds.getLast? = some last ∧ last.changed = false ∧
        last.policy = result.policy := by
  intro model policy
  have active : ∀ state ∈ model.states, model.legal state ≠ [] := by decide +kernel
  have discount : 0 ≤ model.discount ∧ model.discount < 1 := by decide +kernel
  have legal : model.LegalPolicy policy := by decide +kernel
  exact ⟨⟨outing_stochastic, active, discount, le_rfl, legal⟩,
    Model.policyIteration_terminates model outing_stochastic active discount 1 le_rfl policy legal⟩

end Whole

end MarkovDecision
