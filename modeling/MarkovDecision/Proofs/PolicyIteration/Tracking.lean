import MarkovDecision.Proofs.PolicyIteration.Termination
import MarkovDecision.Proofs.ValueIteration.Plans

/-!
# Policy iteration with one sweep a round

With one sweep a round the evaluation of the improved policy is an optimal backup, but for actions
that were kept because the better one was not better by more than the margin. From the greedy policy
for utility zero the utilities of successive rounds therefore run beside the optimal sweeps, one sweep
ahead of the improvement, and what keeping actions costs fades with the discount.
-/

set_option autoImplicit false

namespace MarkovDecision

variable {F : Type} [Field F] [LinearOrder F] [IsStrictOrderedRing F] {model : Model F}
  {choice : Ident → Ident} {value : Ident → F}

/-! ## One round -/

private theorem Model.abs_follow_improved_sub_best_le {state : Ident}
    (legal : model.improved choice value state ∈ model.legal state) :
    |model.follow (model.improved choice value) value state - model.best value state| ≤ margin := by
  have settled := not_lt.mp (model.not_improvable_improved choice value state)
  have capped : model.follow (model.improved choice value) value state ≤ model.best value state :=
    Model.backup_le_best value legal
  have positive : (0 : F) < margin := margin_pos
  apply abs_sub_le_iff.mpr
  constructor
  · linarith
  · linarith

section Rounds

variable (stochastic : model.Stochastic) (active : ∀ state ∈ model.states, model.legal state ≠ [])
  (discount : 0 ≤ model.discount ∧ model.discount < 1)
  (greedy : ∀ state ∈ model.states, choice state = model.greedy 0 state)

include stochastic active discount greedy

/-- The utility of a round against as many optimal sweeps. The first round makes an optimal sweep, and
each round after it comes within the margin of one. -/
theorem Model.abs_evaluated_sub_sweeps_le (rounds : Nat) :
    ∀ state ∈ model.states,
      |model.evaluated 1 (model.standing 1 choice rounds) state - model.best^[rounds + 1] 0 state| ≤
        margin * (1 - model.discount ^ rounds) / (1 - model.discount) := by
  have lawful : model.LegalChoice choice := fun state member =>
    greedy state member ▸ Model.greedy_mem 0 (active state member)
  have contracts := stochastic.best_contracts active discount.1
  have first : ∀ state ∈ model.states,
      model.evaluated 1 (model.standing 1 choice 0) state = model.best 0 state :=
    fun state member => Model.follow_eq_best (greedy state member)
  have near : ∀ count, ∀ state ∈ model.states,
      |model.evaluated 1 (model.standing 1 choice (count + 1)) state -
        model.best (model.evaluated 1 (model.standing 1 choice count)) state| ≤ margin := by
    intro count state member
    rw [Model.standing_succ]
    exact Model.abs_follow_improved_sub_best_le
      (Model.improved_legal active (Model.standing_legal active lawful 1 count) state member)
  let path := fun count => model.evaluated 1 (model.standing 1 choice count)
  have tracked : ∀ state ∈ model.states,
      |path rounds state - model.best^[rounds] (model.best 0) state| ≤ _ :=
    contracts.abs_sub_iterate_le discount.1 discount.2 margin_pos.le first near rounds
  exact tracked

end Rounds

/-! ## Whole runs -/

variable {Source : Type} [IndexSource Source]

/-- From the greedy policy for utility zero, which exists if every state has actions, policy iteration
with one sweep a round returns, and the utility of each round is near that of as many optimal sweeps
from zero. The bound is that of a geometric sum, which is zero for the first round. -/
theorem Model.policyIteration_tracks_sweeps [Archimedean F] (model : Model F)
    (stochastic : model.Stochastic) (discount : 0 ≤ model.discount ∧ model.discount < 1) :
    ((∀ state ∈ model.states, model.legal state ≠ []) →
      ∃ policy, (model.extended.greedyPolicy model.extended.zeroUtility).result model.extended =
        .ok policy) ∧
    ∀ policy, (model.extended.greedyPolicy model.extended.zeroUtility).result model.extended =
        .ok policy →
      ∃ result : PolicyIteration (Extended F),
        (∀ budget, result.rounds.length ≤ budget →
          (model.extended.policyIteration 1
            (.given policy : StartingPolicy (Extended F) Source) budget).result model.extended =
              .ok (some result)) ∧
        ∀ (place : Nat) (round : Round (Extended F)), result.rounds[place]? = some round →
          round.index = place + 1 ∧
          ∃ lifted, (model.extended.sweepTimes (place + 1) model.extended.zeroUtility).result
              model.extended = .ok lifted ∧
            ∀ state ∈ model.states, ∃ reported swept : F,
              round.utility.get? state = some (.finite reported) ∧
              lifted.get? state = some (.finite swept) ∧
              |reported - swept| ≤
                1 / 10 ^ 12 * (1 - model.discount ^ place) / (1 - model.discount) := by
  have greedy : ∀ active : ∀ state ∈ model.states, model.legal state ≠ [],
      (model.extended.greedyPolicy model.extended.zeroUtility).result model.extended =
        .ok (.ofKeys model.states (model.greedy 0)) := fun active =>
    Model.result_greedyPolicy (stochastic.accepted active) model.zeroUtility_reads
  refine ⟨fun active => ⟨_, greedy active⟩, fun policy run => ?_⟩
  have active := Model.active_of_greedyPolicy run
  have accepted := stochastic.accepted active
  rw [greedy active] at run
  cases run
  have takes := model.greedyPolicy_takes 0
  have lawful : model.LegalChoice (model.greedy 0) := fun state member =>
    Model.greedy_mem 0 (active state member)
  obtain ⟨result, rounds, runs, ended⟩ := Model.exists_ended Source stochastic active discount one_pos
    (takes.legalPolicy lawful)
  refine ⟨result, runs, fun place round listed => ?_⟩
  obtain ⟨index, made⟩ := ended.traced place round listed
  obtain ⟨lifted, swept, reads⟩ :=
    Model.result_sweepTimes accepted model.zeroUtility_reads (place + 1)
  have reports : Utility.Reads round.utility model.states (model.evaluated 1
      (model.standing 1 (Policy.choice (.ofKeys model.states (model.greedy 0))) place)) := by
    rw [made.utility]
    exact model.tabled_reads _
  have near := Model.abs_evaluated_sub_sweeps_le stochastic active discount takes.choice_eq place
  simp only [margin, Nat.cast_pow, Nat.cast_ofNat] at near
  exact ⟨index, lifted, swept, fun state member =>
    ⟨_, _, reports state member, reads state member, near state member⟩⟩

/-- On the outing the greedy policy for utility zero sets off. -/
theorem Model.policyIteration_tracks_sweeps_outing :
    let model := outing 0
    let policy : Policy := .ofKeys model.states fun state =>
      if state = .int 0 then .text "set off" else .text "stay"
    (model.Stochastic ∧ (0 ≤ model.discount ∧ model.discount < 1) ∧
      (∀ state ∈ model.states, model.legal state ≠ []) ∧
      (model.extended.greedyPolicy model.extended.zeroUtility).result model.extended =
        .ok policy) ∧
    ∃ result : PolicyIteration (Extended ℚ),
      (∀ budget, result.rounds.length ≤ budget →
        (model.extended.policyIteration 1
          (.given policy : StartingPolicy (Extended ℚ) Generator) budget).result model.extended =
            .ok (some result)) ∧
      ∀ (place : Nat) (round : Round (Extended ℚ)), result.rounds[place]? = some round →
        round.index = place + 1 ∧
        ∃ lifted, (model.extended.sweepTimes (place + 1) model.extended.zeroUtility).result
            model.extended = .ok lifted ∧
          ∀ state ∈ model.states, ∃ reported swept : ℚ,
            round.utility.get? state = some (.finite reported) ∧
            lifted.get? state = some (.finite swept) ∧
            |reported - swept| ≤
              1 / 10 ^ 12 * (1 - model.discount ^ place) / (1 - model.discount) := by
  intro model policy
  have discount : 0 ≤ model.discount ∧ model.discount < 1 := by decide +kernel
  have active : ∀ state ∈ model.states, model.legal state ≠ [] := by decide +kernel
  have chosen : ∀ state ∈ model.states, (if state = .int 0 then .text "set off" else .text "stay") =
      model.greedy 0 state := by
    decide +kernel
  have same : policy = .ofKeys model.states (model.greedy 0) :=
    congrArg Table.ofPairs (List.map_congr_left fun state member =>
      congrArg (Prod.mk state) (chosen state member))
  have run : (model.extended.greedyPolicy model.extended.zeroUtility).result model.extended =
      .ok policy := by
    rw [same]
    exact Model.result_greedyPolicy (outing_stochastic.accepted active) model.zeroUtility_reads
  exact ⟨⟨outing_stochastic, discount, active, run⟩,
    (Model.policyIteration_tracks_sweeps model outing_stochastic discount).2 policy run⟩

end MarkovDecision
