import Mathlib.Algebra.Order.Archimedean.Basic
import Mathlib.Tactic.FieldSimp
import MarkovDecision.Proofs.ValueIteration.Run

/-!
# Convergence of value iteration

Each change is at most discount times mass times the change before it. So value iteration comes to
an end, with a bound on the number of its sweeps, and over stochastic rows the utility that it
returns is within the demanded bound of every fixed point of the sweep.
-/

set_option autoImplicit false

namespace MarkovDecision

variable {F : Type} [Field F] [LinearOrder F] [IsStrictOrderedRing F] {model : Model F} {epsilon : F}

/-! ## Error -/

theorem Model.Settles.abs_sub_le {count : Nat} {value : Ident → F}
    (settles : model.Settles epsilon count) (positive : 0 < epsilon) (below : model.discount < 1)
    (contracts : Contracts model.states model.discount model.best)
    (fixed : ∀ state ∈ model.states, model.best value state = value state) :
    ∀ state ∈ model.states, |model.iterate (count + 1) state - value state| ≤ epsilon := by
  intro state member
  have room : 0 < 1 - model.discount := sub_pos.mpr below
  have near : |model.iterate (count + 1) state - value state| ≤
      model.discount * model.change count / (1 - model.discount) := by
    rw [Model.iterate_succ]
    refine contracts.near_fixed below (fun other listed => ?_) fixed state member
    rw [← Model.iterate_succ]
    exact abs_sub_le_gap listed
  refine near.trans ?_
  rw [div_le_iff₀ room]
  rcases eq_or_ne model.discount 0 with zero | nonzero
  · rw [zero, zero_mul, sub_zero, mul_one]
    exact positive.le
  · have small := settles.resolve_left nonzero
    rwa [le_div_iff₀ ((contracts.rate_nonneg member).lt_of_ne' nonzero), mul_comm] at small

/-- Whenever value iteration returns, its utility is within `epsilon` of every fixed point of the
sweep, in every state. Discount zero, where the first sweep stops, is included. -/
theorem Model.valueIteration_within_epsilon (model : Model F) (stochastic : model.Stochastic)
    (epsilon : F) (recordHistory : Bool) (budget : Nat) (solution : Solution (Extended F))
    (run : (model.extended.valueIteration (.finite epsilon) recordHistory budget).result
      model.extended = .ok (some solution))
    (optimum : Utility F) (fixed : model.SweepFixes optimum) :
    ∀ state ∈ model.states, ∃ computed exact : F,
      solution.utility.get? state = some (.finite computed) ∧
        optimum.get? state = some exact ∧ |computed - exact| ≤ epsilon := by
  obtain ⟨next, swept, -⟩ := id fixed
  have accepted := stochastic.accepted (Model.active_of_sweep swept)
  obtain ⟨discount, positive, count, stops, rfl⟩ := Model.solution_of_valueIteration accepted run
  obtain ⟨value, covered, stays⟩ := fixed.exists_value accepted
  have contracts := stochastic.best_contracts accepted.active discount.1
  intro state member
  exact ⟨_, _, model.tabled_reads _ state member, covered state member,
    stops.settles.abs_sub_le positive discount.2 contracts stays state member⟩

/-- On the outing three sweeps end within a quarter of the exact values `4 / 3` and `2`. -/
theorem Model.valueIteration_within_epsilon_outing :
    let optimum : Utility ℚ :=
      .ofKeys [.int 0, .int 1] fun state => if state = .int 0 then 4 / 3 else 2
    (outing 0).Stochastic ∧
      ((outing 0).extended.valueIteration (.finite (1 / 4)) true 3).result (outing 0).extended =
        .ok (some ((outing 0).solutionAfter true 3)) ∧
      (outing 0).SweepFixes optimum ∧
      ∀ state ∈ (outing 0).states, ∃ computed exact : ℚ,
        ((outing 0).solutionAfter true 3).utility.get? state = some (.finite computed) ∧
          optimum.get? state = some exact ∧ |computed - exact| ≤ 1 / 4 := by
  intro optimum
  have accepted : (outing 0).Accepted := by decide +kernel
  have stops : (outing 0).StopsAfter (1 / 4) 2 := by decide +kernel
  have run := Model.result_valueIteration accepted true (by decide +kernel) (by norm_num)
    (Nat.lt_succ_self 2) stops
  have fixed : (outing 0).SweepFixes optimum :=
    Model.sweepFixes_of_best_eq accepted (by decide +kernel)
  exact ⟨outing_stochastic, run, fixed,
    Model.valueIteration_within_epsilon _ outing_stochastic _ _ _ _ run _ fixed⟩

/-! ## Termination -/

theorem Model.change_succ_le {rate : F} (contracts : Contracts model.states rate model.best)
    (count : Nat) : model.change (count + 1) ≤ rate * model.change count := by
  unfold Model.change
  rw [model.iterate_succ (count + 1), model.iterate_succ count]
  exact contracts.gap_le_mul _ _

private theorem Model.change_le_pow {rate : F} (contracts : Contracts model.states rate model.best)
    (count : Nat) : model.change count ≤ rate ^ count * model.change 0 := by
  rcases model.states.eq_nil_or_concat with stateless | ⟨others, state, listed⟩
  · simp [Model.change, gap, stateless]
  · have member : state ∈ model.states := by simp [listed]
    have nonneg : 0 ≤ rate := contracts.rate_nonneg member
    induction count with
    | zero => simp
    | succ count ih =>
        calc model.change (count + 1)
            ≤ rate * model.change count := Model.change_succ_le contracts count
          _ ≤ rate * (rate ^ count * model.change 0) := mul_le_mul_of_nonneg_left ih nonneg
          _ = rate ^ (count + 1) * model.change 0 := by ring

theorem Model.exists_settles [Archimedean F] {rate : F}
    (contracts : Contracts model.states rate model.best) (below : rate < 1)
    (discount : 0 ≤ model.discount ∧ model.discount < 1) (positive : 0 < epsilon) :
    ∃ count, model.Settles epsilon count := by
  rcases eq_or_ne model.discount 0 with zero | nonzero
  · exact ⟨0, .inl zero⟩
  · have threshold : 0 < epsilon * (1 - model.discount) / model.discount :=
      div_pos (mul_pos positive (sub_pos.mpr discount.2)) (discount.1.lt_of_ne' nonzero)
    rcases (gap_nonneg model.states (model.iterate 1) (model.iterate 0)).eq_or_lt with still | moves
    · exact ⟨0, .inr (by rw [Model.change, ← still]; exact threshold.le)⟩
    · obtain ⟨count, small⟩ := exists_pow_lt_of_lt_one (div_pos threshold moves) below
      refine ⟨count, .inr ((Model.change_le_pow contracts count).trans ?_)⟩
      exact ((lt_div_iff₀ moves).mp small).le

/-- Value iteration returns one solution for every budget that allows its sweeps. Its changes shrink
by the rate of discount times mass from sweep to sweep, and so would the next one. Without a discount
there is one sweep; otherwise there are no more than `count` sweeps as soon as `count - 1` shrinkings
take the first change to the threshold. -/
theorem Model.valueIteration_terminates [Archimedean F] (model : Model F) (accepted : model.Accepted)
    (mass : F) (massive : model.MassAtMost mass)
    (discount : 0 ≤ model.discount ∧ model.discount < 1) (contracting : model.discount * mass < 1)
    (epsilon : F) (positive : 0 < epsilon) (recordHistory : Bool) :
    ∃ (solution : Solution (Extended F)) (changes : Nat → F),
      (∀ budget, solution.iterations ≤ budget →
        (model.extended.valueIteration (.finite epsilon) recordHistory budget).result
          model.extended = .ok (some solution)) ∧
      0 < solution.iterations ∧
      solution.deltas = (List.range solution.iterations).map (fun sweep => .finite (changes sweep)) ∧
      (∀ sweep, sweep + 1 < solution.iterations →
        changes (sweep + 1) ≤ model.discount * mass * changes sweep) ∧
      (model.discount = 0 → solution.iterations = 1) ∧
      (model.discount ≠ 0 → ∀ count, 1 ≤ count →
        (model.discount * mass) ^ (count - 1) * changes 0 ≤
          epsilon * (1 - model.discount) / model.discount →
        solution.iterations ≤ count) ∧
      ∃ (next : Utility (Extended F)) (move : F),
        (model.extended.sweep solution.utility).result model.extended = .ok next ∧
          Utility.distance next solution.utility = .ok (.finite move) ∧
          move ≤ model.discount * mass * changes (solution.iterations - 1) := by
  have contracts := accepted.best_contracts massive discount.1
  obtain ⟨enough, settled⟩ := Model.exists_settles contracts contracting discount positive
  obtain ⟨last, -, stops⟩ := settled.exists_stopsAfter
  have latest : ∀ sweep, model.Settles epsilon sweep → last ≤ sweep := fun sweep settles =>
    not_lt.mp fun before => stops.earliest sweep before settles
  refine ⟨model.solutionAfter recordHistory (last + 1), model.change, ?_, Nat.succ_pos last,
    model.progressAfter_deltas recordHistory (last + 1), ?_, ?_, ?_, ?_⟩
  · intro budget enough
    exact Model.result_valueIteration accepted recordHistory discount positive enough stops
  · exact fun sweep _ => Model.change_succ_le contracts sweep
  · intro zero
    exact congrArg (· + 1) (Nat.le_zero.mp (latest 0 (.inl zero)))
  · intro _ count _ small
    have settles : model.Settles epsilon (count - 1) :=
      .inr ((Model.change_le_pow contracts (count - 1)).trans small)
    have bounded := latest _ settles
    change last + 1 ≤ count
    omega
  · have swept := Model.result_sweep accepted (model.tabled_reads (model.iterate (last + 1)))
    rw [← Model.iterate_succ] at swept
    exact ⟨_, _, swept, model.distance_tabled _ _, Model.change_succ_le contracts last⟩

/-- On the outing with a row of mass above one. -/
theorem Model.valueIteration_terminates_outing :
    let model := outing (1 / 10 ^ 9)
    let mass : ℚ := 1 + 1 / 10 ^ 9
    (model.Accepted ∧ model.MassAtMost mass ∧ (0 ≤ model.discount ∧ model.discount < 1) ∧
      model.discount * mass < 1 ∧ (0 : ℚ) < 1 / 100) ∧
    ∃ (solution : Solution (Extended ℚ)) (changes : Nat → ℚ),
      (∀ budget, solution.iterations ≤ budget →
        (model.extended.valueIteration (.finite (1 / 100)) true budget).result model.extended =
          .ok (some solution)) ∧
      0 < solution.iterations ∧
      solution.deltas = (List.range solution.iterations).map (fun sweep => .finite (changes sweep)) ∧
      (∀ sweep, sweep + 1 < solution.iterations →
        changes (sweep + 1) ≤ model.discount * mass * changes sweep) ∧
      (model.discount = 0 → solution.iterations = 1) ∧
      (model.discount ≠ 0 → ∀ count, 1 ≤ count →
        (model.discount * mass) ^ (count - 1) * changes 0 ≤
          1 / 100 * (1 - model.discount) / model.discount →
        solution.iterations ≤ count) ∧
      ∃ (next : Utility (Extended ℚ)) (move : ℚ),
        (model.extended.sweep solution.utility).result model.extended = .ok next ∧
          Utility.distance next solution.utility = .ok (.finite move) ∧
          move ≤ model.discount * mass * changes (solution.iterations - 1) := by
  intro model mass
  have given : model.Accepted ∧ model.MassAtMost mass ∧
      (0 ≤ model.discount ∧ model.discount < 1) ∧ model.discount * mass < 1 ∧
      (0 : ℚ) < 1 / 100 := by
    decide +kernel
  exact ⟨given, Model.valueIteration_terminates model given.1 mass given.2.1 given.2.2.1
    given.2.2.2.1 _ given.2.2.2.2 true⟩

end MarkovDecision
