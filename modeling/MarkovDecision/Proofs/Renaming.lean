import Mathlib.Algebra.BigOperators.Group.Finset.Basic
import MarkovDecision.Proofs.OrderIndependence
import MarkovDecision.Proofs.Terminals
import MarkovDecision.Proofs.ValueIteration.GreedyPolicy

/-!
# Models under other names

Two models can be one and the same but for the names of their states and actions. The order in which
states, actions and successors are listed may then differ as well. Optimal backups of corresponding
values correspond, hence so do the iterates of value iteration and their changes, and a run on one
side returns after as many sweeps as the run on the other. Policies need not correspond, because ties
may fall differently.
-/

set_option autoImplicit false

namespace MarkovDecision

variable {F : Type} [Field F] {Place : Type} {left right : Model F} {places : List Place}
  {first second : Place → Ident} {rename : Ident → Ident}

/-- The right model is the left one under other names. Every place has a name in each of the two, and
`rename` takes the actions of the left one to those of the right one. -/
structure Model.Renamed (left right : Model F) (places : List Place) (first second : Place → Ident)
    (rename : Ident → Ident) : Prop where
  discount : left.discount = right.discount
  lefts : ∀ state, state ∈ left.states ↔ ∃ place ∈ places, first place = state
  rights : ∀ state, state ∈ right.states ↔ ∃ place ∈ places, second place = state
  firstInj : ∀ place ∈ places, ∀ other ∈ places, first place = first other → place = other
  secondInj : ∀ place ∈ places, ∀ other ∈ places, second place = second other → place = other
  legal : ∀ place ∈ places, ∀ action, action ∈ right.legal (second place) ↔
    ∃ origin ∈ left.legal (first place), rename origin = action
  probability : ∀ place ∈ places, ∀ action ∈ left.legal (first place), ∀ target ∈ places,
    (right.rowAt (second place) (rename action)).probability (second target) =
      (left.rowAt (first place) action).probability (first target)
  reward : ∀ place ∈ places, ∀ action ∈ left.legal (first place), ∀ target ∈ places,
    right.reward (second place) (rename action) (second target) =
      left.reward (first place) action (first target)

/-- The two tables give the names of each place one value. -/
def Utility.Renamed {K : Type} (places : List Place) (first second : Place → Ident)
    (utility other : Utility K) : Prop :=
  ∀ place ∈ places, ∃ value,
    utility.get? (first place) = some value ∧ other.get? (second place) = some value

/-- The same under other names, but for the policy. -/
structure Solution.Renamed {K : Type} (places : List Place) (first second : Place → Ident)
    (solution other : Solution K) : Prop where
  utility : Utility.Renamed places first second solution.utility other.utility
  iterations : solution.iterations = other.iterations
  deltas : solution.deltas = other.deltas
  history : List.Forall₂ (Utility.Renamed places first second) solution.history other.history

/-! ## Means as sums over places -/

variable [LinearOrder F]

/-- A mean does not depend on the order of the row: it is a sum over the states of the model, which
are the names of the places. -/
private theorem Model.mean_eq_sum [DecidableEq Place] {model : Model F} {name : Place → Ident}
    (names : ∀ state, state ∈ model.states ↔ ∃ place ∈ places, name place = state)
    (inj : ∀ place ∈ places, ∀ other ∈ places, name place = name other → place = other)
    {state action : Ident} (accepted : (model.rowAt state action).Accepted model.knows)
    (value : Ident → F) :
    model.mean value state action = ∑ place ∈ places.toFinset,
      (model.rowAt state action).probability (name place) * value (name place) := by
  have each : ∀ entry ∈ (model.rowAt state action).entries, entry.2 * value entry.1 =
      ∑ place ∈ places.toFinset,
        entry.2 * if entry.1 = name place then value (name place) else 0 := by
    intro entry listed
    by_cases zero : entry.2 = 0
    · simp only [zero, zero_mul, Finset.sum_const_zero]
    · obtain ⟨place, member, named⟩ := (names entry.1).mp (accepted.mem_states listed zero)
      rw [Finset.sum_eq_single_of_mem place (List.mem_toFinset.mpr member), if_pos named.symm, named]
      intro other known distinct
      have away : entry.1 ≠ name other := fun same =>
        distinct (inj other (List.mem_toFinset.mp known) place member (same.symm.trans named.symm))
      rw [if_neg away, mul_zero]
  calc model.mean value state action
      = ((model.rowAt state action).entries.map fun entry => ∑ place ∈ places.toFinset,
          entry.2 * if entry.1 = name place then value (name place) else 0).sum :=
        congrArg List.sum (List.map_congr_left each)
    _ = ∑ place ∈ places.toFinset, ((model.rowAt state action).entries.map fun entry =>
          entry.2 * if entry.1 = name place then value (name place) else 0).sum :=
        Multiset.sum_map_sum_map ((model.rowAt state action).entries : Multiset (Ident × F)) _
    _ = ∑ place ∈ places.toFinset,
          (model.rowAt state action).probability (name place) * value (name place) :=
        Finset.sum_congr rfl fun place _ => Row.sum_at _ _ _

/-! ## Backups -/

namespace Model.Renamed

variable [DecidableEq Place] (renamed : left.Renamed right places first second rename)
  (accepted : left.Accepted) (reaccepted : right.Accepted) {value other : Ident → F}

include renamed accepted reaccepted

theorem backup_eq (same : ∀ place ∈ places, value (first place) = other (second place))
    {place : Place} (member : place ∈ places) {action : Ident}
    (legal : action ∈ left.legal (first place)) :
    left.backup value (first place) action =
      right.backup other (second place) (rename action) := by
  have row := accepted.row ((renamed.lefts _).mpr ⟨place, member, rfl⟩) legal
  have rerow := reaccepted.row ((renamed.rights _).mpr ⟨place, member, rfl⟩)
    ((renamed.legal place member _).mpr ⟨action, legal, rfl⟩)
  rw [Model.backup, Model.backup, Model.mean_eq_sum renamed.lefts renamed.firstInj row,
    Model.mean_eq_sum renamed.rights renamed.secondInj rerow]
  refine Finset.sum_congr rfl fun target known => ?_
  have listed := List.mem_toFinset.mp known
  rw [renamed.probability place member action legal target listed,
    renamed.reward place member action legal target listed, renamed.discount, same target listed]

theorem best_eq (same : ∀ place ∈ places, value (first place) = other (second place))
    {place : Place} (member : place ∈ places) :
    left.best value (first place) = right.best other (second place) := by
  have greedy := Model.greedy_mem value
    (accepted.active _ ((renamed.lefts _).mpr ⟨place, member, rfl⟩))
  have regreedy := Model.greedy_mem other
    (reaccepted.active _ ((renamed.rights _).mpr ⟨place, member, rfl⟩))
  apply le_antisymm
  · rw [Model.best, renamed.backup_eq accepted reaccepted same member greedy]
    exact Model.backup_le_best other ((renamed.legal place member _).mpr ⟨_, greedy, rfl⟩)
  · obtain ⟨action, legal, named⟩ := (renamed.legal place member _).mp regreedy
    rw [Model.best, ← named, ← renamed.backup_eq accepted reaccepted same member legal]
    exact Model.backup_le_best value legal

theorem iterate_eq (count : Nat) :
    ∀ place ∈ places, left.iterate count (first place) = right.iterate count (second place) := by
  induction count with
  | zero => exact fun _ _ => rfl
  | succ count ih =>
      intro place member
      rw [Model.iterate_succ, Model.iterate_succ]
      exact renamed.best_eq accepted reaccepted ih member

theorem change_eq (count : Nat) : left.change count = right.change count := by
  have before := renamed.iterate_eq accepted reaccepted count
  have after := renamed.iterate_eq accepted reaccepted (count + 1)
  apply le_antisymm
  · refine gap_le (gap_nonneg _ _ _) fun state listed => ?_
    obtain ⟨place, member, rfl⟩ := (renamed.lefts state).mp listed
    rw [before place member, after place member]
    exact abs_sub_le_gap ((renamed.rights _).mpr ⟨place, member, rfl⟩)
  · refine gap_le (gap_nonneg _ _ _) fun state listed => ?_
    obtain ⟨place, member, rfl⟩ := (renamed.rights state).mp listed
    rw [← before place member, ← after place member]
    exact abs_sub_le_gap ((renamed.lefts _).mpr ⟨place, member, rfl⟩)

theorem settles_iff {epsilon : F} (count : Nat) :
    left.Settles epsilon count ↔ right.Settles epsilon count := by
  rw [Model.Settles, Model.Settles, renamed.discount, renamed.change_eq accepted reaccepted]

/-! ## Value iteration -/

theorem tabled (count : Nat) : Utility.Renamed places first second
    (left.tabled (left.iterate count)) (right.tabled (right.iterate count)) := by
  intro place member
  refine ⟨_, left.tabled_reads _ _ ((renamed.lefts _).mpr ⟨place, member, rfl⟩), ?_⟩
  rw [renamed.iterate_eq accepted reaccepted count place member]
  exact right.tabled_reads _ _ ((renamed.rights _).mpr ⟨place, member, rfl⟩)

theorem solutionAfter (recordHistory : Bool) (count : Nat) :
    Solution.Renamed places first second (left.solutionAfter recordHistory count)
      (right.solutionAfter recordHistory count) where
  utility := renamed.tabled accepted reaccepted count
  iterations := rfl
  deltas := by
    have changes : left.change = right.change := funext (renamed.change_eq accepted reaccepted)
    rw [Model.solutionAfter, Model.solutionAfter, Model.progressAfter_deltas,
      Model.progressAfter_deltas, changes]
  history := by
    cases recordHistory with
    | true =>
        rw [Model.solutionAfter, Model.solutionAfter, Model.progressAfter_history,
          Model.progressAfter_history, List.forall₂_map_left_iff, List.forall₂_map_right_iff]
        exact List.forall₂_same.mpr fun sweep _ => renamed.tabled accepted reaccepted (sweep + 1)
    | false => cases count <;> exact .nil

variable [IsStrictOrderedRing F]

theorem valueIteration_together {epsilon : F} {recordHistory : Bool} {budget : Nat} :
    SucceedTogether (Option.Rel (Solution.Renamed places first second))
      ((left.extended.valueIteration (.finite epsilon) recordHistory budget).result left.extended)
      ((right.extended.valueIteration (.finite epsilon) recordHistory budget).result
        right.extended) := by
  have settles : ∀ count, left.Settles epsilon count ↔ right.Settles epsilon count :=
    renamed.settles_iff accepted reaccepted
  refine .of_forth (fun outcome run => ?_) fun outcome run => ?_
  · obtain ⟨other, rerun, ⟨rfl, rfl⟩ | ⟨count, rfl, rfl⟩⟩ :=
      Model.exists_valueIteration_of_settles accepted reaccepted renamed.discount settles run
    · exact ⟨none, rerun, .none⟩
    · exact ⟨_, rerun, .some (renamed.solutionAfter accepted reaccepted recordHistory _)⟩
  · obtain ⟨other, rerun, -⟩ := Model.exists_valueIteration_of_settles reaccepted accepted
      renamed.discount.symm (fun count => (settles count).symm) run
    exact ⟨other, rerun⟩

omit accepted reaccepted in
/-- With a discount in range both sides return, and their solutions are one under other names. -/
theorem exists_solutions [Archimedean F] (stochastic : left.Stochastic)
    (active : ∀ state ∈ left.states, left.legal state ≠ []) (restochastic : right.Stochastic)
    (reactive : ∀ state ∈ right.states, right.legal state ≠ [])
    (discount : 0 ≤ left.discount ∧ left.discount < 1) {epsilon : F} (positive : 0 < epsilon)
    (recordHistory : Bool) :
    ∃ solution other, Solution.Renamed places first second solution other ∧
      ∀ budget, solution.iterations ≤ budget →
        (left.extended.valueIteration (.finite epsilon) recordHistory budget).result
            left.extended = .ok (some solution) ∧
          (right.extended.valueIteration (.finite epsilon) recordHistory budget).result
            right.extended = .ok (some other) := by
  have rediscount : 0 ≤ right.discount ∧ right.discount < 1 := renamed.discount ▸ discount
  obtain ⟨solution, returns⟩ :=
    Model.exists_solution stochastic active discount positive recordHistory
  obtain ⟨other, rereturns⟩ :=
    Model.exists_solution restochastic reactive rediscount positive recordHistory
  -- With enough sweeps for both, the two runs are compared; then both have made as many.
  have alike : Solution.Renamed places first second solution other := by
    obtain ⟨returned, run, same⟩ := (renamed.valueIteration_together (stochastic.accepted active)
      (restochastic.accepted reactive)).exists_some
        (returns _ (le_max_left _ other.iterations))
    rw [rereturns _ (le_max_right _ _)] at run
    cases run
    exact same
  exact ⟨solution, other, alike, fun budget enough =>
    ⟨returns budget enough, rereturns budget (alike.iterations ▸ enough)⟩⟩

end Model.Renamed

end MarkovDecision
