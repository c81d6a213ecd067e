import MarkovDecision.Proofs.Validation
import MarkovDecision.Proofs.Walk.Run

/-!
# Validated models run without faults

Validation passes entries by the sign of their probability, sums pass over entries that are zero, and
draws over entries that are not positive. On exact numbers without negative entries the three agree,
and a row whose mass is near one has a positive entry. So a valid model is ready: every solver returns
what its budget allows, and a rollout fails only by using up its steps.
-/

set_option autoImplicit false

namespace MarkovDecision

section Ready

variable {K : Type} [Scalar K]

/-- After the entry checks neither a solver nor a rollout fails, except that a walk may be cut. Draws
always find a successor, and a walk stays within the states. -/
structure Model.RunsWithoutFaults (model : Model K) : Prop where
  valueIteration : ∀ epsilon : K, Scalar.below Scalar.zero epsilon = true →
    ∀ (recordHistory : Bool) (budget : Nat), ∃ outcome,
      (model.valueIteration epsilon recordHistory budget).result model = .ok outcome
  evaluatePolicy : ∀ policy, model.checkPolicy policy = .ok () → ∀ sweeps : Int, 1 ≤ sweeps →
    ∀ start : Option (Utility K), (∀ given ∈ start, Utility.Covers given model.states) →
      ∃ utility, (model.evaluatePolicy policy sweeps start).result model = .ok utility
  policyIteration : ∀ {Source : Type} [IndexSource Source] (start : StartingPolicy K Source),
    start.Admissible model → ∀ sweeps : Int, 1 ≤ sweeps → ∀ budget : Nat, ∃ outcome,
      (model.policyIteration sweeps start budget).result model = .ok outcome
  rollout : ∀ policy, model.checkPolicy policy = .ok () → ∀ start ∈ model.states,
    ∀ {Source : Type} [UniformSource Source K] (source : Source) (trial limit : Int) (keep : Bool),
      ∃ steps last later, model.Walks policy keep (.start start) source steps last later ∧
        model.Stops limit.toNat steps last ∧ last.state ∈ model.states ∧
        (∀ step ∈ steps, step.state ∈ model.states ∧ step.successor ∈ model.states) ∧
        (model.rollout policy start trial limit keep source).result model =
          if model.isTerminal last.state then .ok (last.rollout trial, later)
          else .error (.walkCut trial limit last.state)

private theorem Model.Ready.runsWithoutFaults {model : Model K} (ready : model.Ready)
    (discount : model.checkDiscount = .ok ())
    (bottom : ∀ value : K, Scalar.below value Scalar.negInf = false)
    (above : ∀ value : K, Scalar.below Scalar.zero value = true →
      Scalar.atMost value Scalar.zero = false) : model.RunsWithoutFaults where
  valueIteration epsilon positive recordHistory budget := by
    obtain ⟨outcome, run, -⟩ :=
      ready.sweepable.gives_valueIteration recordHistory discount (above epsilon positive) budget
    exact ⟨outcome, run⟩
  evaluatePolicy policy checked sweeps positive start covers := by
    have legal := Model.checkPolicy_eq_ok_iff.mp checked
    obtain ⟨utility, run, -⟩ := ready.gives_evaluatePolicy legal discount positive covers
    exact ⟨utility, run⟩
  policyIteration start admissible sweeps positive budget := by
    obtain ⟨outcome, run, -⟩ :=
      ready.gives_policyIteration bottom discount positive admissible budget
    exact ⟨outcome, run⟩
  rollout policy checked start member _ _ source trial limit keep := by
    have legal := Model.checkPolicy_eq_ok_iff.mp checked
    have stands : (Position.start start : Position K).state ∈ model.states := member
    obtain ⟨steps, last, later, walks, stops⟩ :=
      ready.exists_walks legal stands limit.toNat source
    obtain ⟨ends, visits⟩ := walks.mem_states ready legal stands
    exact ⟨steps, last, later, walks, stops, ends, visits, walks.result_rollout stops trial⟩

end Ready

variable {F : Type} [Field F] [LinearOrder F]

private theorem Extended.not_atMost_zero {value : Extended F}
    (positive : Scalar.below Scalar.zero value = true) :
    Scalar.atMost value Scalar.zero = false := by
  rw [Extended.zero_eq] at positive ⊢
  cases value with
  | finite value =>
      rw [Extended.below_finite, decide_eq_true_eq] at positive
      rw [Extended.atMost_finite, decide_eq_false_iff_not]
      exact positive.not_ge
  | posInf => rfl
  | negInf => cases positive
  | undefined => cases positive

variable [IsStrictOrderedRing F] {model : Model F}

private theorem Row.Accepted.exists_pos {row : Row F} {admits : Ident → Bool}
    (accepted : row.Accepted admits) :
    ∃ entry ∈ row.entries, 0 < entry.2 := by
  -- Otherwise the mass is zero, which is not near one.
  by_contra weightless
  have zero : ∀ number ∈ row.entries.map Prod.snd, number = 0 := by
    intro number member
    obtain ⟨entry, listed, rfl⟩ := List.mem_map.mp member
    exact le_antisymm (not_lt.mp fun positive => weightless ⟨entry, listed, positive⟩)
      (accepted.nonneg entry listed)
  have near := accepted.near
  rw [Row.mass, List.sum_eq_zero zero, zero_sub, abs_neg, abs_one] at near
  norm_num at near

theorem Row.Accepted.usable {row : Row F} (accepted : row.Accepted model.knows) :
    Row.Usable row.extended model.states := by
  have entries : ∀ {holds : Ident × Extended F → Prop}, (∀ entry ∈ row.extended.entries, holds entry) ↔
      ∀ entry ∈ row.entries, holds (entry.1, .finite entry.2) := List.forall_mem_map
  refine ⟨entries.mpr fun entry listed weighed => ?_, entries.mpr fun entry listed drawn => ?_, ?_⟩
  · rw [Extended.zero_eq, Extended.equal_finite, decide_eq_false_iff_not] at weighed
    exact accepted.mem_states listed weighed
  · rw [Extended.zero_eq, Extended.atMost_finite, decide_eq_false_iff_not] at drawn
    exact accepted.mem_states listed (not_le.mp drawn).ne'
  · obtain ⟨entry, listed, positive⟩ := accepted.exists_pos
    refine ⟨_, List.mem_map.mpr ⟨entry, listed, rfl⟩, ?_⟩
    rw [Extended.zero_eq, Extended.atMost_finite, decide_eq_false_iff_not]
    exact positive.not_ge

theorem Model.Accepted.ready (accepted : model.Accepted) : model.extended.Ready where
  active := accepted.active
  usable _ member _ legal :=
    ⟨_, accepted.row_eq_ok member legal, (accepted.row member legal).usable⟩

/-- If validation passes and the discount is in range, no solver and no rollout fails on its way. -/
theorem Model.validated_runsWithoutFaults (model : Model F)
    (discount : 0 ≤ model.discount ∧ model.discount < 1)
    (validated : model.extended.validate.result model.extended = .ok ()) :
    model.extended.RunsWithoutFaults := by
  have accepted := (Model.result_validate_iff.mp validated).accepted
  exact accepted.ready.runsWithoutFaults (Model.checkDiscount_extended_iff.mpr discount)
    Extended.below_negInf fun _ => Extended.not_atMost_zero

theorem Model.validated_runsWithoutFaults_trip :
    (0 ≤ trip.discount ∧ trip.discount < 1) ∧
      trip.extended.validate.result trip.extended = .ok () ∧ trip.extended.RunsWithoutFaults := by
  have discount : 0 ≤ trip.discount ∧ trip.discount < 1 := by decide +kernel
  have validated := Model.result_validate_iff.mpr trip_valid
  exact ⟨discount, validated, Model.validated_runsWithoutFaults trip discount validated⟩

end MarkovDecision
