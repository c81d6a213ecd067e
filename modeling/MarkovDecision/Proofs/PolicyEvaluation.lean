import MarkovDecision.Proofs.PolicyIteration.ExactEvaluation

/-!
# Evaluation from any start

Sweeps of policy evaluation read nothing of their start but the numbers of the states, and what they
have read fades with the discount. So the exact utility of a policy is approached from everywhere at
the same rate. An evaluation can be taken up where another one has stopped: its result passes the
checks again, and the sweeps of both add up.
-/

set_option autoImplicit false

namespace MarkovDecision

/-! ## Evaluation in two parts -/

section Parts

variable {K : Type} [Scalar K] {model : Model K} {policy : Policy}

private theorem Model.policySweeps_add (model : Model K) (policy : Policy) (count more : Nat)
    (utility : Utility K) :
    model.policySweeps policy (count + more) utility =
      model.policySweeps policy count utility >>= model.policySweeps policy more := by
  induction count generalizing utility with
  | zero => rw [Nat.zero_add, Model.policySweeps, pure_bind]
  | succ count ih =>
      rw [Nat.succ_add, Model.policySweeps, Model.policySweeps, bind_assoc]
      exact congrArg _ (funext ih)

/-- Nothing is assumed about the model: if the first part fails, the whole fails the same way. -/
theorem Model.result_evaluatePolicy_add {sweeps more : Int} (positive : 1 ≤ sweeps)
    (further : 1 ≤ more) (start : Option (Utility K)) :
    (model.evaluatePolicy policy (sweeps + more) start).result model = (do
      let reached ← (model.evaluatePolicy policy sweeps start).result model
      (model.evaluatePolicy policy more (some reached)).result model) := by
  have counted : ∀ count : Int, 1 ≤ count → checkCount (K := K) .sweeps count = .ok () :=
    fun count positive => checkCount_eq_ok_iff.mpr positive
  have total : (sweeps + more).toNat = sweeps.toNat + more.toNat := by omega
  simp only [Model.evaluatePolicy, Inquiry.result_bind, Inquiry.result_liftM, counted sweeps positive,
    counted more further, counted (sweeps + more) (by omega), total, Model.policySweeps_add]
  -- The checks of the second part repeat those of the first, which have passed when it begins.
  cases model.checkDiscount with
  | error fault => rfl
  | ok _ =>
      cases model.checkPolicy policy with
      | error fault => rfl
      | ok _ => rfl

end Parts

/-! ## Evaluation from two starts -/

section Starts

variable {F : Type} [Field F] [LinearOrder F] [IsStrictOrderedRing F] {model : Model F}
  {policy : Policy} (stochastic : model.Stochastic)
  (discount : 0 ≤ model.discount ∧ model.discount < 1) (legal : model.LegalPolicy policy)

include stochastic discount legal

/-- Starts that agree in the states lead to the same utility, and others to utilities that are closer
by a power of the discount. What a start has beyond the states is dropped. -/
theorem Model.result_evaluatePolicy_near {sweeps : Int} (positive : 1 ≤ sweeps)
    {first second : Option (Utility (Extended F))} {left right : Ident → F}
    (reads : Utility.Reads (first.getD model.extended.zeroUtility) model.states left)
    (others : Utility.Reads (second.getD model.extended.zeroUtility) model.states right) :
    ∃ near far : Ident → F,
      (model.extended.evaluatePolicy policy sweeps first).result model.extended =
        .ok (model.tabled near) ∧
      (model.extended.evaluatePolicy policy sweeps second).result model.extended =
        .ok (model.tabled far) ∧
      ∀ state ∈ model.states,
        |near state - far state| ≤ model.discount ^ sweeps.toNat * gap model.states left right := by
  have accepted := stochastic.accepted legal.active
  have contracts := stochastic.follow_contracts discount.1 legal.legalChoice
  exact ⟨_, _,
    Model.result_evaluatePolicy accepted legal.takes legal.legalChoice discount positive first reads,
    Model.result_evaluatePolicy accepted legal.takes legal.legalChoice discount positive second others,
    contracts.abs_iterates_sub_le (gap_nonneg _ _ _) discount.1 (fun _ => abs_sub_le_gap) _⟩

theorem Model.EvaluationFixes.unique {exact other : Utility F}
    (fixed : model.EvaluationFixes policy exact) (again : model.EvaluationFixes policy other) :
    ∀ state ∈ model.states, other.get? state = exact.get? state := by
  obtain ⟨value, found, stays⟩ := fixed.exists_value (stochastic.accepted legal.active) legal
  intro state member
  rw [again.eq_exact stochastic discount legal stays state member, found state member]

private theorem Model.distance_evaluatePolicy_le {sweeps : Int} (positive : 1 ≤ sweeps)
    {start : Option (Utility (Extended F))} {read value : Ident → F}
    (reads : Utility.Reads (start.getD model.extended.zeroUtility) model.states read)
    {exact : Utility F} (found : ∀ state ∈ model.states, exact.get? state = some (value state))
    (stays : ∀ state ∈ model.states, model.follow policy.choice value state = value state) :
    ∃ reached distance,
      (model.extended.evaluatePolicy policy sweeps start).result model.extended = .ok reached ∧
      Utility.distance reached exact.extended = .ok (.finite distance) ∧
      distance ≤ model.discount ^ sweeps.toNat * gap model.states read value := by
  have accepted := stochastic.accepted legal.active
  have contracts := stochastic.follow_contracts discount.1 legal.legalChoice
  have target : Utility.Reads exact.extended model.states value := Utility.extended_reads found
  refine ⟨_, _, Model.result_evaluatePolicy accepted legal.takes legal.legalChoice discount positive
    start reads, target.distance_tabled _, ?_⟩
  apply gap_le (mul_nonneg (pow_nonneg discount.1 _) (gap_nonneg _ _ _))
  exact contracts.abs_iterate_sub_le discount.1 (gap_nonneg _ _ _) stays (fun _ => abs_sub_le_gap) _

end Starts

/-- Policy evaluation forgets its start.

1. From two starts with numbers for the states, the utilities after some sweeps differ in every state
   by no more than a power of the discount times the greatest difference of the starts.
2. The policy has an exact utility, which one more sweep reproduces, and no other in the states. Its
   distance from the utility after some sweeps fades in the same way.
3. More sweeps from the utility that is reached are more sweeps from the start. -/
theorem Model.evaluatePolicy_forgets {F : Type} [Field F] [LinearOrder F] [IsStrictOrderedRing F]
    (model : Model F) (stochastic : model.Stochastic)
    (discount : 0 ≤ model.discount ∧ model.discount < 1) (policy : Policy)
    (legal : model.LegalPolicy policy) (sweeps : Int) (positive : 1 ≤ sweeps) :
    let evaluate (sweeps : Int) (start : Option (Utility (Extended F))) :=
      (model.extended.evaluatePolicy policy sweeps start).result model.extended
    let Starts (start : Option (Utility (Extended F))) (read : Ident → F) :=
      Utility.Reads (start.getD model.extended.zeroUtility) model.states read
    (∀ first second left right, Starts first left → Starts second right →
      ∃ near far : Ident → F, evaluate sweeps first = .ok (model.tabled near) ∧
        evaluate sweeps second = .ok (model.tabled far) ∧
        ∀ state ∈ model.states,
          |near state - far state| ≤ model.discount ^ sweeps.toNat * gap model.states left right) ∧
    ((∃ exact, model.EvaluationFixes policy exact) ∧
      ∀ exact, model.EvaluationFixes policy exact →
        (∀ other, model.EvaluationFixes policy other →
          ∀ state ∈ model.states, other.get? state = exact.get? state) ∧
        ∃ value : Ident → F, (∀ state ∈ model.states, exact.get? state = some (value state)) ∧
          ∀ start read, Starts start read → ∃ reached distance,
            evaluate sweeps start = .ok reached ∧
            Utility.distance reached exact.extended = .ok (.finite distance) ∧
            distance ≤ model.discount ^ sweeps.toNat * gap model.states read value) ∧
    ∀ more start, 1 ≤ more → evaluate (sweeps + more) start = (do
      let reached ← evaluate sweeps start
      evaluate more (some reached)) := by
  intro evaluate Starts
  refine ⟨fun first second left right reads others => ?_,
    ⟨stochastic.exists_evaluationFixes discount legal, fun exact fixed => ?_⟩,
    fun more start further => Model.result_evaluatePolicy_add positive further start⟩
  · exact Model.result_evaluatePolicy_near stochastic discount legal positive reads others
  · obtain ⟨value, found, stays⟩ := fixed.exists_value (stochastic.accepted legal.active) legal
    refine ⟨fun other again => fixed.unique stochastic discount legal again, value, found, ?_⟩
    intro start read reads
    exact Model.distance_evaluatePolicy_le stochastic discount legal positive reads found stays

/-- Two sweeps on the outing bring a start that is up to eight off zero, and has a name too many, to
within two of what they make of zero. -/
theorem Model.evaluatePolicy_forgets_outing :
    let model := outing 0
    let policy : Policy := .ofKeys model.states fun _ => .text "stay"
    let start : Utility (Extended ℚ) :=
      .ofPairs [(.int 7, .undefined), (.int 1, .finite 8), (.int 0, .finite 4)]
    let evaluate (sweeps : Int) (start : Option (Utility (Extended ℚ))) :=
      (model.extended.evaluatePolicy policy sweeps start).result model.extended
    (model.Stochastic ∧ (0 ≤ model.discount ∧ model.discount < 1) ∧ model.LegalPolicy policy ∧
      (1 : Int) ≤ 2) ∧
    (∃ near far : Ident → ℚ, evaluate 2 none = .ok (model.tabled near) ∧
      evaluate 2 (some start) = .ok (model.tabled far) ∧
      ∀ state ∈ model.states, |near state - far state| ≤ 2) ∧
    (∃ exact, model.EvaluationFixes policy exact) ∧
    evaluate 5 (some start) = (do
      let reached ← evaluate 2 (some start)
      evaluate 3 (some reached)) := by
  intro model policy start evaluate
  have discount : 0 ≤ model.discount ∧ model.discount < 1 := by decide +kernel
  have legal : model.LegalPolicy policy := by decide +kernel
  obtain ⟨forgets, ⟨fixes, -⟩, continues⟩ :=
    Model.evaluatePolicy_forgets model outing_stochastic discount policy legal 2 (by decide)
  have reads : Utility.Reads start model.states fun state => if state = .int 0 then 4 else 8 := by
    unfold Utility.Reads
    decide +kernel
  obtain ⟨near, far, first, second, close⟩ :=
    forgets none (some start) 0 _ model.zeroUtility_reads reads
  have bound : model.discount ^ (2 : Int).toNat *
      gap model.states 0 (fun state => if state = .int 0 then 4 else 8) = 2 := by
    decide +kernel
  rw [bound] at close
  exact ⟨⟨outing_stochastic, discount, legal, by decide⟩, ⟨near, far, first, second, close⟩, fixes,
    continues 3 (some start) (by decide)⟩

end MarkovDecision
