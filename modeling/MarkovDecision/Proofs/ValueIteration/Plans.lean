import MarkovDecision.Proofs.Policy
import MarkovDecision.Proofs.ValueIteration.Run

/-!
# Sweeps and plans

A plan lists the policies of successive steps. Evaluated by one sweep for each of its policies, it
comes to the value of following it for as many steps, so the policy that is evaluated first is the one
that is followed last. As many optimal sweeps from zero bound what any plan comes to, and the greedy
policies of their successive utilities form a plan that reaches the bound in every state at once. Rows
may be heavier than one: only the monotonicity of backups is used, not their contraction.
-/

set_option autoImplicit false

namespace MarkovDecision

/-- Evaluate the policies of a plan in turn, each by one sweep from what the one before came to. -/
def Model.evaluatePlan {K : Type} [Scalar K] (model : Model K) :
    List Policy → Utility K → Inquiry K (Utility K)
  | [], utility => return utility
  | policy :: rest, utility => do
    let next ← model.evaluatePolicy policy 1 (some utility)
    model.evaluatePlan rest next

def Model.LegalPlan {K : Type} (model : Model K) (plan : List Policy) : Prop :=
  ∀ policy ∈ plan, model.LegalPolicy policy

instance {K : Type} (model : Model K) (plan : List Policy) : Decidable (model.LegalPlan plan) :=
  inferInstanceAs (Decidable (∀ _ ∈ _, _))

variable {F : Type} [Field F]

/-- The exact values that a plan comes to. -/
def Model.followPlan (model : Model F) : List Policy → (Ident → F) → Ident → F
  | [], value => value
  | policy :: rest, value => model.followPlan rest (model.follow policy.choice value)

private theorem Model.followPlan_replicate (model : Model F) (policy : Policy) (count : Nat)
    (value : Ident → F) :
    model.followPlan (.replicate count policy) value = (model.follow policy.choice)^[count] value := by
  induction count generalizing value with
  | zero => rfl
  | succ count ih =>
      rw [List.replicate_succ, Model.followPlan, Function.iterate_succ_apply]
      exact ih (model.follow policy.choice value)

variable [LinearOrder F]

/-- The greedy policies of the values that successive optimal sweeps lead to. -/
def Model.greedyPlan (model : Model F) : Nat → (Ident → F) → List Policy
  | 0, _ => []
  | count + 1, value =>
    .ofKeys model.states (model.greedy value) :: model.greedyPlan count (model.best value)

variable {model : Model F} {value other : Ident → F} {plan : List Policy} {count place : Nat}

/-! ## Greedy plans -/

private theorem Model.greedyPlan_length (model : Model F) (count : Nat) (value : Ident → F) :
    (model.greedyPlan count value).length = count := by
  induction count generalizing value with
  | zero => rfl
  | succ count ih => rw [Model.greedyPlan, List.length_cons, ih]

private theorem Model.greedyPlan_getElem? (small : place < count) (value : Ident → F) :
    (model.greedyPlan count value)[place]? =
      some (.ofKeys model.states (model.greedy (model.best^[place] value))) := by
  induction count generalizing place value with
  | zero => omega
  | succ count ih =>
      cases place with
      | zero => rfl
      | succ place =>
          rw [Model.greedyPlan, List.getElem?_cons_succ, ih (by omega), Function.iterate_succ_apply]

theorem Model.greedyPolicy_takes (model : Model F) (value : Ident → F) :
    Policy.Takes (.ofKeys model.states (model.greedy value)) model.states (model.greedy value) := by
  intro state member
  simp [member]

private theorem Model.greedyPlan_legal (active : ∀ state ∈ model.states, model.legal state ≠ [])
    (count : Nat) (value : Ident → F) : model.LegalPlan (model.greedyPlan count value) := by
  intro policy listed
  obtain ⟨place, found⟩ := List.mem_iff_getElem?.mp listed
  obtain ⟨small, -⟩ := List.getElem?_eq_some_iff.mp found
  rw [Model.greedyPlan_length] at small
  rw [Model.greedyPlan_getElem? small] at found
  cases found
  exact (model.greedyPolicy_takes _).legalPolicy fun state member =>
    Model.greedy_mem _ (active state member)

/-! ## What plans come to -/

section Evaluation

variable (accepted : model.Accepted)

include accepted

private theorem Model.result_sweepTimes_tabled (count : Nat) (value : Ident → F) :
    (model.extended.sweepTimes count (model.tabled value)).result model.extended =
      .ok (model.tabled (model.best^[count] value)) := by
  induction count generalizing value with
  | zero => rfl
  | succ count ih =>
      rw [Model.sweepTimes, Inquiry.result_bind,
        Model.result_sweep accepted (model.tabled_reads value), ok_bind, ih]
      rfl

variable (discount : 0 ≤ model.discount ∧ model.discount < 1)

include discount

private theorem Model.result_evaluatePlan (legal : model.LegalPlan plan) (value : Ident → F) :
    (model.extended.evaluatePlan plan (model.tabled value)).result model.extended =
      .ok (model.tabled (model.followPlan plan value)) := by
  induction plan generalizing value with
  | nil => rfl
  | cons policy rest ih =>
      have first := legal policy List.mem_cons_self
      have evaluated := Model.result_evaluatePolicy accepted first.takes first.legalChoice discount
        one_pos (some (model.tabled value)) (model.tabled_reads value)
      rw [Model.evaluatePlan, Inquiry.result_bind, evaluated, ok_bind]
      exact ih (fun later listed => legal later (List.mem_cons_of_mem _ listed)) _

/-- In each step the greedy policy gets what the optimal sweep gets. -/
private theorem Model.result_evaluatePlan_greedy (count : Nat) (value : Ident → F) :
    (model.extended.evaluatePlan (model.greedyPlan count value) (model.tabled value)).result
        model.extended = .ok (model.tabled (model.best^[count] value)) := by
  induction count generalizing value with
  | zero => rfl
  | succ count ih =>
      have legal : model.LegalChoice (model.greedy value) := fun state member =>
        Model.greedy_mem value (accepted.active state member)
      have evaluated := Model.result_evaluatePolicy accepted (model.greedyPolicy_takes value) legal
        discount one_pos (some (model.tabled value)) (model.tabled_reads value)
      rw [Model.greedyPlan, Model.evaluatePlan, Inquiry.result_bind, evaluated, ok_bind]
      exact ih (model.best value)

end Evaluation

/-! ## The bound -/

section Bound

variable [IsStrictOrderedRing F] (accepted : model.Accepted) (discount : 0 ≤ model.discount)
  (below : ∀ state ∈ model.states, value state ≤ other state)

include accepted discount below

private theorem Model.Accepted.backup_mono {state action : Ident} (member : state ∈ model.states)
    (legal : action ∈ model.legal state) :
    model.backup value state action ≤ model.backup other state action := by
  have row := accepted.row member legal
  refine Model.mean_mono row.nonneg fun entry listed positive => ?_
  have later := below entry.1 (row.mem_states listed positive.ne')
  exact add_le_add_right (mul_le_mul_of_nonneg_left later discount) _

private theorem Model.Accepted.follow_le_best {choice : Ident → Ident}
    (legal : model.LegalChoice choice) :
    ∀ state ∈ model.states, model.follow choice value state ≤ model.best other state := by
  intro state member
  exact (accepted.backup_mono discount below member (legal state member)).trans
    (Model.backup_le_best other (legal state member))

private theorem Model.Accepted.followPlan_le (legal : model.LegalPlan plan) :
    ∀ state ∈ model.states,
      model.followPlan plan value state ≤ model.best^[plan.length] other state := by
  induction plan generalizing value other with
  | nil => exact below
  | cons policy rest ih =>
      have first := (legal policy List.mem_cons_self).legalChoice
      exact ih (accepted.follow_le_best discount below first)
        fun later listed => legal later (List.mem_cons_of_mem _ listed)

end Bound

/-! ## The best plan -/

/-- Optimal sweeps from zero come to the most that a plan of as many steps can come to: no plan
exceeds them in any state, following one policy throughout included, and the plan of the greedy
policies of their successive utilities comes to the same utility. -/
theorem Model.sweepTimes_eq_bestPlan [IsStrictOrderedRing F] (model : Model F)
    (accepted : model.Accepted) (discount : 0 ≤ model.discount ∧ model.discount < 1) (count : Nat)
    (positive : 1 ≤ count) :
    ∃ top : Utility (Extended F),
      (model.extended.sweepTimes count model.extended.zeroUtility).result model.extended = .ok top ∧
      (∀ plan, plan.length = count → model.LegalPlan plan →
        ∃ reached, (model.extended.evaluatePlan plan model.extended.zeroUtility).result
            model.extended = .ok reached ∧ reached.ExceedsAtMost top model.states 0) ∧
      (∀ policy, model.LegalPolicy policy →
        ∃ reached, (model.extended.evaluatePolicy policy count none).result model.extended =
            .ok reached ∧ reached.ExceedsAtMost top model.states 0) ∧
      ∃ plan : List Policy, plan.length = count ∧ model.LegalPlan plan ∧
        (∀ place policy, plan[place]? = some policy → ∃ before,
          (model.extended.sweepTimes place model.extended.zeroUtility).result model.extended =
              .ok before ∧
            (model.extended.greedyPolicy before).result model.extended = .ok policy) ∧
        (model.extended.evaluatePlan plan model.extended.zeroUtility).result model.extended =
          .ok top := by
  rw [Model.zeroUtility_extended]
  have bounded : ∀ plan, plan.length = count → model.LegalPlan plan →
      Utility.ExceedsAtMost (model.tabled (model.followPlan plan 0))
        (model.tabled (model.best^[count] 0)) model.states 0 := by
    rintro plan rfl legal
    rw [Utility.exceedsAtMost_iff (model.tabled_reads _) (model.tabled_reads _)]
    intro state member
    rw [add_zero]
    exact accepted.followPlan_le discount.1 (fun _ _ => le_rfl) legal state member
  refine ⟨_, Model.result_sweepTimes_tabled accepted count 0, ?_, ?_, model.greedyPlan count 0,
    model.greedyPlan_length count 0, Model.greedyPlan_legal accepted.active count 0, ?_,
    Model.result_evaluatePlan_greedy accepted discount count 0⟩
  · intro plan length legal
    exact ⟨_, Model.result_evaluatePlan accepted discount legal 0, bounded plan length legal⟩
  · intro policy legal
    have throughout := bounded (.replicate count policy) List.length_replicate
      fun _ listed => List.eq_of_mem_replicate listed ▸ legal
    rw [Model.followPlan_replicate] at throughout
    exact ⟨_, Model.result_evaluatePolicy accepted legal.takes legal.legalChoice discount
      (Int.natCast_pos.mpr positive) none model.zeroUtility_reads, throughout⟩
  · intro place policy found
    obtain ⟨small, -⟩ := List.getElem?_eq_some_iff.mp found
    rw [Model.greedyPlan_length] at small
    rw [Model.greedyPlan_getElem? small] at found
    cases found
    exact ⟨_, Model.result_sweepTimes_tabled accepted place 0,
      Model.result_greedyPolicy accepted (model.tabled_reads _)⟩

/-- On the outing with a row of mass above one, where staying for three steps and setting off for
three steps are two of the plans. -/
theorem Model.sweepTimes_eq_bestPlan_outing :
    let model := outing (1 / 10 ^ 9)
    let staying : Policy := .ofKeys model.states fun _ => .text "stay"
    let leaving : Policy := .ofKeys model.states fun state =>
      if state = .int 0 then .text "set off" else .text "stay"
    (model.Accepted ∧ (0 ≤ model.discount ∧ model.discount < 1) ∧ 1 ≤ 3 ∧
      model.LegalPlan [staying, staying, leaving] ∧ model.LegalPolicy leaving) ∧
    ∃ top : Utility (Extended ℚ),
      (model.extended.sweepTimes 3 model.extended.zeroUtility).result model.extended = .ok top ∧
      (∃ reached, (model.extended.evaluatePlan [staying, staying, leaving]
          model.extended.zeroUtility).result model.extended = .ok reached ∧
        reached.ExceedsAtMost top model.states 0) ∧
      (∃ reached, (model.extended.evaluatePolicy leaving 3 none).result model.extended =
          .ok reached ∧ reached.ExceedsAtMost top model.states 0) ∧
      ∃ plan : List Policy, plan.length = 3 ∧ model.LegalPlan plan ∧
        (∀ place policy, plan[place]? = some policy → ∃ before,
          (model.extended.sweepTimes place model.extended.zeroUtility).result model.extended =
              .ok before ∧
            (model.extended.greedyPolicy before).result model.extended = .ok policy) ∧
        (model.extended.evaluatePlan plan model.extended.zeroUtility).result model.extended =
          .ok top := by
  intro model staying leaving
  have given : model.Accepted ∧ (0 ≤ model.discount ∧ model.discount < 1) ∧ 1 ≤ 3 ∧
      model.LegalPlan [staying, staying, leaving] ∧ model.LegalPolicy leaving := by
    decide +kernel
  obtain ⟨top, swept, plans, policies, best⟩ :=
    Model.sweepTimes_eq_bestPlan model given.1 given.2.1 3 given.2.2.1
  exact ⟨given, top, swept, plans _ rfl given.2.2.2.1, policies leaving given.2.2.2.2, best⟩

end MarkovDecision
