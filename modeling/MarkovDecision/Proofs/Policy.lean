import MarkovDecision.Proofs.Sweep
import MarkovDecision.Solve.PolicyIteration

/-!
# Policies and their evaluation

A policy passes its check exactly if it has a legal action in every state, and so does every policy
from which policy iteration starts. With exact numbers, evaluating such a policy repeats the backups
of its choice.
-/

set_option autoImplicit false

namespace MarkovDecision

/-! ## Legal policies -/

section Legal

variable {K : Type} {model : Model K} {policy : Policy}

def Model.LegalPolicy (model : Model K) (policy : Policy) : Prop :=
  ∀ state ∈ model.states, ∃ action ∈ model.legal state, policy.get? state = some action

instance (model : Model K) (policy : Policy) : Decidable (model.LegalPolicy policy) :=
  inferInstanceAs (Decidable (∀ _ ∈ _, ∃ _ ∈ _, _))

private theorem Model.checkLegal_eq_ok_iff (states : List Ident) :
    model.checkLegal policy states = .ok () ↔
      ∀ state ∈ states, ∃ action ∈ model.legal state, policy.get? state = some action := by
  induction states with
  | nil => simp [Model.checkLegal]
  | cons state rest ih =>
      rw [Model.checkLegal, List.forall_mem_cons, ← ih, bind_eq_ok_iff]
      constructor
      · rintro ⟨chosen, found, run⟩
        obtain ⟨actions, listed, run⟩ := bind_eq_ok_iff.mp run
        obtain ⟨rfl, -⟩ := Model.eq_legal_of_actions listed
        split at run
        · next legal => exact ⟨⟨chosen, legal, Table.get?_of_demand found⟩, run⟩
        · cases run
      · rintro ⟨⟨chosen, legal, found⟩, run⟩
        refine ⟨chosen, Table.demand_eq_ok found, ?_⟩
        rw [Model.actions_eq_ok (List.ne_nil_of_mem legal), ok_bind, if_pos legal]
        exact run

/-- The two passes of the check, first for missing and then for illegal actions, accept together
exactly the legal policies. -/
theorem Model.checkPolicy_eq_ok_iff :
    model.checkPolicy policy = .ok () ↔ model.LegalPolicy policy := by
  unfold Model.checkPolicy Model.LegalPolicy
  rw [← Model.checkLegal_eq_ok_iff]
  split
  · next first others missing =>
      have unseen : first ∈ model.states ∧ policy.contains first = false := by
        have member : first ∈ model.states.filter fun state => !policy.contains state := by
          rw [missing]
          exact List.mem_cons_self
        simpa using member
      constructor
      · intro run
        cases run
      · intro run
        obtain ⟨action, -, found⟩ := (Model.checkLegal_eq_ok_iff _).mp run first unseen.1
        simp [Table.contains, found] at unseen
  · rfl

section Starting

variable {Source : Type} [IndexSource Source]

/-- Drawn actions are legal in the states that were visited, and earlier choices in other states
stay. -/
theorem Model.drawActions_legal {states : List Ident} {source : Source} {start drawn : Policy}
    (run : model.drawActions states source start = .ok drawn) :
    ∀ state, (state ∈ states → ∃ action ∈ model.legal state, drawn.get? state = some action) ∧
      (state ∉ states → drawn.get? state = start.get? state) := by
  induction states generalizing source start with
  | nil =>
      cases run
      simp
  | cons first rest ih =>
      obtain ⟨actions, listed, run⟩ := bind_eq_ok_iff.mp run
      obtain ⟨rfl, -⟩ := Model.eq_legal_of_actions listed
      dsimp only at run
      split at run
      · cases run
      · next action chosen =>
          have later := ih run
          intro state
          by_cases again : state ∈ rest
          · exact ⟨fun _ => (later state).1 again,
              fun absent => absurd (List.mem_cons_of_mem _ again) absent⟩
          · have kept := (later state).2 again
            rw [Table.get?_insert] at kept
            constructor
            · intro member
              have here := (List.mem_cons.mp member).resolve_right again
              subst here
              exact ⟨action, List.mem_of_getElem? chosen, by rw [kept, if_pos rfl]⟩
            · intro absent
              have away : ¬ first = state := fun same => absent (same ▸ List.mem_cons_self)
              rw [kept, if_neg away]

theorem Model.startPolicy_given (legal : model.LegalPolicy policy) :
    model.startPolicy (StartingPolicy.given policy : StartingPolicy K Source) =
      .ok (.ofKeys model.states fun state => (policy.get? state).getD .blank) := by
  have pairs : (model.states.mapM fun state => do
      let action ← policy.demand (K := K) state
      return (state, action)) =
        .ok (model.states.map fun state => (state, (policy.get? state).getD .blank)) := by
    apply mapM_eq_ok
    intro state member
    obtain ⟨action, -, found⟩ := legal state member
    rw [Table.demand_eq_ok found, found]
    rfl
  rw [Model.startPolicy, Model.checkPolicy_eq_ok_iff.mpr legal, ok_bind, pairs]
  rfl

/-- Every policy from which policy iteration starts is legal, given or drawn. -/
theorem Model.startPolicy_legal {start : StartingPolicy K Source}
    (run : model.startPolicy start = .ok policy) : model.LegalPolicy policy := by
  cases start with
  | given candidate =>
      have legal : model.LegalPolicy candidate := by
        obtain ⟨_, checked, -⟩ := bind_eq_ok_iff.mp run
        exact Model.checkPolicy_eq_ok_iff.mp checked
      rw [Model.startPolicy_given legal] at run
      cases run
      intro state member
      obtain ⟨action, allowed, found⟩ := legal state member
      exact ⟨action, allowed, by simp [member, found]⟩
  | drawn source =>
      obtain ⟨ready, -, run⟩ := bind_eq_ok_iff.mp run
      intro state member
      exact (Model.drawActions_legal run state).1 member

end Starting

end Legal

/-! ## Choices -/

/-- A policy whose actions in the given states are those of a choice. -/
def Policy.Takes (policy : Policy) (states : List Ident) (choice : Ident → Ident) : Prop :=
  ∀ state ∈ states, policy.get? state = some (choice state)

/-- The choice that a policy makes; the blank action where it has none. -/
def Policy.choice (policy : Policy) (state : Ident) : Ident := (policy.get? state).getD .blank

theorem Policy.choice_of_get? {policy : Policy} {state action : Ident}
    (chosen : policy.get? state = some action) : policy.choice state = action := by
  rw [Policy.choice, chosen, Option.getD_some]

section Choices

variable {K : Type} {model : Model K} {policy : Policy} {choice : Ident → Ident}

theorem Model.LegalPolicy.takes (legal : model.LegalPolicy policy) :
    policy.Takes model.states policy.choice := by
  intro state member
  obtain ⟨action, -, found⟩ := legal state member
  simp [Policy.choice, found]

theorem Model.LegalPolicy.legalChoice (legal : model.LegalPolicy policy) :
    model.LegalChoice policy.choice := by
  intro state member
  obtain ⟨action, allowed, found⟩ := legal state member
  simpa [Policy.choice, found] using allowed

theorem Model.LegalPolicy.active (legal : model.LegalPolicy policy) :
    ∀ state ∈ model.states, model.legal state ≠ [] := by
  intro state member
  obtain ⟨action, allowed, -⟩ := legal state member
  exact List.ne_nil_of_mem allowed

theorem Policy.Takes.choice_eq {states : List Ident} (takes : policy.Takes states choice) :
    ∀ state ∈ states, policy.choice state = choice state := by
  intro state member
  simp [Policy.choice, takes state member]

theorem Policy.Takes.legalChoice (takes : policy.Takes model.states choice)
    (legal : model.LegalPolicy policy) : model.LegalChoice choice := by
  intro state member
  rw [← takes.choice_eq state member]
  exact legal.legalChoice state member

theorem Model.exists_startPolicy (Source : Type) [IndexSource Source]
    (legal : model.LegalPolicy policy) :
    ∃ begun, model.startPolicy (StartingPolicy.given policy : StartingPolicy K Source) = .ok begun ∧
      begun.Takes model.states policy.choice := by
  refine ⟨_, Model.startPolicy_given legal, fun state member => ?_⟩
  simp [member, Policy.choice]

theorem Policy.Takes.legalPolicy (takes : policy.Takes model.states choice)
    (legal : model.LegalChoice choice) : model.LegalPolicy policy :=
  fun state member => ⟨choice state, legal state member, takes state member⟩

end Choices

/-! ## Evaluation -/

theorem Policy.Takes.follow_eq {F : Type} [Field F] {model : Model F} {policy : Policy}
    {choice : Ident → Ident} (takes : policy.Takes model.states choice) (value : Ident → F) :
    ∀ state ∈ model.states,
      model.follow policy.choice value state = model.follow choice value state :=
  fun state member => Model.follow_congr (takes.choice_eq state member) value

theorem checkCount_eq_ok_iff {K : Type} {name : CountName} {count : Int} :
    checkCount (K := K) name count = .ok () ↔ 0 < count := by
  unfold checkCount
  split <;> simp <;> omega

/-- An evaluation returns if its three checks pass and then its sweeps do. -/
theorem Model.evaluatePolicy_eq_ok_iff {K : Type} [Scalar K] {model : Model K} {policy : Policy}
    {sweeps : Int} {start : Option (Utility K)} {after : Utility K} :
    (model.evaluatePolicy policy sweeps start).result model = .ok after ↔
      model.checkDiscount = .ok () ∧ 0 < sweeps ∧ model.LegalPolicy policy ∧
        (model.policySweeps policy sweeps.toNat (start.getD model.zeroUtility)).result model =
          .ok after := by
  have counted : checkCount (K := K) .sweeps sweeps = .ok () ↔ 0 < sweeps := checkCount_eq_ok_iff
  rw [← counted, ← Model.checkPolicy_eq_ok_iff]
  simp only [Model.evaluatePolicy, Inquiry.result_bind, Inquiry.result_liftM, bind_eq_ok_iff]
  constructor
  · rintro ⟨⟨⟩, discount, ⟨⟩, positive, ⟨⟩, legal, swept⟩
    exact ⟨discount, positive, legal, swept⟩
  · rintro ⟨discount, positive, legal, swept⟩
    exact ⟨_, discount, _, positive, _, legal, swept⟩

section Evaluation

variable {F : Type} [Field F] [LinearOrder F] {model : Model F} {policy : Policy}
  {choice : Ident → Ident} {value : Ident → F} {utility : Utility (Extended F)}
  (accepted : model.Accepted)
  (takes : policy.Takes model.states choice) (legal : model.LegalChoice choice)

include accepted takes legal

private theorem Model.result_policySweep (reads : Utility.Reads utility model.states value) :
    (model.extended.policySweep policy utility).result model.extended =
      .ok (model.tabled (model.follow choice value)) := by
  refine result_tabulate fun state member => ?_
  rw [Inquiry.result_bind, Inquiry.result_liftM, Table.demand_eq_ok (takes state member), ok_bind]
  exact Model.result_actionValue accepted reads member (legal state member)

/-- The utility after at least one sweep has the states of the model as keys, whatever it started
from. -/
theorem Model.result_policySweeps (reads : Utility.Reads utility model.states value) (count : Nat) :
    (model.extended.policySweeps policy (count + 1) utility).result model.extended =
      .ok (model.tabled ((model.follow choice)^[count + 1] value)) := by
  induction count generalizing utility value with
  | zero =>
      rw [Model.policySweeps, Inquiry.result_bind,
        Model.result_policySweep accepted takes legal reads]
      rfl
  | succ count ih =>
      rw [Model.policySweeps, Inquiry.result_bind,
        Model.result_policySweep accepted takes legal reads, ok_bind]
      exact ih (model.tabled_reads _)

theorem Model.result_evaluatePolicy_of_sweeps {sweeps : Int} (positive : 0 < sweeps)
    (start : Option (Utility (Extended F)))
    (reads : Utility.Reads (start.getD model.extended.zeroUtility) model.states value) :
    (model.extended.evaluatePolicy policy sweeps start).result model.extended = do
      model.extended.checkDiscount
      return model.tabled ((model.follow choice)^[sweeps.toNat] value) := by
  have checked : model.extended.checkPolicy policy = .ok () :=
    Model.checkPolicy_eq_ok_iff.mpr (takes.legalPolicy legal)
  obtain ⟨count, successor⟩ : ∃ count, sweeps.toNat = count + 1 := ⟨sweeps.toNat - 1, by omega⟩
  have swept := Model.result_policySweeps accepted takes legal reads count
  simp only [Model.evaluatePolicy, Inquiry.result_bind, Inquiry.result_liftM,
    checkCount_eq_ok_iff.mpr positive, checked, ok_bind, successor, swept]
  rfl

theorem Model.result_evaluatePolicy (discount : 0 ≤ model.discount ∧ model.discount < 1)
    {sweeps : Int} (positive : 0 < sweeps) (start : Option (Utility (Extended F)))
    (reads : Utility.Reads (start.getD model.extended.zeroUtility) model.states value) :
    (model.extended.evaluatePolicy policy sweeps start).result model.extended =
      .ok (model.tabled ((model.follow choice)^[sweeps.toNat] value)) := by
  rw [Model.result_evaluatePolicy_of_sweeps accepted takes legal positive start reads,
    Model.checkDiscount_extended_iff.mpr discount, ok_bind, pure_eq_ok]

end Evaluation

/-! ## Fixed points -/

section FixedPoints

variable {F : Type} [Field F] [LinearOrder F] {model : Model F} {policy : Policy}

/-- A utility that an evaluation by one sweep reproduces on every state. -/
def Model.EvaluationFixes (model : Model F) (policy : Policy) (utility : Utility F) : Prop :=
  ∃ next, (model.extended.evaluatePolicy policy 1 (some utility.extended)).result model.extended =
      .ok next ∧
    ∀ state ∈ model.states, next.get? state = utility.extended.get? state

theorem Model.EvaluationFixes.exists_value {utility : Utility F}
    (fixed : model.EvaluationFixes policy utility) (accepted : model.Accepted)
    (legal : model.LegalPolicy policy) :
    ∃ value : Ident → F, (∀ state ∈ model.states, utility.get? state = some (value state)) ∧
      ∀ state ∈ model.states, model.follow policy.choice value state = value state := by
  obtain ⟨next, run, same⟩ := fixed
  obtain ⟨-, -, -, sweeps⟩ := Model.evaluatePolicy_eq_ok_iff.mp run
  obtain ⟨once, swept, last⟩ := Inquiry.result_bind_eq_ok_iff.mp sweeps
  cases last
  rw [Option.getD_some] at swept
  obtain ⟨value, covered, reads⟩ := Utility.exists_reads swept same
  rw [Model.result_policySweep accepted legal.takes legal.legalChoice reads] at swept
  cases swept
  exact ⟨value, covered, (reads.tabled_eq_iff _).mp same⟩

theorem Model.EvaluationFixes.legal {utility : Utility F}
    (fixed : model.EvaluationFixes policy utility) : model.LegalPolicy policy := by
  obtain ⟨next, run, -⟩ := fixed
  obtain ⟨-, -, legal, -⟩ := Model.evaluatePolicy_eq_ok_iff.mp run
  exact legal

theorem Policy.Takes.exists_value {choice : Ident → Ident}
    (takes : policy.Takes model.states choice) (accepted : model.Accepted) {utility : Utility F}
    (fixed : model.EvaluationFixes policy utility) :
    ∃ value : Ident → F, (∀ state ∈ model.states, utility.get? state = some (value state)) ∧
      ∀ state ∈ model.states, model.follow choice value state = value state := by
  obtain ⟨value, covered, stays⟩ := fixed.exists_value accepted fixed.legal
  exact ⟨value, covered, fun state member =>
    (takes.follow_eq value state member).symm.trans (stays state member)⟩

theorem Model.evaluationFixes_of_covered {value : Ident → F} (accepted : model.Accepted)
    (legal : model.LegalPolicy policy) (discount : 0 ≤ model.discount ∧ model.discount < 1)
    {utility : Utility F} (covered : ∀ state ∈ model.states, utility.get? state = some (value state))
    (stays : ∀ state ∈ model.states, model.follow policy.choice value state = value state) :
    model.EvaluationFixes policy utility := by
  have reads := Utility.extended_reads covered
  exact ⟨_, Model.result_evaluatePolicy accepted legal.takes legal.legalChoice discount one_pos
    (some _) reads, (reads.tabled_eq_iff _).mpr stays⟩

theorem Model.evaluationFixes_of_follow_eq {value : Ident → F} (accepted : model.Accepted)
    (legal : model.LegalPolicy policy) (discount : 0 ≤ model.discount ∧ model.discount < 1)
    (stays : ∀ state ∈ model.states, model.follow policy.choice value state = value state) :
    model.EvaluationFixes policy (.ofKeys model.states value) := by
  apply Model.evaluationFixes_of_covered accepted legal discount _ stays
  intro state member
  simp [member]

end FixedPoints

end MarkovDecision
