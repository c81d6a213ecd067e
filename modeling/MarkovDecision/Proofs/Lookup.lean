import MarkovDecision.Proofs.Policy

/-!
# Where sweeps can fail

Nothing is promised about the model, about the utility or about arithmetic. A sweep can then fail, but
with a policy that is legal it fails only on a look-up: a state without actions, a missing or rejected
row, or a state without a utility. It never meets an illegal action, and settings that have passed
their check once pass it every time.
-/

set_option autoImplicit false

namespace MarkovDecision

variable {K : Type}

/-! ## Look-ups -/

theorem Table.demand_fault {Value : Type} {table : Table Ident Value} {key : Ident} {fault : Fault K}
    (run : table.demand key = .error fault) : fault.OfLookup := by
  unfold Table.demand at run
  split at run
  · cases run
  · cases run
    exact .missingKey key

private theorem Model.actions_fault {model : Model K} {state : Ident} {fault : Fault K}
    (run : model.actions state = .error fault) : fault.OfLookup := by
  unfold Model.actions at run
  split at run
  · cases run
  · cases run
    exact .malformed _

variable [Scalar K]

/-- Whatever is wrong with a row is a defect of the model. -/
theorem Model.row_fault {model : Model K} {state action : Ident} {fault : Fault K}
    (run : model.row state action = .error fault) : ∃ defect, fault = .malformed defect := by
  unfold Model.row at run
  cases written : model.rawRow state action with
  | error earlier =>
      rw [written, error_bind] at run
      cases run
      unfold Model.rawRow at written
      split at written
      · cases written
      · cases written
        exact ⟨_, rfl⟩
  | ok row =>
      rw [written, ok_bind] at run
      cases checked : checkRow row state action model.knows with
      | error earlier =>
          rw [checked, error_bind] at run
          cases run
          exact checkRow_fault checked
      | ok passed =>
          rw [checked, ok_bind] at run
          cases run

variable {model : Model K} {utility : Utility K} {state action : Ident} {policy : Policy}

private theorem Model.accumulate_fault {entries : List (Ident × K)} {total : K} {fault : Fault K}
    (run : model.accumulate utility state action entries total = .error fault) : fault.OfLookup := by
  induction entries generalizing total with
  | nil => cases run
  | cons entry rest ih =>
      rw [Model.accumulate] at run
      split at run
      · exact ih run
      · cases found : utility.demand (K := K) entry.1 with
        | error earlier =>
            rw [found, error_bind] at run
            cases run
            exact Table.demand_fault found
        | ok later =>
            rw [found, ok_bind] at run
            exact ih run

/-! ## Values and best actions -/

theorem Model.yields_rowOf (model : Model K) (state action : Ident) :
    (Inquiry.rowOf state action).Yields model fun _ => True := by
  unfold Inquiry.Yields
  rw [Inquiry.result_rowOf]
  cases run : model.row state action with
  | ok row => trivial
  | error fault =>
      obtain ⟨defect, rfl⟩ := Model.row_fault run
      exact .malformed defect

theorem Model.yields_expectedValue (model : Model K) (utility : Utility K) (state action : Ident) :
    (model.expectedValue utility state action).Yields model fun _ => True :=
  (model.yields_rowOf state action).bind fun _ _ _ =>
    .of_except (fun _ _ => trivial) fun _ => Model.accumulate_fault

private theorem Model.yields_improveOver (model : Model K) (utility : Utility K) (state : Ident)
    {actions : List Ident} (legal : ∀ action ∈ actions, action ∈ model.legal state)
    (incumbent : Ident × K) :
    (model.improveOver utility state actions incumbent).Yields model fun best =>
      best = incumbent ∨ best.1 ∈ model.legal state := by
  induction actions generalizing incumbent with
  | nil => exact Or.inl rfl
  | cons action rest ih =>
      have others : ∀ other ∈ rest, other ∈ model.legal state := fun other listed =>
        legal other (List.mem_cons_of_mem _ listed)
      refine (model.yields_expectedValue utility state action).bind fun value _ _ => ?_
      refine (ih others _).mono fun best _ chosen => ?_
      rcases chosen with rfl | later
      · split
        · exact Or.inr (legal action List.mem_cons_self)
        · exact Or.inl rfl
      · exact Or.inr later

/-- The blank incumbent is no legal action, but it keeps its place only at minus infinity. -/
theorem Model.yields_bestAction (model : Model K) (utility : Utility K) (state : Ident) :
    (model.bestAction utility state).Yields model fun best =>
      best = (.blank, Scalar.negInf) ∨ best.1 ∈ model.legal state := by
  have listed : (liftM (model.actions state) : Inquiry K (List Ident)).Yields model
      fun actions => actions = model.legal state :=
    .of_except (fun _ run => (Model.eq_legal_of_actions run).1) fun _ => Model.actions_fault
  refine listed.bind fun actions _ same => ?_
  subst same
  exact model.yields_improveOver utility state (fun _ legal => legal) _

private theorem Model.yields_actionValue (legal : action ∈ model.legal state) :
    (model.actionValue utility state action).Yields model fun _ => True := by
  have listed := Model.actions_eq_ok (List.ne_nil_of_mem legal)
  refine Inquiry.Yields.of_ok_bind listed ?_
  rw [if_pos legal]
  exact model.yields_expectedValue utility state action

/-! ## Evaluation -/

private theorem yields_tabulate {Key Value : Type} [DecidableEq Key] {keys : List Key}
    {compute : Key → Inquiry K Value}
    (each : ∀ key ∈ keys, (compute key).Yields model fun _ => True) :
    (tabulate keys compute).Yields model fun _ => True := by
  have paired : ∀ key ∈ keys, (do
      let value ← compute key
      return (key, value) : Inquiry K (Key × Value)).Yields model fun _ => True :=
    fun key member => (each key member).bind fun _ _ _ => trivial
  exact (Inquiry.Yields.mapM paired).bind fun _ _ _ => trivial

section Evaluation

variable (legal : model.LegalPolicy policy)

include legal

private theorem Model.yields_policySweep (utility : Utility K) :
    (model.policySweep policy utility).Yields model fun _ => True := by
  refine yields_tabulate fun state member => ?_
  obtain ⟨action, allowed, found⟩ := legal state member
  exact Inquiry.Yields.of_ok_bind (Table.demand_eq_ok found) (Model.yields_actionValue allowed)

private theorem Model.yields_policySweeps (count : Nat) (utility : Utility K) :
    (model.policySweeps policy count utility).Yields model fun _ => True := by
  induction count generalizing utility with
  | zero => trivial
  | succ count ih =>
      exact (Model.yields_policySweep legal utility).bind fun next _ _ => ih next

theorem Model.yields_evaluatePolicy (discount : model.checkDiscount = .ok ()) {sweeps : Int}
    (positive : 0 < sweeps) (start : Option (Utility K)) :
    (model.evaluatePolicy policy sweeps start).Yields model fun _ => True := by
  refine Inquiry.Yields.of_ok_bind discount ?_
  refine Inquiry.Yields.of_ok_bind (checkCount_eq_ok_iff.mpr positive) ?_
  refine Inquiry.Yields.of_ok_bind (Model.checkPolicy_eq_ok_iff.mpr legal) ?_
  exact Model.yields_policySweeps legal sweeps.toNat _

end Evaluation

end MarkovDecision
