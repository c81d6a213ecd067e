import Mathlib.Order.Bounds.Defs
import MarkovDecision.Proofs.Locality
import MarkovDecision.Proofs.Validation

/-!
# Agreement of the Bellman functions

The functions that are built on action values go through the actions of a state on their own, and
policy evaluation adds checks to them. With exact numbers they agree: best actions, the table of all
action values, sweeps, greedy policies and evaluations by one sweep all show the same numbers, and of
several greatest ones the first declared wins. The utility needs a number only where one is looked
up.
-/

set_option autoImplicit false

namespace MarkovDecision

variable {F : Type} [Field F]

/-- The utility has a number for every successor of non-zero probability of a legal action. -/
def Utility.Informs (utility : Utility F) (model : Model F) : Prop :=
  ∀ state ∈ model.states, ∀ action ∈ model.legal state,
    ∀ entry ∈ (model.rowAt state action).entries, entry.2 ≠ 0 → entry.1 ∈ utility.keys

instance [DecidableEq F] (utility : Utility F) (model : Model F) :
    Decidable (utility.Informs model) :=
  inferInstanceAs (Decidable (∀ _ ∈ _, ∀ _ ∈ _, ∀ _ ∈ _, _ → _))

def Utility.number (utility : Utility F) (state : Ident) : F := (utility.get? state).getD 0

variable [LinearOrder F] {model : Model F} {utility : Utility F} {state action : Ident}

/-! ## The functions one by one -/

namespace Utility.Informs

variable (informs : utility.Informs model) (accepted : model.Accepted)

include informs accepted

theorem result_expectedValue (member : state ∈ model.states) (legal : action ∈ model.legal state) :
    (model.extended.expectedValue utility.extended state action).result model.extended =
      .ok (.finite (model.backup utility.number state action)) := by
  have tabled := model.tabled_reads utility.number
  rw [← Model.result_expectedValue accepted tabled member legal]
  simp only [Model.expectedValue, Inquiry.result_bind, Inquiry.result_rowOf,
    accepted.row_eq_ok member legal, ok_bind, Inquiry.result_liftM]
  -- Elsewhere than at the successors that are looked up, the two utilities may differ.
  apply Model.accumulate_congr rfl fun _ _ => rfl
  intro entry listed nonzero
  obtain ⟨origin, stored, rfl⟩ := List.mem_map.mp listed
  have weighed : origin.2 ≠ 0 := by simpa using nonzero
  have known := (accepted.row member legal).mem_states stored weighed
  have present := informs state member action legal origin stored weighed
  obtain ⟨number, found⟩ := Option.isSome_iff_exists.mp ((Table.get?_isSome_iff _ _).mpr present)
  rw [tabled origin.1 known, Table.get?_extended, Utility.number, found]
  rfl

theorem result_actionValue (member : state ∈ model.states) (legal : action ∈ model.legal state) :
    (model.extended.actionValue utility.extended state action).result model.extended =
      .ok (.finite (model.backup utility.number state action)) := by
  simp only [Model.actionValue, Inquiry.result_bind, Inquiry.result_liftM,
    accepted.actions_eq_ok member, ok_bind, legal, if_true]
  exact informs.result_expectedValue accepted member legal

theorem result_bestAction (member : state ∈ model.states) :
    (model.extended.bestAction utility.extended state).result model.extended =
      .ok (model.greedy utility.number state, .finite (model.best utility.number state)) := by
  have tabled := model.tabled_reads utility.number
  have options : model.extended.legal state = model.extended.legal state := rfl
  rw [← Model.result_bestAction accepted tabled member]
  apply Model.bestAction_congr options (accepted.active state member)
  intro action legal
  rw [informs.result_expectedValue accepted member legal,
    Model.result_expectedValue accepted tabled member legal]

theorem result_sweep : (model.extended.sweep utility.extended).result model.extended =
    .ok (model.tabled (model.best utility.number)) := by
  refine result_tabulate fun state member => ?_
  rw [Model.stateValue, Inquiry.result_bind, informs.result_bestAction accepted member]
  rfl

theorem result_greedyPolicy : (model.extended.greedyPolicy utility.extended).result model.extended =
    .ok (.ofKeys model.states (model.greedy utility.number)) := by
  refine result_tabulate fun state member => ?_
  rw [Inquiry.result_bind, informs.result_bestAction accepted member]
  rfl

/-- An evaluation by one sweep, which follows the checks of the policy. -/
theorem result_evaluatePolicy {policy : Policy} {choice : Ident → Ident}
    (takes : policy.Takes model.states choice) (legal : model.LegalChoice choice)
    (discount : 0 ≤ model.discount ∧ model.discount < 1) :
    (model.extended.evaluatePolicy policy 1 (some utility.extended)).result model.extended =
      .ok (model.tabled (model.follow choice utility.number)) := by
  have swept : (model.extended.policySweep policy utility.extended).result model.extended =
      .ok (model.tabled (model.follow choice utility.number)) := by
    refine result_tabulate fun state member => ?_
    rw [Inquiry.result_bind, Inquiry.result_liftM, Table.demand_eq_ok (takes state member), ok_bind]
    exact informs.result_actionValue accepted member (legal state member)
  refine Model.evaluatePolicy_eq_ok_iff.mpr ⟨Model.checkDiscount_extended_iff.mpr discount, one_pos,
    takes.legalPolicy legal, ?_⟩
  exact Inquiry.result_bind_eq_ok_iff.mpr ⟨_, swept, rfl⟩

end Utility.Informs

/-! ## The table of all action values -/

def Model.legalPairs {K : Type} (model : Model K) : List (Ident × Ident) :=
  model.states.flatMap fun state => (model.legal state).map fun action => (state, action)

omit [Field F] [LinearOrder F] in
private theorem Model.mem_legalPairs_iff {pair : Ident × Ident} :
    pair ∈ model.legalPairs ↔ pair.1 ∈ model.states ∧ pair.2 ∈ model.legal pair.1 := by
  obtain ⟨state, action⟩ := pair
  simp [Model.legalPairs]

private theorem Utility.Informs.result_actionValues (informs : utility.Informs model)
    (accepted : model.Accepted) :
    (model.extended.actionValues utility.extended).result model.extended =
      .ok (.ofKeys model.legalPairs fun pair =>
        .finite (model.backup utility.number pair.1 pair.2)) := by
  have groups : (model.states.mapM fun state => do
      let actions ← model.extended.actions state
      actions.mapM fun action => do
        let value ← model.extended.expectedValue utility.extended state action
        return ((state, action), value) :
          Inquiry (Extended F) (List (List ((Ident × Ident) × Extended F)))).result model.extended =
      .ok (model.states.map fun state => (model.legal state).map fun action =>
        ((state, action), .finite (model.backup utility.number state action))) := by
    rw [Inquiry.result_mapM]
    apply mapM_eq_ok
    intro state member
    rw [Inquiry.result_bind, Inquiry.result_liftM, accepted.actions_eq_ok member, ok_bind,
      Inquiry.result_mapM]
    apply mapM_eq_ok
    intro action legal
    rw [Inquiry.result_bind, informs.result_expectedValue accepted member legal]
    rfl
  rw [Model.actionValues, Inquiry.result_bind]
  simp only [Model.states_extended]
  rw [groups, ok_bind, Inquiry.result_pure, Table.ofKeys, Model.legalPairs, List.map_flatMap]
  simp [List.flatMap_def, Function.comp_def]

omit [Field F] [LinearOrder F] in
private theorem Model.exists_expectedValue_of_actionValues {K : Type} [Scalar K] {model : Model K}
    {utility : Utility K} {table : ActionValues K}
    (run : (model.actionValues utility).result model = .ok table) :
    ∀ state ∈ model.states, model.legal state ≠ [] ∧ ∀ action ∈ model.legal state,
      ∃ value, (model.expectedValue utility state action).result model = .ok value := by
  obtain ⟨groups, collected, -⟩ := Inquiry.result_bind_eq_ok_iff.mp run
  rw [Inquiry.result_mapM] at collected
  intro state member
  obtain ⟨group, -, computed⟩ := exists_ok_of_mapM collected state member
  obtain ⟨actions, listed, computed⟩ := Inquiry.result_bind_eq_ok_iff.mp computed
  rw [Inquiry.result_liftM] at listed
  obtain ⟨rfl, active⟩ := Model.eq_legal_of_actions listed
  rw [Inquiry.result_mapM] at computed
  refine ⟨active, fun action legal => ?_⟩
  obtain ⟨_, -, valued⟩ := exists_ok_of_mapM computed action legal
  obtain ⟨value, valued, -⟩ := Inquiry.result_bind_eq_ok_iff.mp valued
  exact ⟨value, valued⟩

/-- The table can be computed exactly if all rows pass their check and all look-ups succeed. -/
theorem Model.exists_actionValues_iff :
    (∃ table, (model.extended.actionValues utility.extended).result model.extended = .ok table) ↔
      model.Accepted ∧ utility.Informs model := by
  constructor
  · rintro ⟨table, run⟩
    have each := Model.exists_expectedValue_of_actionValues run
    have accepted : model.Accepted := by
      refine Model.accepted_iff.mpr fun state member => ⟨(each state member).1, ?_⟩
      intro action legal
      obtain ⟨value, valued⟩ := (each state member).2 action legal
      exact Model.exists_row_of_expectedValue valued
    refine ⟨accepted, fun state member action legal entry stored weighed => ?_⟩
    obtain ⟨value, valued⟩ := (each state member).2 action legal
    rw [Model.expectedValue, Inquiry.result_bind, Inquiry.result_rowOf,
      accepted.row_eq_ok member legal, ok_bind, Inquiry.result_liftM] at valued
    obtain ⟨number, found⟩ := Model.exists_get?_of_accumulate valued _ (List.mem_map_of_mem stored)
      (by simpa using weighed)
    rw [Table.get?_extended] at found
    have present := Option.isSome_of_eq_some found
    rwa [Option.isSome_map, Table.get?_isSome_iff] at present
  · rintro ⟨accepted, informs⟩
    exact ⟨_, informs.result_actionValues accepted⟩

/-! ## Agreement -/

/-- What the functions show of a state. Its legal actions have scores, singly and in the table. The
first of greatest score is the best action and that of the policy, and its score is the greatest
entry and the next utility. -/
structure Model.Shows (model : Model F) (utility : Utility F) (table : ActionValues (Extended F))
    (next : Utility (Extended F)) (policy : Policy) (state : Ident) (score : Ident → F)
    (best : Ident) : Prop where
  actionValue : ∀ action ∈ model.legal state,
    (model.extended.actionValue utility.extended state action).result model.extended =
      .ok (.finite (score action))
  entry : ∀ action ∈ model.legal state, table.get? (state, action) = some (.finite (score action))
  first : FirstGreatest score (model.legal state) best
  bestAction : (model.extended.bestAction utility.extended state).result model.extended =
    .ok (best, .finite (score best))
  policy : policy.get? state = some best
  next : next.get? state = some (.finite (score best))
  greatest : IsGreatest {value | ∃ action, table.get? (state, action) = some (.finite value)}
    (score best)

theorem Utility.Informs.shows (informs : utility.Informs model) (accepted : model.Accepted)
    (member : state ∈ model.states) :
    model.Shows utility
      (.ofKeys model.legalPairs fun pair => .finite (model.backup utility.number pair.1 pair.2))
      (model.tabled (model.best utility.number)) (.ofKeys model.states (model.greedy utility.number))
      state (model.backup utility.number state) (model.greedy utility.number state) := by
  have first := Model.greedy_firstGreatest utility.number (accepted.active state member)
  have entry : ∀ action value, (Table.ofKeys model.legalPairs fun pair =>
      Extended.finite (model.backup utility.number pair.1 pair.2)).get? (state, action) =
        some (.finite value) ↔
      action ∈ model.legal state ∧ model.backup utility.number state action = value := by
    intro action value
    simp [Model.mem_legalPairs_iff, member]
  exact {
    actionValue := fun action legal => informs.result_actionValue accepted member legal
    entry := fun action legal => (entry action _).mpr ⟨legal, rfl⟩
    first
    bestAction := informs.result_bestAction accepted member
    policy := by simp [member]
    next := model.tabled_reads _ state member
    greatest := by
      refine ⟨⟨_, (entry _ _).mpr ⟨first.mem, rfl⟩⟩, ?_⟩
      rintro value ⟨action, found⟩
      obtain ⟨legal, rfl⟩ := (entry action value).mp found
      exact first.le legal }

/-- The table of all action values can be computed exactly if all rows pass their check and the utility
has what is looked up. Then all functions return, and they agree. The greedy policy passes the check of
policies, and its evaluation by one sweep is the optimal sweep. No other legal policy does better in any
state, or as well without a best action. -/
theorem Model.bellman_functions_agree (model : Model F) (utility : Utility F) :
    ((∃ table, (model.extended.actionValues utility.extended).result model.extended = .ok table) ↔
      model.Accepted ∧ utility.Informs model) ∧
    ∀ table, (model.extended.actionValues utility.extended).result model.extended = .ok table →
      ∃ (next : Utility (Extended F)) (policy : Policy) (score : Ident → Ident → F)
        (best : Ident → Ident),
        (model.extended.sweep utility.extended).result model.extended = .ok next ∧
        (model.extended.greedyPolicy utility.extended).result model.extended = .ok policy ∧
        (∀ state ∈ model.states,
          model.Shows utility table next policy state (score state) (best state)) ∧
        (∀ pair, pair ∈ table.keys ↔ pair.1 ∈ model.states ∧ pair.2 ∈ model.legal pair.1) ∧
        model.extended.checkPolicy policy = .ok () ∧
        (0 ≤ model.discount ∧ model.discount < 1 →
          (model.extended.evaluatePolicy policy 1 (some utility.extended)).result model.extended =
            .ok next ∧
          ∀ other, model.extended.checkPolicy other = .ok () → ∃ after,
            (model.extended.evaluatePolicy other 1 (some utility.extended)).result model.extended =
              .ok after ∧
            ∀ state ∈ model.states, ∃ chosen low, other.get? state = some chosen ∧
              after.get? state = some (.finite low) ∧ low ≤ score state (best state) ∧
              (low = score state (best state) ↔
                ∀ action ∈ model.legal state, score state action ≤ score state chosen)) := by
  refine ⟨Model.exists_actionValues_iff, fun table run => ?_⟩
  obtain ⟨accepted, informs⟩ := Model.exists_actionValues_iff.mp ⟨table, run⟩
  rw [informs.result_actionValues accepted] at run
  cases run
  have takes : Policy.Takes (.ofKeys model.states (model.greedy utility.number)) model.states
      (model.greedy utility.number) := fun state member => by simp [member]
  have legal : model.LegalChoice (model.greedy utility.number) := fun state member =>
    Model.greedy_mem _ (accepted.active state member)
  refine ⟨_, _, model.backup utility.number, model.greedy utility.number,
    informs.result_sweep accepted, informs.result_greedyPolicy accepted,
    fun state member => informs.shows accepted member, ?_,
    Model.checkPolicy_eq_ok_iff.mpr (takes.legalPolicy legal), fun discount => ⟨?_, ?_⟩⟩
  · intro pair
    rw [Table.mem_keys_ofKeys, Model.mem_legalPairs_iff]
  · exact informs.result_evaluatePolicy accepted takes legal discount
  · intro other checked
    have allowed : model.extended.LegalPolicy other := Model.checkPolicy_eq_ok_iff.mp checked
    replace allowed : model.LegalPolicy other := allowed
    refine ⟨_, informs.result_evaluatePolicy accepted allowed.takes allowed.legalChoice discount,
      fun state member => ⟨other.choice state, _, allowed.takes state member,
        model.tabled_reads _ state member, ?_, ?_⟩⟩
    · exact Model.backup_le_best _ (allowed.legalChoice state member)
    · constructor
      · intro attained action legal
        exact (Model.backup_le_best _ legal).trans_eq attained.symm
      · intro greatest
        exact le_antisymm (Model.backup_le_best _ (allowed.legalChoice state member))
          (greatest _ (legal state member))

/-- From the first place, staying and setting off are worth the same. The policy stays, which is
declared first. -/
theorem Model.bellman_functions_agree_outing :
    let utility : Utility ℚ := .ofPairs [(.int 0, 2), (.int 1, 0), (.int 7, 5)]
    ((outing 0).Accepted ∧ utility.Informs (outing 0) ∧
      0 ≤ (outing 0).discount ∧ (outing 0).discount < 1) ∧
    ∃ table, ((outing 0).extended.actionValues utility.extended).result (outing 0).extended =
        .ok table ∧
      ∃ next policy,
        ((outing 0).extended.sweep utility.extended).result (outing 0).extended = .ok next ∧
        ((outing 0).extended.greedyPolicy utility.extended).result (outing 0).extended = .ok policy ∧
        ((outing 0).extended.evaluatePolicy policy 1 (some utility.extended)).result
          (outing 0).extended = .ok next ∧
        policy.get? (.int 0) = some (.text "stay") := by
  intro utility
  have accepted : (outing 0).Accepted := by decide +kernel
  have informs : utility.Informs (outing 0) := by decide +kernel
  have discount : 0 ≤ (outing 0).discount ∧ (outing 0).discount < 1 := by decide +kernel
  obtain ⟨computable, agree⟩ := Model.bellman_functions_agree (outing 0) utility
  obtain ⟨table, run⟩ := computable.mpr ⟨accepted, informs⟩
  obtain ⟨next, policy, score, best, swept, greedy, -, -, -, evaluated⟩ := agree table run
  refine ⟨⟨accepted, informs, discount⟩, table, run, next, policy, swept, greedy,
    (evaluated discount).1, ?_⟩
  rw [informs.result_greedyPolicy accepted] at greedy
  cases greedy
  decide +kernel

end MarkovDecision
