import MarkovDecision.Proofs.PolicyIteration.Optimality

/-!
# No number of sweeps is enough for all models

At the start of a relay it is possible to stay or to go. Going leads step by step to the last place,
and only there something is earned. An evaluation with fewer sweeps than there are steps sees nothing
of it, so policy iteration keeps a policy that stays and loses the value of going, which is one.
-/

set_option autoImplicit false

namespace MarkovDecision

def stay : Ident := .text "stay"

def go : Ident := .text "go"

def relayNext (length : Nat) : Ident → Ident
  | .int place => .int (min (place + 1) (length + 1))
  | other => other

def relayPlaces (length : Nat) : List Ident :=
  (List.range (length + 2)).map fun place : Nat => .int place

/-- A relay of some length, which earns `2 ^ length` for every step at the last place. -/
def relay (length : Nat) : Model ℚ where
  states := relayPlaces length
  actionTable := .ofKeys (relayPlaces length) fun state =>
    if state = .int 0 then [stay, go] else [go]
  rowTable := .ofKeys ((.int 0, stay) :: (relayPlaces length).map fun state => (state, go))
    fun key => .ofPairs [(if key.2 = stay then key.1 else relayNext length key.1, 1)]
  reward state _ _ := if state = .int (length + 1) then 2 ^ length else 0
  discount := 1 / 2
  initial := .int 0
  terminals := []
  noop := .blank

def staying (length : Nat) : Policy :=
  .ofKeys (relayPlaces length) fun state => if state = .int 0 then stay else go

variable {length place : Nat} {value : Ident → ℚ}

@[simp] theorem mem_relayPlaces : .int place ∈ relayPlaces length ↔ place ≤ length + 1 := by
  simp [relayPlaces, Nat.lt_succ_iff]

/-- To show something for all places of a relay, show it for all numbers up to the last. -/
theorem relay_forall {holds : Ident → Prop} :
    (∀ state ∈ (relay length).states, holds state) ↔
      ∀ place : Nat, place ≤ length + 1 → holds (.int place) := by
  simp [relay, relayPlaces, Nat.lt_succ_iff]

theorem relay_legal (small : place ≤ length + 1) :
    (relay length).legal (.int place) = if place = 0 then [stay, go] else [go] := by
  simp [Model.legal, relay, small]

theorem staying_choice (small : place ≤ length + 1) :
    (staying length).choice (.int place) = if place = 0 then stay else go := by
  simp [Policy.choice, staying, small]

theorem staying_legal (length : Nat) : (relay length).LegalPolicy (staying length) := by
  unfold Model.LegalPolicy
  rw [relay_forall]
  intro place small
  refine ⟨if place = 0 then stay else go, ?_, by simp [staying, small]⟩
  rw [relay_legal small]
  split <;> simp

/-! ## Backups -/

theorem Model.backup_of_get? {F : Type} [Field F] {model : Model F} {state action target : Ident}
    (found : model.rowTable.get? (state, action) = some (.ofPairs [(target, 1)]))
    (value : Ident → F) : model.backup value state action =
      model.reward state action target + model.discount * value target := by
  have entries : (Table.ofPairs [(target, (1 : F))]).entries = [(target, 1)] := rfl
  rw [Model.backup, Model.mean, Model.rowAt_of_get? found, entries]
  simp

theorem relay_row_stay :
    (relay length).rowTable.get? (.int 0, stay) = some (.ofPairs [(.int 0, 1)]) := by
  simp [relay]

theorem relay_row_go (small : place ≤ length + 1) :
    (relay length).rowTable.get? (.int place, go) =
      some (.ofPairs [(.int (min (place + 1) (length + 1) : Nat), 1)]) := by
  have other : go ≠ stay := by decide
  simp [relay, relayNext, other, small]

private theorem relay_backup_stay (length : Nat) (value : Ident → ℚ) :
    (relay length).backup value (.int 0) stay = 1 / 2 * value (.int 0) := by
  have elsewhere : ¬ (0 : Int) = length + 1 := by omega
  rw [Model.backup_of_get? relay_row_stay]
  simp [relay, elsewhere]

private theorem relay_backup_go (small : place ≤ length + 1) (value : Ident → ℚ) :
    (relay length).backup value (.int place) go =
      (if place = length + 1 then 2 ^ length else 0) +
        1 / 2 * value (.int (min (place + 1) (length + 1) : Nat)) := by
  have same : (place : Int) = length + 1 ↔ place = length + 1 := by omega
  rw [Model.backup_of_get? (relay_row_go small)]
  simp [relay, same]

private theorem relay_follow_staying (small : place ≤ length + 1) (value : Ident → ℚ) :
    (relay length).follow (staying length).choice value (.int place) =
      if place = 0 then 1 / 2 * value (.int 0)
      else (if place = length + 1 then 2 ^ length else 0) +
        1 / 2 * value (.int (min (place + 1) (length + 1) : Nat)) := by
  rw [Model.follow, staying_choice small]
  split
  · next start =>
      subst start
      exact relay_backup_stay length value
  · exact relay_backup_go small value

theorem relay_active : ∀ state ∈ (relay length).states, (relay length).legal state ≠ [] := by
  rw [relay_forall]
  intro place small
  rw [relay_legal small]
  split <;> simp

theorem relay_stochastic : (relay length).Stochastic := by
  unfold Model.Stochastic
  rw [relay_forall]
  intro place small action legal
  rw [relay_legal small] at legal
  have next : .int (min (place + 1) (length + 1) : Nat) ∈ (relay length).states :=
    mem_relayPlaces.mpr (min_le_right _ _)
  have goes : action = go → ∃ row, (relay length).rowTable.get? (.int place, action) = some row ∧
      row.Stochastic (relay length).states := by
    rintro rfl
    exact ⟨_, relay_row_go small, Row.stochastic_sure next⟩
  split at legal
  · next start =>
      rcases List.mem_pair.mp legal with rfl | moves
      · subst start
        exact ⟨_, relay_row_stay, Row.stochastic_sure (mem_relayPlaces.mpr small)⟩
      · exact goes moves
  · exact goes (List.mem_singleton.mp legal)

/-! ## Exact values -/

/-- Double the value from place to place, with one at the start. -/
def doubling : Ident → ℚ
  | .int place => 2 ^ place.toNat
  | _ => 0

/-- The same with nothing at the start. -/
def doublingLater (state : Ident) : ℚ := if state = .int 0 then 0 else doubling state

private theorem doubling_place (place : Nat) : doubling (.int place) = 2 ^ place := rfl

private theorem doublingLater_place (place : Nat) :
    doublingLater (.int place) = if place = 0 then 0 else 2 ^ place := by
  simp [doublingLater, doubling_place]

private theorem relay_step (small : place ≤ length + 1) :
    (if place = length + 1 then (2 : ℚ) ^ length else 0) +
      1 / 2 * 2 ^ min (place + 1) (length + 1) = 2 ^ place := by
  split
  · next last =>
      subst last
      rw [min_eq_right (Nat.le_succ _), pow_succ]
      ring
  · next inner =>
      rw [min_eq_left (by omega), pow_succ]
      ring

private theorem relay_best_doubling :
    ∀ state ∈ (relay length).states, (relay length).best doubling state = doubling state := by
  rw [relay_forall]
  intro place small
  have goes : (relay length).backup doubling (.int place) go = doubling (.int place) := by
    rw [relay_backup_go small, doubling_place, doubling_place, relay_step small]
  have legal := relay_legal small
  have chosen : (relay length).greedy doubling (.int place) ∈ (relay length).legal (.int place) :=
    Model.greedy_mem doubling (relay_active _ (mem_relayPlaces.mpr small))
  apply le_antisymm
  · rw [legal] at chosen
    unfold Model.best
    split at chosen
    · next start =>
        rcases List.mem_pair.mp chosen with stays | moves
        · subst start
          rw [stays]
          refine (relay_backup_stay length doubling).trans_le ?_
          norm_num [doubling]
        · rw [moves, goes]
    · rw [List.mem_singleton.mp chosen, goes]
  · refine goes.ge.trans (Model.backup_le_best doubling ?_)
    rw [legal]
    split <;> simp

private theorem relay_follow_doublingLater :
    ∀ state ∈ (relay length).states,
      (relay length).follow (staying length).choice doublingLater state = doublingLater state := by
  rw [relay_forall]
  intro place small
  have onward : ¬ min (place + 1) (length + 1) = 0 := by omega
  rw [relay_follow_staying small]
  split
  · next start => simp [start, doublingLater]
  · next later =>
      rw [doublingLater_place, doublingLater_place, if_neg onward, if_neg later, relay_step small]

/-! ## Computed values -/

private theorem relay_iterate_zero (count : Nat) (near : place + count ≤ length + 1) :
    ((relay length).follow (staying length).choice)^[count] 0 (.int place) = 0 := by
  induction count generalizing place with
  | zero => rfl
  | succ count ih =>
      have start : ((relay length).follow (staying length).choice)^[count] 0 (.int 0) = 0 := @ih 0 (by omega)
      have next := @ih (place + 1)
      rw [Function.iterate_succ_apply', relay_follow_staying (by omega), start,
        if_neg (by omega : ¬ place = length + 1), min_eq_left (by omega)]
      split
      · simp
      · rw [next (by omega)]
        simp

private theorem relay_backup_le (small : place ≤ length + 1) {action : Ident}
    (legal : action ∈ (relay length).legal (.int place)) :
    let computed := ((relay length).follow (staying length).choice)^[length] 0
    (relay length).backup computed (.int place) action ≤
      (relay length).follow (staying length).choice computed (.int place) := by
  intro computed
  rw [relay_legal small] at legal
  rw [relay_follow_staying small]
  split at legal
  · next start =>
      subst start
      have here : computed (.int 0) = 0 := @relay_iterate_zero length 0 length (by omega)
      have next : computed (.int 1) = 0 := @relay_iterate_zero length 1 length (by omega)
      rcases List.mem_pair.mp legal with rfl | rfl
      · exact (relay_backup_stay length computed).le
      · have moved := relay_backup_go small computed
        rw [if_neg (by omega), min_eq_left (by omega)] at moved
        refine moved.trans_le ?_
        simp [here, next]
  · next later =>
      rw [List.mem_singleton.mp legal, if_neg later, relay_backup_go small]

private theorem relay_endsAfter : (relay length).EndsAfter length (staying length).choice 0 := by
  refine ⟨?_, fun earlier before => absurd before (Nat.not_lt_zero earlier)⟩
  unfold Model.Quiet
  rw [relay_forall]
  intro place small
  exact Model.not_improvable_of_le (relay_active _ (mem_relayPlaces.mpr small)) fun _ legal =>
    relay_backup_le small legal

/-! ## The shortfall -/

theorem relay_discount : 0 ≤ (relay length).discount ∧ (relay length).discount < 1 := by
  constructor <;> norm_num [relay]

private theorem relay_allowance_lt : (relay length).allowance < 1 := by
  norm_num [Model.allowance, margin, relay]

/-- For every number of sweeps there is a relay on which a run ends in its first round and keeps a
policy of exact value zero at the start, where the optimum is one. -/
theorem Model.policyIteration_falls_short {Source : Type} [IndexSource Source] (sweeps : Nat)
    (positive : 0 < sweeps) :
    ∃ (result : PolicyIteration (Extended ℚ)) (exact optimum : Utility ℚ),
      ((relay sweeps).extended.policyIteration sweeps
        (.given (staying sweeps) : StartingPolicy (Extended ℚ) Source) 1).result
          (relay sweeps).extended = .ok (some result) ∧
      (relay sweeps).EvaluationFixes result.policy exact ∧ (relay sweeps).SweepFixes optimum ∧
      exact.get? (.int 0) = some 0 ∧ optimum.get? (.int 0) = some 1 := by
  have accepted : (relay sweeps).Accepted := relay_stochastic.accepted relay_active
  have lawful : (relay sweeps).extended.LegalPolicy (staying sweeps) := staying_legal sweeps
  obtain ⟨begun, entry, same⟩ := Model.exists_startPolicy Source lawful
  have ends : (relay sweeps).EndsAfter (sweeps : Int).toNat (staying sweeps).choice 0 :=
    relay_endsAfter
  obtain ⟨result, run, ended⟩ := Model.result_policyIteration accepted relay_discount
    (Int.natCast_pos.mpr positive) entry same one_pos ends
  have takes : result.policy.Takes (relay sweeps).states (staying sweeps).choice := ended.takes
  refine ⟨result, .ofKeys (relay sweeps).states doublingLater, .ofKeys (relay sweeps).states doubling,
    run, ?_, Model.sweepFixes_of_best_eq accepted relay_best_doubling, ?_, ?_⟩
  · refine Model.evaluationFixes_of_follow_eq accepted
      (takes.legalPolicy (staying_legal sweeps).legalChoice) relay_discount fun state member => ?_
    exact (takes.follow_eq _ state member).trans (relay_follow_doublingLater state member)
  · simp [relay, relayPlaces, doublingLater]
  · simp [relay, relayPlaces, doubling]

/-- With the default number of sweeps, on the relay of length twenty. -/
theorem Model.policyIteration_falls_short_default :
    let model := relay 20
    model.Stochastic ∧ (∀ state ∈ model.states, model.legal state ≠ []) ∧
      (0 ≤ model.discount ∧ model.discount < 1) ∧ model.LegalPolicy (staying 20) ∧
      ∃ (result : PolicyIteration (Extended ℚ)) (exact optimum : Utility ℚ) (own best : ℚ),
        (model.extended.policyIteration defaultSweeps
          (.given (staying 20) : StartingPolicy (Extended ℚ) Generator) 1).result model.extended =
            .ok (some result) ∧
        model.EvaluationFixes result.policy exact ∧ model.SweepFixes optimum ∧
        exact.get? (.int 0) = some own ∧ optimum.get? (.int 0) = some best ∧
        own + margin / (1 - model.discount) < best := by
  intro model
  obtain ⟨result, exact, optimum, run, evaluated, fixed, own, best⟩ :=
    @Model.policyIteration_falls_short Generator _ 20 (by norm_num)
  exact ⟨relay_stochastic, relay_active, relay_discount, staying_legal 20, result, exact, optimum, 0,
    1, run, evaluated, fixed, own, best, (zero_add _).trans_lt relay_allowance_lt⟩

end MarkovDecision
