import MarkovDecision.Proofs.PolicyIteration.Improvement
import MarkovDecision.Proofs.PolicyIteration.Shortfall

/-!
# A policy that comes again

On the lure going earns one at once and costs two later. An evaluation with fewer sweeps than there
are steps sees the gain but not the cost, so the first round gives up a better policy. The second round
starts from the values of the first, sees the cost, and takes the policy back.
-/

set_option autoImplicit false

namespace MarkovDecision

/-- The relay with a reward for setting off and a fine at the last place. -/
def lure (length : Nat) : Model ℚ :=
  { relay length with
    reward := fun state action _ =>
      if state = .int 0 ∧ action = go then 1
      else if state = .int (length + 1) then -2 ^ (length + 1) else 0 }

variable {length place count : Nat} {value : Ident → ℚ} {choice : Ident → Ident}

private theorem lure_forall {holds : Ident → Prop} :
    (∀ state ∈ (lure length).states, holds state) ↔
      ∀ place : Nat, place ≤ length + 1 → holds (.int place) := relay_forall

private theorem mem_lure_states :
    .int place ∈ (lure length).states ↔ place ≤ length + 1 := mem_relayPlaces

private theorem lure_legal (small : place ≤ length + 1) :
    (lure length).legal (.int place) = if place = 0 then [stay, go] else [go] := relay_legal small

private theorem lure_active :
    ∀ state ∈ (lure length).states, (lure length).legal state ≠ [] := relay_active

private theorem lure_stochastic : (lure length).Stochastic := relay_stochastic

private theorem lure_discount : 0 ≤ (lure length).discount ∧ (lure length).discount < 1 :=
  @relay_discount length

private theorem lure_staying_legal :
    (lure length).LegalPolicy (staying length) := staying_legal length

/-! ## Backups -/

private theorem lure_backup_stay (length : Nat) (value : Ident → ℚ) :
    (lure length).backup value (.int 0) stay = 1 / 2 * value (.int 0) := by
  have other : stay ≠ go := by decide
  have elsewhere : ¬ (0 : Int) = length + 1 := by omega
  have row : (lure length).rowTable.get? (.int 0, stay) = some (.ofPairs [(.int 0, 1)]) :=
    relay_row_stay
  rw [Model.backup_of_get? row]
  simp [lure, relay, other, elsewhere]

private theorem lure_backup_go (small : place ≤ length + 1) (value : Ident → ℚ) :
    (lure length).backup value (.int place) go =
      (if place = 0 then 1 else if place = length + 1 then -2 ^ (length + 1) else 0) +
        1 / 2 * value (.int (min (place + 1) (length + 1) : Nat)) := by
  have same : (place : Int) = length + 1 ↔ place = length + 1 := by omega
  have row : (lure length).rowTable.get? (.int place, go) =
      some (.ofPairs [(.int (min (place + 1) (length + 1) : Nat), 1)]) := relay_row_go small
  rw [Model.backup_of_get? row]
  simp [lure, relay, same]

private theorem lure_backup_go_start (length : Nat) (value : Ident → ℚ) :
    (lure length).backup value (.int 0) go = 1 + 1 / 2 * value (.int 1) := by
  have moved := lure_backup_go (Nat.zero_le (length + 1)) value
  rw [if_pos rfl, min_eq_left (by omega)] at moved
  exact moved

private theorem lure_choice_later (legal : (lure length).LegalChoice choice) (later : 0 < place)
    (small : place ≤ length + 1) : choice (.int place) = go := by
  have chosen := legal _ (mem_lure_states.mpr small)
  rw [lure_legal small, if_neg later.ne'] at chosen
  exact List.mem_singleton.mp chosen

/-! ## Later places -/

/-- The value of a later place after a number of backups from zero: what is lost there for good, but
for what these backups have not seen. -/
def lureValue (length count place : Nat) : ℚ :=
  2 ^ (min (place + count) (length + 1) + 1) / 2 ^ count - 2 ^ (place + 1)

def Lured (length count : Nat) (value : Ident → ℚ) : Prop :=
  ∀ place : Nat, 0 < place → place ≤ length + 1 → value (.int place) = lureValue length count place

private theorem lured_zero : Lured length 0 0 := by
  intro place _ small
  simp [lureValue, min_eq_left small]

private theorem lureValue_succ (small : place ≤ length + 1) :
    (if place = length + 1 then (-2 ^ (length + 1) : ℚ) else 0) +
      1 / 2 * lureValue length count (min (place + 1) (length + 1)) =
        lureValue length (count + 1) place := by
  unfold lureValue
  split
  · next last =>
      subst last
      rw [min_eq_right (by omega : length + 1 ≤ length + 1 + 1), min_eq_right (by omega),
        min_eq_right (by omega), pow_succ 2 count, pow_succ 2 (length + 1)]
      field_simp
      ring
  · next inner =>
      rw [min_eq_left (by omega : place + 1 ≤ length + 1), show place + 1 + count = place + (count + 1)
        by omega, pow_succ 2 count, pow_succ 2 (place + 1)]
      field_simp
      ring

theorem Lured.follow (lured : Lured length count value) (legal : (lure length).LegalChoice choice) :
    Lured length (count + 1) ((lure length).follow choice value) := by
  intro place later small
  rw [Model.follow, lure_choice_later legal later small, lure_backup_go small, if_neg later.ne',
    lured _ (by omega) (min_le_right _ _)]
  exact lureValue_succ small

theorem Lured.iterate (lured : Lured length count value) (legal : (lure length).LegalChoice choice)
    (more : Nat) : Lured length (count + more) (((lure length).follow choice)^[more] value) := by
  induction more with
  | zero => exact lured
  | succ more ih =>
      rw [Function.iterate_succ_apply']
      exact ih.follow legal

private theorem lureValue_one (enough : length ≤ count) :
    lureValue length count 1 = 2 ^ (length + 2) / 2 ^ count - 4 := by
  rw [lureValue, min_eq_right (by omega)]
  norm_num

private theorem lure_not_improvable_later (legal : (lure length).LegalChoice choice)
    (later : 0 < place)
    (small : place ≤ length + 1) : ¬ (lure length).Improvable choice value (.int place) := by
  refine Model.not_improvable_of_le (lure_active _ (mem_lure_states.mpr small)) fun action allowed => ?_
  rw [lure_legal small, if_neg later.ne', List.mem_singleton] at allowed
  rw [Model.follow, lure_choice_later legal later small, allowed]

/-! ## The start -/

private theorem lure_legal_start (length : Nat) : (lure length).legal (.int 0) = [stay, go] :=
  lure_legal (Nat.zero_le (length + 1))

private theorem lure_iterate_stay (stays : choice (.int 0) = stay) (count : Nat) :
    ((lure length).follow choice)^[count] value (.int 0) = value (.int 0) / 2 ^ count := by
  induction count with
  | zero => simp
  | succ count ih =>
      rw [Function.iterate_succ_apply', Model.follow, stays, lure_backup_stay, ih, pow_succ]
      ring

private theorem lure_improved_to_go (stays : choice (.int 0) = stay)
    (better : 1 / 2 * value (.int 0) + margin < 1 + 1 / 2 * value (.int 1)) :
    (lure length).Improvable choice value (.int 0) ∧
      (lure length).improved choice value (.int 0) = go := by
  refine Model.improved_eq_of_pair (fun action legal => ?_) ?_ stays ?_
  · rw [lure_legal_start] at legal
    exact List.mem_pair.mp legal
  · rw [lure_legal_start]
    exact List.mem_cons_of_mem _ List.mem_cons_self
  · rwa [lure_backup_stay, lure_backup_go_start]

private theorem lure_improved_to_stay (goes : choice (.int 0) = go)
    (better : 1 + 1 / 2 * value (.int 1) + margin < 1 / 2 * value (.int 0)) :
    (lure length).Improvable choice value (.int 0) ∧
      (lure length).improved choice value (.int 0) = stay := by
  refine Model.improved_eq_of_pair (fun action legal => ?_) ?_ goes ?_
  · rw [lure_legal_start] at legal
    exact (List.mem_pair.mp legal).symm
  · rw [lure_legal_start]
    exact List.mem_cons_self
  · rwa [lure_backup_stay, lure_backup_go_start]

/-! ## Standings -/

/-- The standing after some rounds of policy iteration that start from staying. -/
def lureStanding (length rounds : Nat) : Standing ℚ :=
  (lure length).standing length (staying length).choice rounds

private theorem lureStanding_legal (length rounds : Nat) :
    (lure length).LegalChoice (lureStanding length rounds).choice :=
  Model.standing_legal lure_active lure_staying_legal.legalChoice length rounds

private theorem lureStanding_succ (length rounds : Nat) :
    lureStanding length (rounds + 1) = (lure length).advance length (lureStanding length rounds) :=
  Model.standing_succ _ _ _ _

private theorem lureStanding_lured (length rounds : Nat) :
    Lured length (rounds * length) (lureStanding length rounds).value := by
  induction rounds with
  | zero =>
      rw [Nat.zero_mul]
      exact lured_zero
  | succ rounds ih =>
      rw [lureStanding_succ, Nat.succ_mul]
      exact ih.iterate (lureStanding_legal length rounds) length

private theorem lureStanding_value_one {rounds : Nat} (positive : 0 < rounds) :
    (lureStanding length rounds).value (.int 1) = 2 ^ (length + 2) / 2 ^ (rounds * length) - 4 := by
  have seen := lureStanding_lured length rounds 1 one_pos (by omega)
  rwa [lureValue_one (Nat.le_mul_of_pos_left length positive)] at seen

private theorem lureStanding_start : (lureStanding length 0).choice (.int 0) = stay :=
  staying_choice (Nat.zero_le (length + 1))

private theorem lureStanding_value_first : (lureStanding length 1).value (.int 0) = 0 := by
  rw [lureStanding_succ]
  exact (lure_iterate_stay lureStanding_start length).trans (zero_div _)

/-- The first round sees what going earns and not what it costs. -/
private theorem lureStanding_first :
    (lure length).Improvable (lureStanding length 0).choice (lureStanding length 1).value (.int 0) ∧
      (lureStanding length 1).choice (.int 0) = go := by
  refine lure_improved_to_go lureStanding_start ?_
  have small : (margin : ℚ) < 1 := by norm_num [margin]
  change 1 / 2 * (lureStanding length 1).value (.int 0) + margin <
    1 + 1 / 2 * (lureStanding length 1).value (.int 1)
  rw [lureStanding_value_first, lureStanding_value_one one_pos, one_mul, pow_add]
  field_simp
  linarith

private theorem lureStanding_value_second (before : Nat) :
    (lureStanding (before + 1) 2).value (.int 0) = 2 / 2 ^ before - 1 := by
  have seen := (lureStanding_lured (before + 1) 1).iterate (lureStanding_legal (before + 1) 1) before
    1 one_pos (by omega)
  rw [Nat.cast_one, lureValue_one (by omega)] at seen
  rw [lureStanding_succ]
  change ((lure (before + 1)).follow (lureStanding (before + 1) 1).choice)^[before + 1]
    (lureStanding (before + 1) 1).value (.int 0) = _
  have ratio : (2 : ℚ) ^ (before + 1 + 2) / 2 ^ (1 * (before + 1) + before) = 4 / 2 ^ before := by
    rw [show 1 * (before + 1) + before = before + before + 1 by omega, pow_add, pow_add 2 before 1,
      pow_add 2 (before + before) 1, pow_add 2 before before]
    field_simp
    norm_num
  rw [Function.iterate_succ_apply', Model.follow, lureStanding_first.2, lure_backup_go_start, seen,
    ratio]
  ring

/-- The second round sees the cost too, which going has by then caused at the start. -/
private theorem lureStanding_second (before : Nat) :
    (lure (before + 1)).Improvable (lureStanding (before + 1) 1).choice
        (lureStanding (before + 1) 2).value (.int 0) ∧
      (lureStanding (before + 1) 2).choice (.int 0) = stay := by
  refine lure_improved_to_stay lureStanding_first.2 ?_
  have small : (margin : ℚ) < 1 / 2 := by norm_num [margin]
  change 1 + 1 / 2 * (lureStanding (before + 1) 2).value (.int 1) + margin <
    1 / 2 * (lureStanding (before + 1) 2).value (.int 0)
  have seen : (2 : ℚ) ^ (before + 1 + 2) / 2 ^ (2 * (before + 1)) = 2 / 2 ^ before := by
    rw [show 2 * (before + 1) = before + before + 2 by omega, pow_add, pow_add 2 before 1,
      pow_add 2 (before + before) 2, pow_add]
    field_simp
  rw [lureStanding_value_second, lureStanding_value_one two_pos, seen]
  linarith

/-- Staying is best from then on. -/
private theorem lureStanding_third (before : Nat) :
    ¬ (lure (before + 1)).Improvable (lureStanding (before + 1) 2).choice
      (lureStanding (before + 1) 3).value (.int 0) := by
  have stays := (lureStanding_second before).2
  have here : (lureStanding (before + 1) 3).value (.int 0) =
      (2 / 2 ^ before - 1) / 2 ^ (before + 1) := by
    rw [lureStanding_succ, ← lureStanding_value_second]
    exact lure_iterate_stay stays (before + 1)
  have large : (1 : ℚ) ≤ 2 ^ before := one_le_pow₀ one_le_two
  have kept : -(1 / 2 : ℚ) ≤ (2 / 2 ^ before - 1) / 2 ^ (before + 1) := by
    rw [le_div_iff₀ (by positivity), pow_succ]
    have gain : (0 : ℚ) < 2 / 2 ^ before := by positivity
    linarith
  have seen : (2 : ℚ) ^ (before + 1 + 2) / 2 ^ (3 * (before + 1)) ≤ 1 := by
    rw [div_le_one (by positivity)]
    exact pow_le_pow_right₀ one_le_two (by omega)
  refine Model.not_improvable_of_le (lure_active _ (mem_lure_states.mpr (Nat.zero_le _)))
    fun action legal => ?_
  rw [lure_legal_start] at legal
  rw [Model.follow, stays, lure_backup_stay]
  rcases List.mem_pair.mp legal with rfl | rfl
  · rw [lure_backup_stay]
  · rw [lure_backup_go_start, here, lureStanding_value_one (by norm_num)]
    linarith

private theorem lure_endsAfter (before : Nat) :
    (lure (before + 1)).EndsAfter (before + 1) (staying (before + 1)).choice 2 := by
  have start : .int 0 ∈ (lure (before + 1)).states := mem_lure_states.mpr (Nat.zero_le _)
  have advanced : ∀ rounds, (lure (before + 1)).evaluated (before + 1) (lureStanding (before + 1) rounds) =
      (lureStanding (before + 1) (rounds + 1)).value := by
    intro rounds
    rw [lureStanding_succ]
    rfl
  constructor
  · unfold Model.Quiet
    rw [lure_forall]
    intro place small
    rcases Nat.eq_zero_or_pos place with rfl | later
    · have still := lureStanding_third before
      rw [← advanced] at still
      exact still
    · exact lure_not_improvable_later (lureStanding_legal (before + 1) 2) later small
  · intro earlier sooner quiet
    have held := quiet _ start
    rcases (by omega : earlier = 0 ∨ earlier = 1) with rfl | rfl
    · have moves : (lure (before + 1)).Improvable (lureStanding (before + 1) 0).choice
          (lureStanding (before + 1) 1).value (.int 0) := lureStanding_first.1
      rw [← advanced] at moves
      exact held moves
    · have moves := (lureStanding_second before).1
      rw [← advanced] at moves
      exact held moves

/-! ## Exact values -/

/-- The exact values of a policy of the lure, given the one at the start. -/
def lureExact (atStart : ℚ) : Ident → ℚ
  | .int place => if place = 0 then atStart else -2 ^ (place.toNat + 1)
  | _ => 0

private theorem lureExact_start (atStart : ℚ) : lureExact atStart (.int 0) = atStart := rfl

private theorem lureExact_later (atStart : ℚ) (later : 0 < place) :
    lureExact atStart (.int place) = -2 ^ (place + 1) := by
  simp [lureExact, later.ne']

private theorem lure_follow_exact (legal : (lure length).LegalChoice choice) {atStart : ℚ}
    (start : (lure length).follow choice (lureExact atStart) (.int 0) = atStart) :
    ∀ state ∈ (lure length).states,
      (lure length).follow choice (lureExact atStart) state = lureExact atStart state := by
  rw [lure_forall]
  intro place small
  rcases Nat.eq_zero_or_pos place with rfl | later
  · exact start
  · rw [Model.follow, lure_choice_later legal later small, lure_backup_go small, if_neg later.ne',
      lureExact_later _ later, lureExact_later _ (by omega)]
    split
    · next last =>
        rw [last, min_eq_right (by omega), pow_succ 2 (length + 1)]
        ring
    · next inner =>
        rw [min_eq_left (by omega), pow_succ 2 (place + 1)]
        ring

/-! ## The revisit -/

/-- For every number of sweeps there is a lure on which the first round makes the policy worse, from
exact value zero at the start to minus one, and the second round comes back to the policy before. -/
theorem Model.policyIteration_revisits (Source : Type) [IndexSource Source] (sweeps : Nat)
    (positive : 0 < sweeps) :
    ∃ (result : PolicyIteration (Extended ℚ)) (first second : Policy) (own worse : Utility ℚ),
      ((lure sweeps).extended.policyIteration sweeps
        (.given (staying sweeps) : StartingPolicy (Extended ℚ) Source) 3).result
          (lure sweeps).extended = .ok (some result) ∧
      result.course (staying sweeps) = [staying sweeps, first, second] ∧
      (∀ state ∈ (lure sweeps).states, second.get? state = (staying sweeps).get? state) ∧
      (lure sweeps).EvaluationFixes (staying sweeps) own ∧
      (lure sweeps).EvaluationFixes first worse ∧
      own.get? (.int 0) = some 0 ∧ worse.get? (.int 0) = some (-1) := by
  obtain ⟨before, rfl⟩ : ∃ before, sweeps = before + 1 := ⟨sweeps - 1, by omega⟩
  have accepted : (lure (before + 1)).Accepted := lure_stochastic.accepted lure_active
  have lawful : (lure (before + 1)).extended.LegalPolicy (staying (before + 1)) := lure_staying_legal
  obtain ⟨begun, entry, same⟩ := Model.exists_startPolicy Source lawful
  have ends : (lure (before + 1)).EndsAfter ((before + 1 : Nat) : Int).toNat
      (staying (before + 1)).choice 2 := lure_endsAfter before
  obtain ⟨result, run, ended⟩ := Model.result_policyIteration accepted lure_discount
    (Int.natCast_pos.mpr positive) entry same (Nat.lt_succ_self 2) ends
  obtain ⟨earlier, last, split, length, course, -⟩ := ended.exists_earlier
  obtain ⟨first, second, rfl⟩ := List.length_eq_two.mp length
  have takesFirst : first.policy.Takes (lure (before + 1)).states
      (lureStanding (before + 1) 1).choice := by
    rw [lureStanding_succ]
    exact (ended.traced 0 first (by rw [split]; rfl)).2.policy
  have takesSecond : second.policy.Takes (lure (before + 1)).states
      (lureStanding (before + 1) 2).choice := by
    rw [lureStanding_succ]
    exact (ended.traced 1 second (by rw [split]; rfl)).2.policy
  have legalFirst := lureStanding_legal (before + 1) 1
  have legalStart : (lure (before + 1)).LegalPolicy (staying (before + 1)) := lure_staying_legal
  have start : .int 0 ∈ (lure (before + 1)).states := mem_lure_states.mpr (Nat.zero_le _)
  refine ⟨result, first.policy, second.policy, .ofKeys (lure (before + 1)).states (lureExact 0),
    .ofKeys (lure (before + 1)).states (lureExact (-1)), run, course, ?_, ?_, ?_, ?_, ?_⟩
  · rw [lure_forall]
    intro place small
    have member := mem_lure_states.mpr small
    rw [takesSecond _ member, legalStart.takes _ member, Option.some.injEq]
    rcases Nat.eq_zero_or_pos place with rfl | later
    · exact (lureStanding_second before).2.trans lureStanding_start.symm
    · rw [lure_choice_later (lureStanding_legal (before + 1) 2) later small,
        lure_choice_later legalStart.legalChoice later small]
  · refine Model.evaluationFixes_of_follow_eq accepted legalStart lure_discount
      (lure_follow_exact legalStart.legalChoice ?_)
    have stays : (staying (before + 1)).choice (.int 0) = stay := lureStanding_start
    rw [Model.follow, stays, lure_backup_stay, lureExact_start, mul_zero]
  · refine Model.evaluationFixes_of_follow_eq accepted (takesFirst.legalPolicy legalFirst)
      lure_discount fun state member => ?_
    refine (takesFirst.follow_eq _ state member).trans (lure_follow_exact legalFirst ?_ state member)
    rw [Model.follow, lureStanding_first.2, lure_backup_go_start]
    norm_num [lureExact]
  · rw [Table.get?_ofKeys, if_pos start, lureExact_start]
  · rw [Table.get?_ofKeys, if_pos start, lureExact_start]

/-- With the default number of sweeps, on the lure of length twenty: the course comes back to where it
began, and gets worse on the way. -/
theorem Model.policyIteration_revisits_default :
    let model := lure 20
    model.Stochastic ∧ (∀ state ∈ model.states, model.legal state ≠ []) ∧
      (0 ≤ model.discount ∧ model.discount < 1) ∧ 1 ≤ defaultSweeps ∧
      model.LegalPolicy (staying 20) ∧
      ∃ (result : PolicyIteration (Extended ℚ)) (first second : Policy) (own worse : Utility ℚ),
        (model.extended.policyIteration defaultSweeps
          (.given (staying 20) : StartingPolicy (Extended ℚ) Generator) 3).result model.extended =
            .ok (some result) ∧
        result.course (staying 20) = [staying 20, first, second] ∧
        (∀ state ∈ model.states, second.get? state = (staying 20).get? state) ∧
        model.EvaluationFixes (staying 20) own ∧ model.EvaluationFixes first worse ∧
        own.get? (.int 0) = some 0 ∧ worse.get? (.int 0) = some (-1) := by
  intro model
  exact ⟨lure_stochastic, lure_active, lure_discount, by decide, lure_staying_legal,
    Model.policyIteration_revisits Generator 20 (by norm_num)⟩

end MarkovDecision
