import MarkovDecision.Proofs.PolicyIteration.Termination

/-!
# Quality of the policy that policy iteration returns

The last round of a run is quiet for values that a bounded number of backups has computed, and these
may be far from the exact values of the policy. How far they are above and below decides how much the
policy may lose. With enough backups for the model at hand nothing is lost beyond what the margin
allows, but no number is enough for all models.
-/

set_option autoImplicit false

namespace MarkovDecision

variable {F : Type} [Field F] [LinearOrder F]

/-- How much a policy may lose for the sake of the margin. -/
def Model.allowance (model : Model F) : F := margin / (1 - model.discount)

/-- The fixed point of the sweep is above that of the evaluation of a policy by no more than the
allowance. Both exist. -/
structure Model.NearlyOptimal (model : Model F) (policy : Policy) : Prop where
  evaluated : ∃ exact, model.EvaluationFixes policy exact
  solved : ∃ optimum, model.SweepFixes optimum
  near : ∀ exact optimum, model.EvaluationFixes policy exact → model.SweepFixes optimum →
    Utility.ExceedsAtMost optimum.extended exact.extended model.states model.allowance

/-- Some run of policy iteration, from a policy that is given or drawn, returns the result. -/
def Model.Returns (model : Model F) (sweeps : Int) (result : PolicyIteration (Extended F)) : Prop :=
  ∃ (Source : Type) (_ : IndexSource Source) (start : StartingPolicy (Extended F) Source)
      (budget : Nat),
    (model.extended.policyIteration sweeps start budget).result model.extended = .ok (some result)

variable {model : Model F} {choice : Ident → Ident}

variable [IsStrictOrderedRing F]

/-! ## Exact utilities -/

theorem Model.Stochastic.exists_evaluationFixes (stochastic : model.Stochastic)
    (discount : 0 ≤ model.discount ∧ model.discount < 1) {policy : Policy}
    (legal : model.LegalPolicy policy) : ∃ exact, model.EvaluationFixes policy exact := by
  obtain ⟨value, stays⟩ := Model.exists_follow_eq
    (stochastic.follow_contracts discount.1 legal.legalChoice) discount.2
  exact ⟨_, Model.evaluationFixes_of_follow_eq (stochastic.accepted legal.active) legal discount stays⟩

theorem Model.Stochastic.exists_sweepFixes (stochastic : model.Stochastic)
    (active : ∀ state ∈ model.states, model.legal state ≠ [])
    (discount : 0 ≤ model.discount ∧ model.discount < 1) : ∃ optimum, model.SweepFixes optimum := by
  obtain ⟨value, stays⟩ := Model.exists_best_eq active
    (fun _ => stochastic.follow_contracts discount.1) discount.2
  exact ⟨_, Model.sweepFixes_of_best_eq (stochastic.accepted active) stays⟩

/-! ## What a quiet round says about exact values -/

section Quiet

variable {exact computed : Ident → F} (stochastic : model.Stochastic)
  (active : ∀ state ∈ model.states, model.legal state ≠ [])
  (discount : 0 ≤ model.discount ∧ model.discount < 1)

include stochastic active discount

theorem Model.optimum_le {optimum : Ident → F} {slack : F} (nonneg : 0 ≤ slack)
    (gain : ∀ state ∈ model.states, model.best exact state ≤ exact state + slack)
    (fixed : ∀ state ∈ model.states, model.best optimum state = optimum state) :
    ∀ state ∈ model.states, optimum state ≤ exact state + slack / (1 - model.discount) := by
  intro state member
  have contracts := stochastic.best_contracts active discount.1
  have near : optimum state - exact state ≤ slack / (1 - model.discount) :=
    contracts.sub_le discount.2 nonneg
      (fun other listed => by linarith [gain other listed, fixed other listed]) state member
  linarith

/-- Sweeps from below lead to the optimum and not above it. So the optimum keeps a distance exactly
if all sweeps do. -/
theorem Model.optimum_le_iff [Archimedean F] {optimum : Ident → F} {slack : F}
    (rises : ∀ state ∈ model.states, exact state ≤ model.best exact state)
    (fixed : ∀ state ∈ model.states, model.best optimum state = optimum state) :
    (∀ state ∈ model.states, optimum state ≤ exact state + slack) ↔
      ∀ count, ∀ state ∈ model.states, model.best^[count] exact state ≤ exact state + slack := by
  have contracts := stochastic.best_contracts active discount.1
  constructor
  · intro near count state member
    have under := contracts.le_fixed discount.2 rises fixed
    have kept : model.best^[count] exact state - model.best^[count] optimum state ≤
        model.discount ^ count * 0 :=
      contracts.iterate_sub_le le_rfl discount.1
        (fun other listed => sub_nonpos.mpr (under other listed)) count state member
    rw [contracts.iterate_fixed fixed count state member] at kept
    linarith [near state member]
  · intro lifted state member
    by_contra far
    obtain ⟨enough, small⟩ := exists_pow_mul_lt discount.1 discount.2
      (gap_nonneg model.states optimum exact) (sub_pos.mpr (not_le.mp far))
    have close := contracts.iterate_sub_le (gap_nonneg model.states optimum exact) discount.1
      (fun other listed => (le_abs_self _).trans (abs_sub_le_gap listed)) enough state member
    rw [contracts.iterate_fixed fixed enough state member] at close
    linarith [lifted enough state member, small enough le_rfl]

variable (legal : model.LegalChoice choice)
  (stays : ∀ state ∈ model.states, model.follow choice exact state = exact state)

include legal stays

/-- If the computed values are above the exact ones by at most `above` and below them by at most
`below`, then no action gains more than the margin and the discounted sum of both. -/
theorem Model.best_le_of_quiet {above below : F}
    (high : ∀ state ∈ model.states, computed state - exact state ≤ above)
    (low : ∀ state ∈ model.states, exact state - computed state ≤ below)
    (quiet : ∀ state ∈ model.states, ¬ model.Improvable choice computed state) :
    ∀ state ∈ model.states,
      model.best exact state ≤ exact state + (margin + model.discount * (above + below)) := by
  intro state member
  have greedy := Model.greedy_mem exact (active state member)
  have lowered : model.best exact state - model.backup computed state (model.greedy exact state) ≤
      model.discount * below :=
    stochastic.backup_sub_le discount.1 member greedy low
  have considered := Model.backup_le_best computed greedy
  have kept : model.best computed state ≤ model.follow choice computed state + margin :=
    not_lt.mp (quiet state member)
  have raised : model.follow choice computed state - model.follow choice exact state ≤
      model.discount * above :=
    stochastic.backup_sub_le discount.1 member (legal state member) high
  rw [stays state member] at raised
  linarith

/-- Computed values that are close enough to the exact ones are quiet only if these are. -/
theorem Model.exists_enough [Archimedean F] {bound : F} (nonneg : 0 ≤ bound) :
    ∃ enough, ∀ count, enough ≤ count → ∀ computed : Ident → F,
      (∀ state ∈ model.states, |computed state - exact state| ≤ model.discount ^ count * bound) →
      (∀ state ∈ model.states, ¬ model.Improvable choice computed state) →
      ∀ state ∈ model.states, model.best exact state ≤ exact state + margin := by
  by_cases short : ∀ state ∈ model.states, model.best exact state ≤ exact state + margin
  · exact ⟨0, fun _ _ _ _ _ => short⟩
  · simp only [not_forall, not_le] at short
    obtain ⟨state, member, gain⟩ := short
    obtain ⟨enough, small⟩ := exists_pow_mul_lt discount.1 discount.2
      (add_nonneg nonneg nonneg) (sub_pos.mpr gain)
    refine ⟨enough, fun count later computed near quiet => absurd ?_ (not_le.mpr gain)⟩
    let error := model.discount ^ count * bound
    have error_nonneg : 0 ≤ error := mul_nonneg (pow_nonneg discount.1 count) nonneg
    have step : model.best exact state ≤
        exact state + (margin + model.discount * (error + error)) :=
      Model.best_le_of_quiet stochastic active discount legal stays
        (fun other listed => (abs_sub_le_iff.mp (near other listed)).1)
        (fun other listed => (abs_sub_le_iff.mp (near other listed)).2) quiet state member
    have shrunk : model.discount * (error + error) ≤ error + error :=
      mul_le_of_le_one_left (add_nonneg error_nonneg error_nonneg) discount.2.le
    have tiny : error + error < model.best exact state - (exact state + margin) := by
      rw [← mul_add]
      exact small count later
    linarith

end Quiet

/-- There are finitely many choices, so one number of sweeps is enough for all of them. -/
theorem Model.exists_enough_sweeps [Archimedean F] (stochastic : model.Stochastic)
    (active : ∀ state ∈ model.states, model.legal state ≠ [])
    (discount : 0 ≤ model.discount ∧ model.discount < 1) {ceiling : F}
    (capped : model.Ceiling model.discount ceiling) :
    ∃ enough, ∀ choice, model.LegalChoice choice → ∀ exact : Ident → F,
      (∀ state ∈ model.states, model.follow choice exact state = exact state) →
      ∀ count, enough ≤ count → ∀ start : Ident → F, (∀ state ∈ model.states, |start state| ≤ ceiling) →
      (∀ state ∈ model.states,
        ¬ model.Improvable choice ((model.follow choice)^[count] start) state) →
      ∀ state ∈ model.states, model.best exact state ≤ exact state + margin := by
  have contracts : ∀ choice, model.LegalChoice choice →
      Contracts model.states model.discount (model.follow choice) := fun _ =>
    stochastic.follow_contracts discount.1
  have solved : ∀ choice ∈ model.choices, ∃ (value : Ident → F) (enough : Nat),
      (∀ state ∈ model.states, model.follow choice value state = value state) ∧
      ∀ count, enough ≤ count → ∀ computed : Ident → F,
        (∀ state ∈ model.states,
          |computed state - value state| ≤ model.discount ^ count * (ceiling + ceiling)) →
        (∀ state ∈ model.states, ¬ model.Improvable choice computed state) →
        ∀ state ∈ model.states, model.best value state ≤ value state + margin := by
    intro choice listed
    have legal : model.LegalChoice choice := choicesFrom_mem listed
    obtain ⟨value, stays⟩ := Model.exists_follow_eq (contracts choice legal) discount.2
    obtain ⟨enough, close⟩ := Model.exists_enough stochastic active discount legal stays
      (add_nonneg capped.nonneg capped.nonneg)
    exact ⟨value, enough, stays, close⟩
  choose! value enough stays close using solved
  obtain ⟨most, largest⟩ := (model.choices.map enough).toFinset.exists_le
  refine ⟨most, fun choice legal exact fixed count later start bounded quiet => ?_⟩
  obtain ⟨listed, member, same⟩ := exists_mem_choicesFrom legal
  have follows : ∀ values : Ident → F, ∀ state ∈ model.states,
      model.follow listed values state = model.follow choice values state := by
    intro values state known
    exact Model.follow_congr (same state known) values
  have equal : ∀ state ∈ model.states, value listed state = exact state := by
    refine (contracts choice legal).eq_of_sub_eq discount.2 fun state known => ?_
    rw [fixed state known, ← follows _ state known, stays listed member state known]
  have near : ∀ state ∈ model.states,
      |(model.follow choice)^[count] start state - value listed state| ≤
        model.discount ^ count * (ceiling + ceiling) := by
    intro state known
    rw [equal state known]
    exact capped.abs_iterate_sub_fixed_le legal (contracts choice legal) discount.1 discount.2 bounded
      fixed count state known
  intro state known
  have later : enough listed ≤ count :=
    (largest _ (List.mem_toFinset.mpr (List.mem_map_of_mem member))).trans later
  have quietly := close listed member count later _ near fun state known better =>
    quiet state known ((Model.improved_congr (same state known)).1.mp better)
  rw [← equal state known, ← (stochastic.best_contracts active discount.1).congr equal state known]
  exact quietly state known

/-! ## Returned policies -/

section Returned

variable {sweeps : Int} {result : PolicyIteration (Extended F)} (stochastic : model.Stochastic)

include stochastic

theorem Model.Returns.exists_ended (returns : model.Returns sweeps result) :
    (∀ state ∈ model.states, model.legal state ≠ []) ∧
      (0 ≤ model.discount ∧ model.discount < 1) ∧
      ∃ choice rounds, model.LegalChoice choice ∧
        result.Ended model sweeps.toNat choice rounds := by
  obtain ⟨Source, _, start, budget, run⟩ := returns
  obtain ⟨discount, -, policy, begun⟩ := Model.entry_of_policyIteration run
  have lawful : model.extended.LegalPolicy policy := Model.startPolicy_legal begun
  have active : ∀ state ∈ model.states, model.legal state ≠ [] := lawful.active
  exact ⟨active, discount, Model.ended_of_policyIteration (stochastic.accepted active) run⟩

/-- With enough sweeps for the model, every run returns a nearly optimal policy. -/
theorem Model.exists_enough_returns [Archimedean F] :
    ∃ enough : Int, ∀ sweeps result, enough ≤ sweeps → model.Returns sweeps result →
      model.NearlyOptimal result.policy := by
  by_cases entry : (∀ state ∈ model.states, model.legal state ≠ []) ∧
      (0 ≤ model.discount ∧ model.discount < 1)
  · obtain ⟨active, discount⟩ := entry
    have accepted := stochastic.accepted active
    have contracts : ∀ choice, model.LegalChoice choice →
        Contracts model.states model.discount (model.follow choice) := fun _ =>
      stochastic.follow_contracts discount.1
    obtain ⟨ceiling, capped⟩ := model.exists_ceiling discount.2
    obtain ⟨enough, close⟩ := Model.exists_enough_sweeps stochastic active discount capped
    refine ⟨enough, fun sweeps result many returns => ?_⟩
    obtain ⟨-, -, choice, rounds, legal, ended⟩ := returns.exists_ended stochastic
    have lawful := Model.standing_legal active legal sweeps.toNat rounds
    refine ⟨stochastic.exists_evaluationFixes discount (ended.takes.legalPolicy lawful),
      stochastic.exists_sweepFixes active discount, fun exact optimum evaluated solved => ?_⟩
    obtain ⟨own, covered, stays⟩ := ended.takes.exists_value accepted evaluated
    obtain ⟨best, known, keeps⟩ := solved.exists_value accepted
    have gain := close _ lawful own stays sweeps.toNat (by omega) _
      (capped.abs_standing_le active contracts legal sweeps.toNat rounds) ended.ends.quiet
    exact (Utility.exceedsAtMost_iff (Utility.extended_reads known) (Utility.extended_reads covered)
      _).mpr (Model.optimum_le stochastic active discount margin_pos.le gain keeps)
  · exact ⟨0, fun sweeps result _ returns =>
      absurd ⟨(returns.exists_ended stochastic).1, (returns.exists_ended stochastic).2.1⟩ entry⟩

private theorem Model.Returns.exceedsAtMost (returns : model.Returns sweeps result)
    {exact optimum : Utility F} (evaluated : model.EvaluationFixes result.policy exact)
    (fixed : model.SweepFixes optimum) {last : Round (Extended F)} {above below : F}
    (latest : result.rounds.getLast? = some last)
    (high : Utility.ExceedsAtMost last.utility exact.extended model.states above)
    (low : Utility.ExceedsAtMost exact.extended last.utility model.states below) :
    Utility.ExceedsAtMost optimum.extended exact.extended model.states
      ((margin + model.discount * (above + below)) / (1 - model.discount)) := by
  obtain ⟨active, discount, choice, rounds, legal, ended⟩ := returns.exists_ended stochastic
  have accepted := stochastic.accepted active
  have lawful := Model.standing_legal active legal sweeps.toNat rounds
  obtain ⟨own, covered, stays⟩ := ended.takes.exists_value accepted evaluated
  obtain ⟨best, known, keeps⟩ := fixed.exists_value accepted
  have readsOwn := Utility.extended_reads covered
  obtain ⟨final, same, -, -, computed⟩ := ended.last
  rw [latest] at same
  cases same
  rw [computed, Utility.exceedsAtMost_iff (model.tabled_reads _) readsOwn] at high
  rw [computed, Utility.exceedsAtMost_iff readsOwn (model.tabled_reads _)] at low
  rw [Utility.exceedsAtMost_iff (Utility.extended_reads known) readsOwn]
  intro state member
  have spread : 0 ≤ above + below := by linarith [high state member, low state member]
  refine Model.optimum_le stochastic active discount ?_ ?_ keeps state member
  · exact add_nonneg margin_pos.le (mul_nonneg discount.1 spread)
  · exact Model.best_le_of_quiet stochastic active discount lawful stays
      (fun other listed => sub_le_iff_le_add'.mpr (high other listed))
      (fun other listed => sub_le_iff_le_add'.mpr (low other listed)) ended.ends.quiet

end Returned

theorem Model.EvaluationFixes.exceedsAtMost_iff [Archimedean F] {policy : Policy}
    {exact optimum : Utility F} (evaluated : model.EvaluationFixes policy exact)
    (fixed : model.SweepFixes optimum) (stochastic : model.Stochastic)
    (discount : 0 ≤ model.discount ∧ model.discount < 1) (legal : model.LegalPolicy policy)
    (bound : F) :
    Utility.ExceedsAtMost optimum.extended exact.extended model.states bound ↔
      ∀ count, ∃ lifted,
        (model.extended.sweepTimes count exact.extended).result model.extended = .ok lifted ∧
          Utility.ExceedsAtMost lifted exact.extended model.states bound := by
  have accepted := stochastic.accepted legal.active
  obtain ⟨own, covered, stays⟩ := evaluated.exists_value accepted legal
  obtain ⟨best, known, keeps⟩ := fixed.exists_value accepted
  have readsOwn := Utility.extended_reads covered
  have rises : ∀ state ∈ model.states, own state ≤ model.best own state := fun state member =>
    (stays state member).ge.trans (Model.backup_le_best own (legal.legalChoice state member))
  rw [Utility.exceedsAtMost_iff (Utility.extended_reads known) readsOwn,
    Model.optimum_le_iff stochastic legal.active discount rises keeps]
  refine forall_congr' fun count => ?_
  obtain ⟨lifted, run, reads⟩ := Model.result_sweepTimes accepted readsOwn count
  rw [← Utility.exceedsAtMost_iff reads readsOwn, run]
  simp

/-- What policy iteration achieves over stochastic rows. With enough sweeps for the model, every run
returns a nearly optimal policy. With any number of sweeps, the optimum is above the exact utility of
the returned policy by no more than the allowance exactly if no number of optimal sweeps lifts this
utility by more; and it is above by no more than the allowance and a share of the error of the last
round, which vanishes if the utility of this round was exact. -/
theorem Model.policyIteration_nearlyOptimal [Archimedean F] (model : Model F)
    (stochastic : model.Stochastic) :
    (∃ enough : Int, ∀ sweeps result, enough ≤ sweeps → model.Returns sweeps result →
      model.NearlyOptimal result.policy) ∧
    ∀ sweeps result, model.Returns sweeps result → ∀ exact optimum : Utility F,
      model.EvaluationFixes result.policy exact → model.SweepFixes optimum →
      (Utility.ExceedsAtMost optimum.extended exact.extended model.states model.allowance ↔
        ∀ count, ∃ lifted,
          (model.extended.sweepTimes count exact.extended).result model.extended = .ok lifted ∧
            Utility.ExceedsAtMost lifted exact.extended model.states model.allowance) ∧
      ∀ last above below, result.rounds.getLast? = some last →
        Utility.ExceedsAtMost last.utility exact.extended model.states above →
        Utility.ExceedsAtMost exact.extended last.utility model.states below →
        Utility.ExceedsAtMost optimum.extended exact.extended model.states
          ((margin + model.discount * (above + below)) / (1 - model.discount)) := by
  refine ⟨Model.exists_enough_returns stochastic, ?_⟩
  intro sweeps result returns exact optimum evaluated fixed
  obtain ⟨active, discount, choice, rounds, legal, ended⟩ := returns.exists_ended stochastic
  have lawful := ended.takes.legalPolicy (Model.standing_legal active legal sweeps.toNat rounds)
  exact ⟨evaluated.exceedsAtMost_iff fixed stochastic discount lawful _,
    fun last above below latest high low =>
      returns.exceedsAtMost stochastic evaluated fixed latest high low⟩

/-- On the outing one sweep for the policy that sets off computes `1 / 2` and `1` instead of the
exact values `4 / 3` and `2`. -/
theorem Model.policyIteration_nearlyOptimal_outing :
    let model := outing 0
    let exact : Utility ℚ := .ofKeys model.states fun state => if state = .int 0 then 4 / 3 else 2
    model.Stochastic ∧
    (∃ enough : Int, ∀ sweeps result, enough ≤ sweeps → model.Returns sweeps result →
      model.NearlyOptimal result.policy) ∧
    ∃ (result : PolicyIteration (Extended ℚ)) (last : Round (Extended ℚ)),
      (model.Returns 1 result ∧ model.EvaluationFixes result.policy exact ∧ model.SweepFixes exact ∧
        result.rounds.getLast? = some last ∧
        Utility.ExceedsAtMost last.utility exact.extended model.states (-5 / 6) ∧
        Utility.ExceedsAtMost exact.extended last.utility model.states 1) ∧
      (Utility.ExceedsAtMost exact.extended exact.extended model.states model.allowance ↔
        ∀ count, ∃ lifted,
          (model.extended.sweepTimes count exact.extended).result model.extended = .ok lifted ∧
            Utility.ExceedsAtMost lifted exact.extended model.states model.allowance) ∧
      Utility.ExceedsAtMost exact.extended exact.extended model.states
        ((margin + model.discount * (-5 / 6 + 1)) / (1 - model.discount)) := by
  intro model exact
  have accepted : model.Accepted := by decide +kernel
  have discount : 0 ≤ model.discount ∧ model.discount < 1 := by decide +kernel
  let policy : Policy := .ofKeys model.states fun state =>
    if state = .int 0 then .text "set off" else .text "stay"
  have lawful : model.extended.LegalPolicy policy := by decide +kernel
  have ends : model.EndsAfter 1 policy.choice 0 :=
    ⟨by decide +kernel, fun earlier before => absurd before (Nat.not_lt_zero earlier)⟩
  have stays : ∀ state ∈ model.states, model.follow policy.choice
      (fun other => if other = .int 0 then 4 / 3 else 2) state =
        if state = .int 0 then 4 / 3 else 2 := by
    decide +kernel
  obtain ⟨begun, entry, takes⟩ := Model.exists_startPolicy Generator lawful
  obtain ⟨result, run, ended⟩ :=
    Model.result_policyIteration accepted discount one_pos entry takes one_pos ends
  obtain ⟨last, latest, -, -, computed⟩ := ended.last
  have returns : model.Returns 1 result := ⟨Generator, _, _, 1, run⟩
  have evaluated : model.EvaluationFixes result.policy exact := by
    refine Model.evaluationFixes_of_follow_eq accepted (ended.takes.legalPolicy lawful.legalChoice)
      discount fun state member => ?_
    exact (ended.takes.follow_eq _ state member).trans (stays state member)
  have fixed : model.SweepFixes exact := Model.sweepFixes_of_best_eq accepted (by decide +kernel)
  have high : Utility.ExceedsAtMost last.utility exact.extended model.states (-5 / 6) := by
    rw [computed]
    exact (Utility.exceedsAtMost_iff (model.tabled_reads _) (Utility.ofKeys_reads _ _) _).mpr
      (by decide +kernel)
  have low : Utility.ExceedsAtMost exact.extended last.utility model.states 1 := by
    rw [computed]
    exact (Utility.exceedsAtMost_iff (Utility.ofKeys_reads _ _) (model.tabled_reads _) _).mpr
      (by decide +kernel)
  obtain ⟨enough, law⟩ := Model.policyIteration_nearlyOptimal model outing_stochastic
  obtain ⟨exactly, error⟩ := law 1 result returns exact exact evaluated fixed
  exact ⟨outing_stochastic, enough, result, last, ⟨returns, evaluated, fixed, latest, high, low⟩,
    exactly, error last _ _ latest high low⟩

end MarkovDecision
