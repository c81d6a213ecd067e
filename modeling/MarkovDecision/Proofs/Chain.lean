import Mathlib.Tactic.FieldSimp
import MarkovDecision.Chain
import MarkovDecision.Proofs.Validation
import MarkovDecision.Proofs.ValueIteration.GreedyPolicy

/-!
# The closed form of a chain

If every state has one legal action, then optimal backups are the backups of the only legal policy,
and the values that these keep are what all solvers look for. A chain is such a model, and its closed
form has such values. A chain that surely advances keeps the loop of its first state, with
probability zero.
-/

set_option autoImplicit false

namespace MarkovDecision

/-! ## Models with one policy -/

/-- Every state has one legal action. -/
def Model.Single {K : Type} (model : Model K) (only : Ident → Ident) : Prop :=
  ∀ state ∈ model.states, model.legal state = [only state]

section Legal

variable {K : Type} {model : Model K} {only : Ident → Ident} (single : model.Single only)

include single

theorem Model.Single.active : ∀ state ∈ model.states, model.legal state ≠ [] := by
  intro state member
  simp [single state member]

theorem Model.Single.legalChoice : model.LegalChoice only := by
  intro state member
  simp [single state member]

private theorem Model.Single.legalPolicy_iff {policy : Policy} :
    model.LegalPolicy policy ↔ policy.Takes model.states only := by
  apply forall₂_congr
  intro state member
  simp [single state member]

end Legal

variable {F : Type} [Field F] [LinearOrder F]

/-- A utility solves a model with one legal policy: it is what the sweeps keep, those of the policy
and the optimal ones, and value iteration comes as close to it as is asked. -/
structure Model.SolvedBy (model : Model F) (exact : Utility F) : Prop where
  valid : model.extended.validate.result model.extended = .ok ()
  policy : ∃ only : Policy, ∀ policy, model.extended.checkPolicy policy = .ok () ↔
    ∀ state ∈ model.states, policy.get? state = only.get? state
  evaluation : ∀ policy, model.extended.checkPolicy policy = .ok () →
    ∀ utility, model.EvaluationFixes policy utility ↔
      ∀ state ∈ model.states, utility.get? state = exact.get? state
  sweep : ∀ utility, model.SweepFixes utility ↔
    ∀ state ∈ model.states, utility.get? state = exact.get? state
  returns : ∀ epsilon, 0 < epsilon → ∀ recordHistory, ∃ solution : Solution (Extended F),
    ∀ budget, solution.iterations ≤ budget →
      (model.extended.valueIteration (.finite epsilon) recordHistory budget).result model.extended =
        .ok (some solution)
  near : ∀ epsilon recordHistory budget solution,
    (model.extended.valueIteration (.finite epsilon) recordHistory budget).result model.extended =
      .ok (some solution) →
    ∀ state ∈ model.states, ∃ computed value : F,
      solution.utility.get? state = some (.finite computed) ∧
        exact.get? state = some value ∧ |computed - value| ≤ epsilon

section Solved

variable {model : Model F} {only : Ident → Ident} (single : model.Single only)

include single

theorem Model.Single.best_eq (value : Ident → F) :
    ∀ state ∈ model.states, model.best value state = model.follow only value state := by
  intro state member
  have chosen := Model.greedy_mem value (single.active state member)
  rw [single state member, List.mem_singleton] at chosen
  exact (Model.follow_eq_best chosen.symm).symm

variable [IsStrictOrderedRing F] (stochastic : model.Stochastic)
  (discount : 0 ≤ model.discount ∧ model.discount < 1) {value : Ident → F}
  (stays : ∀ state ∈ model.states, model.follow only value state = value state)

include stochastic discount stays

/-- Contraction leaves room for one solution. -/
private theorem Model.Single.eq_of_stays {other : Ident → F}
    (kept : ∀ state ∈ model.states, model.follow only other state = other state) :
    ∀ state ∈ model.states, other state = value state := by
  have follows := stochastic.follow_contracts discount.1 single.legalChoice
  apply follows.eq_of_sub_eq discount.2
  intro state member
  rw [kept state member, stays state member]

private theorem Model.Single.evaluationFixes_iff {policy : Policy}
    (legal : model.LegalPolicy policy)
    (utility : Utility F) : model.EvaluationFixes policy utility ↔
      ∀ state ∈ model.states, utility.get? state = some (value state) := by
  have accepted := stochastic.accepted single.active
  have takes := single.legalPolicy_iff.mp legal
  constructor
  · intro fixed state member
    obtain ⟨other, covered, kept⟩ := takes.exists_value accepted fixed
    rw [covered state member, single.eq_of_stays stochastic discount stays kept state member]
  · intro covered
    apply Model.evaluationFixes_of_covered accepted legal discount covered
    intro state member
    rw [takes.follow_eq value state member, stays state member]

private theorem Model.Single.sweepFixes_iff (utility : Utility F) : model.SweepFixes utility ↔
    ∀ state ∈ model.states, utility.get? state = some (value state) := by
  have accepted := stochastic.accepted single.active
  constructor
  · intro fixed state member
    obtain ⟨other, covered, kept⟩ := fixed.exists_value accepted
    have follows : ∀ state ∈ model.states, model.follow only other state = other state := by
      intro state member
      rw [← single.best_eq other state member, kept state member]
    rw [covered state member, single.eq_of_stays stochastic discount stays follows state member]
  · intro covered
    apply Model.sweepFixes_of_covered accepted covered
    intro state member
    rw [single.best_eq value state member, stays state member]

theorem Model.Single.near {epsilon : F} {recordHistory : Bool} {budget : Nat}
    {solution : Solution (Extended F)}
    (run : (model.extended.valueIteration (.finite epsilon) recordHistory budget).result
      model.extended = .ok (some solution)) :
    ∀ state ∈ model.states, ∃ computed : F,
      solution.utility.get? state = some (.finite computed) ∧ |computed - value state| ≤ epsilon := by
  have accepted := stochastic.accepted single.active
  obtain ⟨-, positive, count, stops, rfl⟩ := Model.solution_of_valueIteration accepted run
  have contracts := stochastic.best_contracts single.active discount.1
  have best : ∀ state ∈ model.states, model.best value state = value state := by
    intro state member
    rw [single.best_eq value state member, stays state member]
  intro state member
  exact ⟨_, model.tabled_reads _ state member,
    stops.settles.abs_sub_le positive discount.2 contracts best state member⟩

private theorem Model.Single.solvedBy [Archimedean F] (valid : model.Valid) :
    model.SolvedBy (.ofKeys model.states value) := by
  have listed : ∀ state ∈ model.states,
      (Table.ofKeys model.states value).get? state = some (value state) := by
    intro state member
    simp [member]
  have agrees : ∀ utility : Utility F,
      (∀ state ∈ model.states, utility.get? state = some (value state)) ↔
        ∀ state ∈ model.states, utility.get? state = (Table.ofKeys model.states value).get? state :=
    fun utility => forall₂_congr fun state member => by rw [listed state member]
  have legal : ∀ policy, model.extended.checkPolicy policy = .ok () ↔ model.LegalPolicy policy :=
    fun _ => Model.checkPolicy_eq_ok_iff
  refine ⟨Model.result_validate_iff.mpr valid, ⟨.ofKeys model.states only, fun policy => ?_⟩,
    fun policy checked utility => ?_, fun utility => ?_,
    fun epsilon positive recordHistory =>
      Model.exists_solution stochastic single.active discount positive recordHistory,
    fun epsilon recordHistory budget solution run state member => ?_⟩
  · rw [legal, single.legalPolicy_iff]
    apply forall₂_congr
    intro state member
    simp [member]
  · rw [← agrees]
    exact single.evaluationFixes_iff stochastic discount stays ((legal policy).mp checked) utility
  · rw [← agrees]
    exact single.sweepFixes_iff stochastic discount stays utility
  · obtain ⟨computed, found, close⟩ := single.near stochastic discount stays run state member
    exact ⟨computed, value state, found, listed state member, close⟩

end Solved

namespace Chain

/-! ## The chain with exact numbers -/

section Exact

variable {F : Type}

def extended (chain : Chain F) : Chain (Extended F) where
  advanceProbability := .finite chain.advanceProbability
  advanceReward := .finite chain.advanceReward
  stayReward := .finite chain.stayReward
  exitReward := .finite chain.exitReward
  discount := .finite chain.discount

variable [Field F]

def exact (chain : Chain F) : Model F where
  states := [.int 0, .int 1, .int 2]
  actionTable := actionTable
  rowTable := .ofPairs [((.int 2, .blank), .ofPairs [(.int 2, 1)]),
    ((.int 0, advance), .ofPairs [(.int 1, chain.advanceProbability),
      (.int 0, 1 - chain.advanceProbability)]),
    ((.int 1, advance), .ofPairs [(.int 2, 1)])]
  reward state _ successor :=
    if state = .int 0 ∧ successor = .int 1 then chain.advanceReward
    else if state = .int 0 ∧ successor = .int 0 then chain.stayReward
    else if state = .int 1 ∧ successor = .int 2 then chain.exitReward
    else 0
  discount := chain.discount
  initial := .int 0
  terminals := [.int 2]
  noop := .blank

/-- The only legal action of each state. -/
def onward (state : Ident) : Ident := if state = .int 2 then .blank else advance

/-- The number by which the closed form divides. -/
def divisor (chain : Chain F) : F := 1 - (1 - chain.advanceProbability) * chain.discount

/-- The expected gain of a move from the first state, without what a loop brings later. -/
def gain (chain : Chain F) : F :=
  chain.advanceProbability * (chain.advanceReward + chain.discount * chain.exitReward) +
    (1 - chain.advanceProbability) * chain.stayReward

def worth (chain : Chain F) (state : Ident) : F :=
  if state = .int 0 then chain.gain / chain.divisor
  else if state = .int 1 then chain.exitReward
  else 0

private theorem mem_states_exact {chain : Chain F} {state : Ident} : state ∈ chain.exact.states ↔
    state = .int 0 ∨ state = .int 1 ∨ state = .int 2 := by
  simp [exact]

variable (chain : Chain F)

private theorem single_exact : chain.exact.Single onward := by
  have listed : ∀ state ∈ chain.exact.states,
      (actionTable.get? state).getD [] = [onward state] := by
    change ∀ state ∈ [Ident.int 0, .int 1, .int 2], _
    decide
  exact listed

private theorem follow_first (value : Ident → F) : chain.exact.follow onward value (.int 0) =
    chain.advanceProbability * (chain.advanceReward + chain.discount * value (.int 1)) +
      (1 - chain.advanceProbability) * (chain.stayReward + chain.discount * value (.int 0)) :=
  congrArg _ (add_zero _)

private theorem follow_second (value : Ident → F) : chain.exact.follow onward value (.int 1) =
    chain.exitReward + chain.discount * value (.int 2) :=
  (add_zero _).trans (one_mul _)

private theorem follow_last (value : Ident → F) : chain.exact.follow onward value (.int 2) =
    0 + chain.discount * value (.int 2) :=
  (add_zero _).trans (one_mul _)

variable {chain}

private theorem follow_worth (divides : chain.divisor ≠ 0) : ∀ state ∈ chain.exact.states,
    chain.exact.follow onward chain.worth state = chain.worth state := by
  have first : chain.worth (.int 0) = chain.gain / chain.divisor := rfl
  have second : chain.worth (.int 1) = chain.exitReward := rfl
  have last : chain.worth (.int 2) = 0 := rfl
  intro state member
  rcases mem_states_exact.mp member with rfl | rfl | rfl
  · rw [follow_first, first, second]
    field_simp
    rw [divisor, gain]
    ring
  · simp [follow_second, second, last]
  · simp [follow_last, last]

end Exact

variable {chain : Chain F}

theorem check_extended_iff : chain.extended.check = .ok chain.extended ↔
    0 < chain.advanceProbability ∧ chain.advanceProbability ≤ 1 := by
  simp only [check, extended, Extended.zero_eq, Extended.one_eq, Extended.below_finite,
    Extended.atMost_finite, Bool.and_eq_true, decide_eq_true_eq]
  split <;> simp_all

theorem model_extended (chain : Chain F) : chain.extended.model = chain.exact.extended := by
  have rows : chain.extended.rowTable =
      chain.exact.rowTable.mapValues fun _ row => Table.extended row := by
    simp only [rowTable, absorbingRows, extended, Extended.one_eq, Extended.finite_sub, exact,
      Table.mapValues_ofPairs]
    rfl
  have reward : chain.extended.reward = fun state successor =>
      .finite (chain.exact.reward state .blank successor) := by
    funext state successor
    simp only [reward, exact, extended, Extended.zero_eq]
    split_ifs <;> rfl
  simp only [model, rows, reward]
  rfl

private theorem closedForm_extended (divides : chain.divisor ≠ 0) : chain.extended.closedForm =
    .ok (Table.ofKeys chain.exact.states chain.worth).extended := by
  have quotient : Extended.finite chain.gain / .finite chain.divisor =
      .finite (chain.worth (.int 0)) := Extended.finite_div _ _ divides
  rw [gain, divisor] at quotient
  rw [divisor] at divides
  simp only [closedForm, extended, Extended.one_eq, Extended.zero_eq, Extended.finite_sub,
    Extended.finite_mul, Extended.finite_add, Extended.equal_finite, divides, quotient,
    decide_false, Bool.false_eq_true, if_false]
  rfl

variable [IsStrictOrderedRing F] (advances : 0 < chain.advanceProbability ∧
  chain.advanceProbability ≤ 1) (discount : 0 ≤ chain.discount ∧ chain.discount < 1)

include advances

private theorem stochastic_exact : chain.exact.Stochastic := by
  have loops : Row.Stochastic (.ofPairs [(.int 1, chain.advanceProbability),
      (.int 0, 1 - chain.advanceProbability)]) chain.exact.states := by
    have entries : (Table.ofPairs [(Ident.int 1, chain.advanceProbability),
        (Ident.int 0, 1 - chain.advanceProbability)]).entries =
      [(.int 1, chain.advanceProbability), (.int 0, 1 - chain.advanceProbability)] := rfl
    constructor
    · simp [entries, advances.1.le, advances.2]
    · simp [entries, exact]
    · simp [Row.mass, entries]
  have ends : Row.Stochastic (.ofPairs [(.int 2, (1 : F))]) chain.exact.states :=
    Row.stochastic_sure (mem_states_exact.mpr (.inr (.inr rfl)))
  intro state member action legal
  rw [single_exact chain state member, List.mem_singleton] at legal
  subst legal
  rcases mem_states_exact.mp member with rfl | rfl | rfl
  · exact ⟨_, rfl, loops⟩
  · exact ⟨_, rfl, ends⟩
  · exact ⟨_, rfl, ends⟩

private theorem valid_exact : chain.exact.Valid where
  initial := List.mem_cons_self
  accepted := (stochastic_exact advances).accepted (single_exact chain).active
  idles state member ends := by
    have last : state = .int 2 := by simpa [Model.isTerminal, exact] using ends
    subst last
    have stays : (chain.exact.rowAt (.int 2) chain.exact.noop).probability (.int 2) = 1 := rfl
    refine ⟨rfl, ?_, rfl⟩
    rw [stays, sub_self, abs_zero]
    positivity

include discount

private theorem divisor_pos : 0 < chain.divisor := by
  have loops : (1 - chain.advanceProbability) * chain.discount ≤ 1 * chain.discount :=
    mul_le_mul_of_nonneg_right (by linarith) discount.1
  rw [divisor]
  linarith

end Chain

/-- The closed form of a chain divides by a positive number and solves the model of the chain. -/
theorem Chain.closedForm_solves [IsStrictOrderedRing F] [Archimedean F] (chain : Chain F)
    (advances : 0 < chain.advanceProbability ∧ chain.advanceProbability ≤ 1)
    (discount : 0 ≤ chain.discount ∧ chain.discount < 1) :
    chain.extended.check = .ok chain.extended ∧
    0 < 1 - (1 - chain.advanceProbability) * chain.discount ∧
    ∃ (model : Model F) (closed : Utility F), chain.extended.model = model.extended ∧
      chain.extended.closedForm = .ok closed.extended ∧ model.SolvedBy closed := by
  have divides := chain.divisor_pos advances discount
  refine ⟨Chain.check_extended_iff.mpr advances, divides, chain.exact, _, chain.model_extended,
    Chain.closedForm_extended divides.ne', ?_⟩
  exact (chain.single_exact).solvedBy (Chain.stochastic_exact advances) discount
    (Chain.follow_worth divides.ne') (Chain.valid_exact advances)

/-- A chain that surely advances; the loop at its first state stays in the row, and its reward is in
the rewards. -/
def Chain.sure : Chain ℚ := ⟨1, 1, 7, 2, 9 / 10⟩

theorem Chain.closedForm_solves_sure :
    (0 < sure.advanceProbability ∧ sure.advanceProbability ≤ 1) ∧
    (0 ≤ sure.discount ∧ sure.discount < 1) ∧
    sure.extended.check = .ok sure.extended ∧
    0 < 1 - (1 - sure.advanceProbability) * sure.discount ∧
    ∃ (model : Model ℚ) (closed : Utility ℚ), sure.extended.model = model.extended ∧
      sure.extended.closedForm = .ok closed.extended ∧ model.SolvedBy closed := by
  have advances : 0 < sure.advanceProbability ∧ sure.advanceProbability ≤ 1 := by decide +kernel
  have discount : 0 ≤ sure.discount ∧ sure.discount < 1 := by decide +kernel
  exact ⟨advances, discount, Chain.closedForm_solves sure advances discount⟩

end MarkovDecision
