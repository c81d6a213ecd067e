import MarkovDecision.Proofs.PolicyIteration.Trace
import MarkovDecision.Solve.ValueIteration

/-!
# What solvers return covers the states

Whatever a solver returns, it has a value for every state: a table of a sweep or of a greedy policy is
computed state by state, and improvements of a policy replace actions without dropping any.
-/

set_option autoImplicit false

namespace MarkovDecision

variable {K : Type} [Scalar K] {model : Model K}

private theorem Inquiry.keys_of_tabulate {Key Value : Type} [DecidableEq Key] {keys : List Key}
    {compute : Key → Inquiry K Value} {table : Table Key Value}
    (run : (tabulate keys compute).result model = .ok table) (key : Key) :
    key ∈ table.keys ↔ key ∈ keys := by
  constructor
  · intro present
    obtain ⟨value, stored⟩ := Option.isSome_iff_exists.mp ((table.get?_isSome_iff key).mpr present)
    exact ((get?_of_tabulate run key value).mp stored).1
  · intro listed
    exact (exists_result_of_tabulate run key listed).1

/-! ## Value iteration -/

section ValueIteration

variable {recordHistory : Bool} {threshold : K} {budget : Nat} {progress : Progress K}
  {stopped : K × Progress K}

private theorem Model.keys_of_sweepOnce
    (run : (model.sweepOnce recordHistory progress).result model = .ok stopped) (state : Ident) :
    state ∈ stopped.2.utility.keys ↔ state ∈ model.states := by
  rw [Model.sweepOnce] at run
  obtain ⟨utility, swept, run⟩ := Inquiry.result_bind_eq_ok_iff.mp run
  obtain ⟨delta, -, run⟩ := Inquiry.result_bind_eq_ok_iff.mp run
  obtain ⟨⟨⟩, -, run⟩ := Inquiry.result_bind_eq_ok_iff.mp run
  cases run
  exact Inquiry.keys_of_tabulate swept state

private theorem Model.keys_of_sweepUntil
    (run : (model.sweepUntil recordHistory threshold budget progress).result model =
      .ok (some stopped)) (state : Ident) :
    state ∈ stopped.2.utility.keys ↔ state ∈ model.states := by
  induction budget generalizing progress with
  | zero => cases run
  | succ budget ih =>
      rw [Model.sweepUntil] at run
      obtain ⟨next, once, run⟩ := Inquiry.result_bind_eq_ok_iff.mp run
      dsimp only at run
      split at run
      · cases run
        exact Model.keys_of_sweepOnce once state
      · exact ih run

theorem Model.keys_of_valueIteration {epsilon : K} {solution : Solution K}
    (run : (model.valueIteration epsilon recordHistory budget).result model = .ok (some solution))
    (state : Ident) : (state ∈ solution.utility.keys ↔ state ∈ model.states) ∧
      (state ∈ solution.policy.keys ↔ state ∈ model.states) := by
  rw [Model.valueIteration] at run
  obtain ⟨⟨⟩, -, run⟩ := Inquiry.result_bind_eq_ok_iff.mp run
  split at run
  · cases run
  · obtain ⟨last, loop, run⟩ := Inquiry.result_bind_eq_ok_iff.mp run
    cases last with
    | none => cases run
    | some stopped =>
        dsimp only at run
        obtain ⟨⟨⟩, -, run⟩ := Inquiry.result_bind_eq_ok_iff.mp run
        obtain ⟨policy, greedy, run⟩ := Inquiry.result_bind_eq_ok_iff.mp run
        cases run
        exact ⟨Model.keys_of_sweepUntil loop state, Inquiry.keys_of_tabulate greedy state⟩

end ValueIteration

/-! ## Policy iteration -/

section PolicyIteration

variable {sweeps : Int} {budget : Nat} {utility : Utility K} {policy : Policy} {state : Ident}

private theorem Model.keys_of_improvePolicy {states : List Ident} {replaced : Nat}
    {improved : Policy × Nat}
    (run : (model.improvePolicy utility states (policy, replaced)).result model = .ok improved)
    (known : state ∈ policy.keys) : state ∈ improved.1.keys := by
  induction states generalizing policy replaced with
  | nil =>
      cases run
      exact known
  | cons first rest ih =>
      simp only [Model.improvePolicy, Inquiry.result_bind, bind_eq_ok_iff] at run
      obtain ⟨best, -, current, -, value, -, run⟩ := run
      split at run
      · exact ih run ((Table.mem_keys_insert _ _ _ _).mpr (.inr known))
      · exact ih run known

private theorem Model.keys_of_policyRound {index : Nat} {start : Option (Utility K)}
    {round : Round K} (run : (model.policyRound sweeps index policy start).result model = .ok round)
    (known : state ∈ policy.keys) : state ∈ round.policy.keys := by
  simp only [Model.policyRound, Inquiry.result_bind, bind_eq_ok_iff] at run
  obtain ⟨utility, -, improved, better, ⟨⟩, -, run⟩ := run
  cases run
  exact Model.keys_of_improvePolicy better known

private theorem Model.keys_of_policyRounds {start : Option (Utility K)}
    {before rounds : List (Round K)}
    (run : (model.policyRounds sweeps budget policy start before).result model = .ok (some rounds))
    (known : state ∈ policy.keys) : ∀ last ∈ rounds.head?, state ∈ last.policy.keys := by
  induction budget generalizing policy start before with
  | zero => cases run
  | succ budget ih =>
      rw [Model.policyRounds] at run
      obtain ⟨round, once, run⟩ := Inquiry.result_bind_eq_ok_iff.mp run
      have kept := Model.keys_of_policyRound once known
      split at run
      · exact ih run kept
      · cases run
        rintro _ ⟨⟩
        exact kept

theorem Model.keys_of_policyIteration {Source : Type} [IndexSource Source]
    {start : StartingPolicy K Source} {iteration : PolicyIteration K}
    (run : (model.policyIteration sweeps start budget).result model = .ok (some iteration))
    (member : state ∈ model.states) : state ∈ iteration.policy.keys := by
  simp only [Model.policyIteration, Inquiry.result_bind, Inquiry.result_liftM, bind_eq_ok_iff] at run
  obtain ⟨_, -, _, -, begun, started, rounds, loop, run⟩ := run
  have known := (Model.startPolicy_isOver started state).mpr member
  cases rounds with
  | none => cases run
  | some rounds =>
      cases rounds with
      | nil => cases run
      | cons last earlier =>
          simp only [Inquiry.result_bind, bind_eq_ok_iff] at run
          obtain ⟨⟨⟩, -, run⟩ := run
          cases run
          exact Model.keys_of_policyRounds loop known last rfl

end PolicyIteration

end MarkovDecision
