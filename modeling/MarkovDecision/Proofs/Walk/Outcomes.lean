import MarkovDecision.Proofs.Policy
import MarkovDecision.Proofs.Terminals

/-!
# Outcomes of walks

The outcomes of a walk with a bounded number of steps are the sequences of successors that it can
make, ending at the first terminal state. Weighted by their chances they give expectations, and one
step splits an expectation into the mean of the expectations after it. So the expected earnings are
the sweeps of policy evaluation, as long as terminal states absorb: walks end there, and sweeps add
nothing.
-/

set_option autoImplicit false

namespace MarkovDecision

variable {F : Type} [Field F]

/-! ## Sequences of successors -/

/-- The sequences of successors of walks that follow a policy for a number of steps at most. -/
def Model.outcomes (model : Model F) (policy : Policy) : (count : Nat) → Ident → List (List Ident)
  | 0, _ => [[]]
  | count + 1, state =>
    if model.isTerminal state then [[]]
    else (model.rowAt state (policy.choice state)).keys.flatMap fun successor =>
      (model.outcomes policy count successor).map (successor :: ·)

/-- The product of the probabilities along a sequence of successors. -/
def Model.chance (model : Model F) (policy : Policy) : Ident → List Ident → F
  | _, [] => 1
  | state, successor :: rest =>
    (model.rowAt state (policy.choice state)).probability successor *
      model.chance policy successor rest

/-- The discounted rewards along a sequence of successors. -/
def Model.earned (model : Model F) (policy : Policy) : Ident → List Ident → F
  | _, [] => 0
  | state, successor :: rest =>
    model.reward state (policy.choice state) successor +
      model.discount * model.earned policy successor rest

/-- The sum of a score over all outcomes, weighted by their chances. -/
def Model.expectation (model : Model F) (policy : Policy) (count : Nat) (state : Ident)
    (score : List Ident → F) : F :=
  ((model.outcomes policy count state).map fun outcome =>
    model.chance policy state outcome * score outcome).sum

variable {model : Model F} {policy : Policy} {state : Ident}

omit [Field F] in
theorem Model.outcomes_nodup (model : Model F) (policy : Policy) (count : Nat) (state : Ident) :
    (model.outcomes policy count state).Nodup := by
  induction count generalizing state with
  | zero => exact List.nodup_singleton _
  | succ count ih =>
      rw [Model.outcomes]
      split
      · exact List.nodup_singleton _
      · refine List.nodup_flatMap.mpr ⟨fun successor _ => ?_, ?_⟩
        · exact (ih successor).map List.cons_injective
        · refine (Table.keys_nodup _).imp fun {first second} distinct => ?_
          intro outcome left right
          obtain ⟨_, -, rfl⟩ := List.mem_map.mp left
          obtain ⟨_, -, same⟩ := List.mem_map.mp right
          exact distinct (List.cons.inj same).1.symm

omit [Field F] in
theorem Model.outcomes_stand {count : Nat} (stands : count = 0 ∨ model.isTerminal state = true) :
    model.outcomes policy count state = [[]] := by
  cases count with
  | zero => rfl
  | succ count =>
      have terminal := stands.resolve_left (Nat.succ_ne_zero count)
      rw [Model.outcomes, if_pos terminal]

omit [Field F] in
theorem Model.mem_outcomes_succ (running : model.isTerminal state = false) {count : Nat}
    {outcome : List Ident} :
    outcome ∈ model.outcomes policy (count + 1) state ↔
      ∃ successor ∈ (model.rowAt state (policy.choice state)).keys,
        ∃ rest ∈ model.outcomes policy count successor, successor :: rest = outcome := by
  have goes : ¬ model.isTerminal state = true := Bool.not_eq_true _ ▸ running
  rw [Model.outcomes, if_neg goes, List.mem_flatMap]
  exact exists_congr fun successor => and_congr_right fun _ => List.mem_map

private theorem Model.expectation_stand {count : Nat}
    (stands : count = 0 ∨ model.isTerminal state = true) (score : List Ident → F) :
    model.expectation policy count state score = score [] := by
  rw [Model.expectation, Model.outcomes_stand stands, List.map_singleton, List.sum_singleton,
    Model.chance, one_mul]

/-- One step splits an expectation by the first successor. -/
theorem Model.expectation_succ (running : model.isTerminal state = false) (count : Nat)
    (score : List Ident → F) :
    model.expectation policy (count + 1) state score =
      model.mean (fun successor => model.expectation policy count successor fun rest =>
        score (successor :: rest)) state (policy.choice state) := by
  have goes : ¬ model.isTerminal state = true := Bool.not_eq_true _ ▸ running
  rw [Model.expectation, Model.outcomes, if_neg goes, List.map_flatMap, List.flatMap,
    List.sum_flatten, List.map_map, Table.keys, List.map_map, Model.mean]
  refine congrArg List.sum (List.map_congr_left fun entry listed => ?_)
  have weight := Row.probability_of_mem listed
  rw [Model.expectation, ← List.sum_map_mul_left, Function.comp_apply, Function.comp_apply,
    List.map_map, ← weight]
  refine congrArg List.sum (List.map_congr_left fun rest _ => ?_)
  rw [Function.comp_apply, Model.chance, mul_assoc]

private theorem Model.expectation_add (count : Nat) (left right : List Ident → F) :
    model.expectation policy count state (fun outcome => left outcome + right outcome) =
      model.expectation policy count state left + model.expectation policy count state right := by
  rw [Model.expectation, Model.expectation, Model.expectation, ← List.sum_map_add]
  simp only [mul_add]

private theorem Model.expectation_scale (count : Nat) (factor : F) (score : List Ident → F) :
    model.expectation policy count state (fun outcome => factor * score outcome) =
      factor * model.expectation policy count state score := by
  rw [Model.expectation, Model.expectation, ← List.sum_map_mul_left]
  simp only [mul_left_comm]

/-! ## Outcomes of legal policies -/

section Stochastic

variable [LinearOrder F] (stochastic : model.Stochastic) (legal : model.LegalPolicy policy)

include stochastic legal

private theorem Model.mean_congr_states (member : state ∈ model.states) {left right : Ident → F}
    (same : ∀ other ∈ model.states, left other = right other) :
    model.mean left state (policy.choice state) = model.mean right state (policy.choice state) := by
  have row := stochastic.row member (legal.legalChoice state member)
  refine model.mean_congr _ _ fun entry listed weighed => same _ ?_
  exact row.known entry listed ((row.nonneg entry listed).lt_of_ne' weighed)

theorem Model.expectation_const (member : state ∈ model.states) (count : Nat) (value : F) :
    model.expectation policy count state (fun _ => value) = value := by
  induction count generalizing state with
  | zero => exact Model.expectation_stand (Or.inl rfl) _
  | succ count ih =>
      cases running : model.isTerminal state with
      | true => exact Model.expectation_stand (Or.inr running) _
      | false =>
          have row := stochastic.row member (legal.legalChoice state member)
          rw [Model.expectation_succ running,
            Model.mean_congr_states stochastic legal member fun other known => ih known,
            Model.mean_const, row.mass_eq, one_mul]

end Stochastic

/-! ## Expected earnings -/

/-- The no-op alone is legal, it stays for certain, and staying earns nothing. -/
structure Model.Absorbs (model : Model F) (state : Ident) : Prop where
  legal_eq : model.legal state = [model.noop]
  row_eq : model.rowTable.get? (state, model.noop) = some (.ofPairs [(state, 1)])
  free : model.reward state model.noop state = 0

private theorem Model.Absorbs.rowAt_eq (absorbs : model.Absorbs state) :
    model.rowAt state model.noop = .ofPairs [(state, 1)] :=
  Model.rowAt_of_get? absorbs.row_eq

variable [LinearOrder F] [IsStrictOrderedRing F]

theorem Model.Absorbs.idles (absorbs : model.Absorbs state) : model.Idles state := by
  refine ⟨absorbs.legal_eq, ?_, absorbs.free⟩
  have certain : (model.rowAt state model.noop).probability state = 1 := by
    rw [absorbs.rowAt_eq, Row.probability, Table.get?_ofPairs]
    simp [Table.lookupIn]
  rw [certain, sub_self, abs_zero]
  positivity

section Earnings

variable (stochastic : model.Stochastic) (legal : model.LegalPolicy policy)

include stochastic legal

private theorem Model.Absorbs.iterate_follow_eq_zero (absorbs : model.Absorbs state)
    (member : state ∈ model.states) (count : Nat) :
    (model.follow policy.choice)^[count] 0 state = 0 := by
  have choice := legal.legalChoice state member
  have noop : model.noop ∈ model.legal state := absorbs.legal_eq ▸ List.mem_singleton_self _
  have row := (stochastic.row member noop).accepted
  have seeps := absorbs.idles.seeps_follow choice
  refine (seeps.nearlyWorthless absorbs.idles row).worthless (fun entry listed _ => ?_) count
  have entries : (Table.ofPairs [(state, (1 : F))]).entries = [(state, 1)] :=
    Table.entries_ofPairs _ (List.nodup_singleton _)
  rw [absorbs.rowAt_eq, entries, List.mem_singleton] at listed
  rw [listed]

/-- Expected earnings are what as many sweeps of the policy make of zero. -/
theorem Model.expectation_earned
    (absorbs : ∀ state ∈ model.states, model.isTerminal state = true → model.Absorbs state)
    (member : state ∈ model.states) (count : Nat) :
    model.expectation policy count state (model.earned policy state) =
      (model.follow policy.choice)^[count] 0 state := by
  induction count generalizing state with
  | zero => exact Model.expectation_stand (Or.inl rfl) _
  | succ count ih =>
      cases running : model.isTerminal state with
      | true =>
          -- Walks end here while sweeps go on, which absorption makes the same.
          rw [Model.expectation_stand (Or.inr running),
            (absorbs state member running).iterate_follow_eq_zero stochastic legal member, Model.earned]
      | false =>
          have after : ∀ successor ∈ model.states,
              (model.expectation policy count successor fun rest =>
                model.earned policy state (successor :: rest)) =
              model.reward state (policy.choice state) successor +
                model.discount * (model.follow policy.choice)^[count] 0 successor := by
            intro successor known
            simp only [Model.earned]
            rw [Model.expectation_add, Model.expectation_scale, ih known,
              Model.expectation_const stochastic legal known]
          rw [Model.expectation_succ running, Model.mean_congr_states stochastic legal member after,
            Function.iterate_succ_apply', Model.follow, Model.backup]

end Earnings

end MarkovDecision
