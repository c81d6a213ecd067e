import MarkovDecision.Proofs.Sweep
import MarkovDecision.Solve.ValueIteration

/-!
# Runs of value iteration with exact numbers

On a model whose rows pass their check, the utilities of value iteration are the iterates of the
optimal backup from zero, and its deltas are their changes. A run returns exactly when a change
within its budget meets the stopping rule, and the first such change is the last sweep.
-/

set_option autoImplicit false

namespace MarkovDecision

variable {F : Type} [Field F] [LinearOrder F]

/-! ## Iterates and changes -/

/-- The exact values after a number of optimal sweeps from zero. -/
def Model.iterate (model : Model F) (count : Nat) : Ident → F := model.best^[count] 0

def Model.change (model : Model F) (count : Nat) : F :=
  gap model.states (model.iterate (count + 1)) (model.iterate count)

/-- The stopping rule holds of the sweep after `count` sweeps. -/
def Model.Settles (model : Model F) (epsilon : F) (count : Nat) : Prop :=
  model.discount = 0 ∨ model.change count ≤ epsilon * (1 - model.discount) / model.discount

/-- The sweep after `count` sweeps is the first of which the stopping rule holds. -/
structure Model.StopsAfter (model : Model F) (epsilon : F) (count : Nat) : Prop where
  settles : model.Settles epsilon count
  earliest : ∀ earlier < count, ¬ model.Settles epsilon earlier

instance (model : Model F) (epsilon : F) (count : Nat) : Decidable (model.Settles epsilon count) :=
  inferInstanceAs (Decidable (_ ∨ _))

instance (model : Model F) (epsilon : F) (count : Nat) :
    Decidable (model.StopsAfter epsilon count) :=
  decidable_of_iff (model.Settles epsilon count ∧ ∀ earlier < count, ¬ model.Settles epsilon earlier)
    ⟨fun ⟨settles, earliest⟩ => ⟨settles, earliest⟩, fun stops => ⟨stops.settles, stops.earliest⟩⟩

/-- The progress of value iteration after a number of sweeps. -/
def Model.progressAfter (model : Model F) (recordHistory : Bool) : Nat → Progress (Extended F)
  | 0 => ⟨model.tabled 0, [], []⟩
  | count + 1 =>
    let before := model.progressAfter recordHistory count
    let utility := model.tabled (model.iterate (count + 1))
    ⟨utility, .finite (model.change count) :: before.deltas,
      if recordHistory then utility :: before.history else []⟩

/-- The solution that value iteration returns after a number of sweeps. -/
def Model.solutionAfter (model : Model F) (recordHistory : Bool) (count : Nat) :
    Solution (Extended F) :=
  ⟨model.tabled (model.iterate count), .ofKeys model.states (model.greedy (model.iterate count)),
    count, (model.progressAfter recordHistory count).deltas.reverse,
    (model.progressAfter recordHistory count).history.reverse⟩

variable {model : Model F} {epsilon : F} {recordHistory : Bool} {count budget : Nat}

theorem Model.iterate_succ (model : Model F) (count : Nat) :
    model.iterate (count + 1) = model.best (model.iterate count) :=
  Function.iterate_succ_apply' _ _ _

private theorem Model.progressAfter_utility (model : Model F) (recordHistory : Bool) (count : Nat) :
    (model.progressAfter recordHistory count).utility = model.tabled (model.iterate count) := by
  cases count <;> rfl

theorem Model.progressAfter_deltas (model : Model F) (recordHistory : Bool) (count : Nat) :
    (model.progressAfter recordHistory count).deltas.reverse =
      (List.range count).map fun sweep => Extended.finite (model.change sweep) := by
  induction count with
  | zero => rfl
  | succ count ih => simp [Model.progressAfter, ih, List.range_succ]

private theorem Model.progressAfter_deltas_length (model : Model F) (recordHistory : Bool)
    (count : Nat) :
    (model.progressAfter recordHistory count).deltas.length = count := by
  rw [← List.length_reverse, Model.progressAfter_deltas, List.length_map, List.length_range]

theorem Model.progressAfter_history (model : Model F) (count : Nat) :
    (model.progressAfter true count).history.reverse =
      (List.range count).map fun sweep => model.tabled (model.iterate (sweep + 1)) := by
  induction count with
  | zero => rfl
  | succ count ih => simp [Model.progressAfter, ih, List.range_succ]

/-- Without a history nothing is recorded, so every recorded utility belongs to its sweep. -/
theorem Model.history_getElem? {index : Nat} {utility : Utility (Extended F)}
    (recorded : (model.solutionAfter recordHistory count).history[index]? = some utility) :
    utility = model.tabled (model.iterate (index + 1)) := by
  cases recordHistory with
  | true =>
      rw [Model.solutionAfter, Model.progressAfter_history, List.getElem?_map,
        Option.map_eq_some_iff] at recorded
      obtain ⟨sweep, found, rfl⟩ := recorded
      obtain ⟨_, rfl⟩ := List.getElem?_eq_some_iff.mp found
      rw [List.getElem_range]
  | false => cases count <;> cases recorded

theorem Model.Settles.exists_stopsAfter (settles : model.Settles epsilon count) :
    ∃ first ≤ count, model.StopsAfter epsilon first := by
  classical
  have once : ∃ sweep, model.Settles epsilon sweep := ⟨count, settles⟩
  exact ⟨Nat.find once, Nat.find_min' once settles, Nat.find_spec once, fun _ => Nat.find_min once⟩

/-! ## The stopping rule -/

private theorem Model.atMost_threshold_iff :
    Scalar.atMost (Extended.finite (model.change count))
        (stoppingThreshold (.finite epsilon) (.finite model.discount)) = true ↔
      model.Settles epsilon count := by
  simp only [stoppingThreshold, Extended.zero_eq, Extended.equal_finite, decide_eq_true_eq,
    Model.Settles]
  split
  · next zero => simp [zero]
  · next nonzero =>
      rw [Extended.one_eq, Extended.finite_sub, Extended.finite_mul,
        Extended.finite_div _ _ nonzero, Extended.atMost_finite, decide_eq_true_eq]
      simp [nonzero]

theorem Model.result_valueIteration_of_loop
    {outcome : Option (Extended F × Progress (Extended F))}
    (discount : 0 ≤ model.discount ∧ model.discount < 1) (positive : 0 < epsilon)
    (loop : (model.extended.sweepUntil recordHistory
      (stoppingThreshold (.finite epsilon) (.finite model.discount)) budget
      (model.progressAfter recordHistory 0)).result model.extended = .ok outcome) :
    (model.extended.valueIteration (.finite epsilon) recordHistory budget).result model.extended =
      match outcome with
      | none => .ok none
      | some (_, final) => do
        let policy ← (model.extended.greedyPolicy final.utility).result model.extended
        return some
          ⟨final.utility, policy, final.deltas.length, final.deltas.reverse, final.history.reverse⟩ := by
  have start : (⟨model.extended.zeroUtility, [], []⟩ : Progress (Extended F)) =
      model.progressAfter recordHistory 0 := by
    rw [Model.zeroUtility_extended]
    rfl
  have same : model.extended.discount = .finite model.discount := rfl
  simp only [Model.valueIteration, Inquiry.result_bind, Inquiry.result_liftM,
    Model.checkDiscount_extended_iff.mpr discount, ok_bind, Extended.zero_eq,
    Extended.atMost_finite, not_le.mpr positive, decide_false, Bool.false_eq_true, if_false, start,
    same, loop]
  cases outcome with
  | none => rfl
  | some stopped => simp only [Inquiry.result_bind, Inquiry.result_report, ok_bind]; rfl

theorem Model.entry_of_valueIteration {outcome : Option (Solution (Extended F))}
    (run : (model.extended.valueIteration (.finite epsilon) recordHistory budget).result
      model.extended = .ok outcome) :
    (0 ≤ model.discount ∧ model.discount < 1) ∧ 0 < epsilon := by
  rw [Model.valueIteration, Inquiry.result_bind, Inquiry.result_liftM] at run
  obtain ⟨_, inRange, run⟩ := bind_eq_ok_iff.mp run
  refine ⟨Model.checkDiscount_extended_iff.mp inRange, ?_⟩
  by_contra notPositive
  rw [if_pos (by simpa using notPositive)] at run
  cases run

theorem Model.exists_sweep_of_valueIteration {outcome : Option (Solution (Extended F))}
    (run : (model.extended.valueIteration (.finite epsilon) recordHistory (budget + 1)).result
      model.extended = .ok outcome) :
    ∃ next, (model.extended.sweep model.extended.zeroUtility).result model.extended = .ok next := by
  rw [Model.valueIteration] at run
  obtain ⟨_, -, run⟩ := Inquiry.result_bind_eq_ok_iff.mp run
  split at run
  · cases run
  · obtain ⟨_, loop, -⟩ := Inquiry.result_bind_eq_ok_iff.mp run
    rw [Model.sweepUntil] at loop
    obtain ⟨_, once, -⟩ := Inquiry.result_bind_eq_ok_iff.mp loop
    rw [Model.sweepOnce] at once
    obtain ⟨next, swept, -⟩ := Inquiry.result_bind_eq_ok_iff.mp once
    exact ⟨next, swept⟩

/-! ## The loop -/

section Loop

variable [IsStrictOrderedRing F] (accepted : model.Accepted)

include accepted

private theorem Model.result_sweepOnce (recordHistory : Bool) (count : Nat) :
    (model.extended.sweepOnce recordHistory (model.progressAfter recordHistory count)).result
        model.extended =
      .ok (.finite (model.change count), model.progressAfter recordHistory (count + 1)) := by
  have swept := Model.result_sweep accepted (model.tabled_reads (model.iterate count))
  rw [← Model.iterate_succ] at swept
  simp only [Model.sweepOnce, Model.progressAfter_utility, Inquiry.result_bind, swept, ok_bind,
    Inquiry.result_liftM, Model.distance_tabled, Inquiry.result_report, Inquiry.result_pure]
  rfl

private theorem Model.result_sweepUntil (recordHistory : Bool) (start more : Nat)
    (enough : more < budget) (stops : model.StopsAfter epsilon (start + more)) :
    (model.extended.sweepUntil recordHistory
        (stoppingThreshold (.finite epsilon) (.finite model.discount)) budget
        (model.progressAfter recordHistory start)).result model.extended =
      .ok (some (.finite (model.change (start + more)),
        model.progressAfter recordHistory (start + more + 1))) := by
  induction budget generalizing start more with
  | zero => omega
  | succ budget ih =>
      simp only [Model.sweepUntil, Inquiry.result_bind, Model.result_sweepOnce accepted, ok_bind]
      cases more with
      | zero =>
          rw [Nat.add_zero] at stops ⊢
          rw [if_pos (Model.atMost_threshold_iff.mpr stops.settles)]
          rfl
      | succ more =>
          have early : ¬ model.Settles epsilon start := stops.earliest start (by omega)
          rw [if_neg (fun held => early (Model.atMost_threshold_iff.mp held))]
          have place : start + (more + 1) = start + 1 + more := by omega
          rw [place] at stops ⊢
          exact ih (start + 1) more (by omega) stops

private theorem Model.result_sweepUntil_none (recordHistory : Bool) (start : Nat)
    (unsettled : ∀ more < budget, ¬ model.Settles epsilon (start + more)) :
    (model.extended.sweepUntil recordHistory
        (stoppingThreshold (.finite epsilon) (.finite model.discount)) budget
        (model.progressAfter recordHistory start)).result model.extended = .ok none := by
  induction budget generalizing start with
  | zero => rfl
  | succ budget ih =>
      simp only [Model.sweepUntil, Inquiry.result_bind, Model.result_sweepOnce accepted, ok_bind]
      have early : ¬ model.Settles epsilon start := unsettled 0 (by omega)
      rw [if_neg (fun held => early (Model.atMost_threshold_iff.mp held))]
      apply ih
      intro more small
      have later := unsettled (more + 1) (by omega)
      rwa [show start + (more + 1) = start + 1 + more by omega] at later

/-! ## Whole runs -/

theorem Model.result_valueIteration (recordHistory : Bool)
    (discount : 0 ≤ model.discount ∧ model.discount < 1)
    (positive : 0 < epsilon) (enough : count < budget) (stops : model.StopsAfter epsilon count) :
    (model.extended.valueIteration (.finite epsilon) recordHistory budget).result model.extended =
      .ok (some (model.solutionAfter recordHistory (count + 1))) := by
  have loop := Model.result_sweepUntil accepted recordHistory 0 count enough
    (by rwa [Nat.zero_add])
  have policy := Model.result_greedyPolicy accepted (model.tabled_reads (model.iterate (count + 1)))
  rw [Nat.zero_add] at loop
  rw [Model.result_valueIteration_of_loop discount positive loop]
  simp only [Model.progressAfter_utility, policy, ok_bind, Model.progressAfter_deltas_length]
  rfl

/-- A run returns after the first sweep of which the stopping rule holds, or there is none within its
budget. -/
theorem Model.result_valueIteration_cases (recordHistory : Bool)
    (discount : 0 ≤ model.discount ∧ model.discount < 1) (positive : 0 < epsilon) (budget : Nat) :
    (∃ count < budget, model.StopsAfter epsilon count ∧
      (model.extended.valueIteration (.finite epsilon) recordHistory budget).result model.extended =
        .ok (some (model.solutionAfter recordHistory (count + 1)))) ∨
    (∀ count < budget, ¬ model.Settles epsilon count) ∧
      (model.extended.valueIteration (.finite epsilon) recordHistory budget).result model.extended =
        .ok none := by
  by_cases settled : ∃ count < budget, model.Settles epsilon count
  · obtain ⟨count, small, settles⟩ := settled
    obtain ⟨first, least, stops⟩ := settles.exists_stopsAfter
    have enough := least.trans_lt small
    exact .inl ⟨first, enough, stops,
      Model.result_valueIteration accepted recordHistory discount positive enough stops⟩
  · have unsettled : ∀ count < budget, ¬ model.Settles epsilon count := fun count small held =>
      settled ⟨count, small, held⟩
    have loop := Model.result_sweepUntil_none accepted recordHistory 0 fun more small => by
      rw [Nat.zero_add]
      exact unsettled more small
    exact .inr ⟨unsettled, Model.result_valueIteration_of_loop discount positive loop⟩

omit accepted in
/-- If the stopping rule holds of the same sweeps of two models, then their runs go together. -/
theorem Model.exists_valueIteration_of_settles {left right : Model F} (accepted : left.Accepted)
    (reaccepted : right.Accepted) (same : left.discount = right.discount)
    (settles : ∀ count, left.Settles epsilon count ↔ right.Settles epsilon count)
    {outcome : Option (Solution (Extended F))}
    (run : (left.extended.valueIteration (.finite epsilon) recordHistory budget).result
      left.extended = .ok outcome) :
    ∃ other, (right.extended.valueIteration (.finite epsilon) recordHistory budget).result
        right.extended = .ok other ∧
      ((outcome = none ∧ other = none) ∨ ∃ count,
        outcome = some (left.solutionAfter recordHistory (count + 1)) ∧
        other = some (right.solutionAfter recordHistory (count + 1))) := by
  obtain ⟨discount, positive⟩ := Model.entry_of_valueIteration run
  have rediscount := discount
  rw [same] at rediscount
  rcases Model.result_valueIteration_cases accepted recordHistory discount positive budget with
    ⟨count, small, stops, returned⟩ | ⟨unsettled, exhausted⟩
  · rw [returned] at run
    cases run
    have restops : right.StopsAfter epsilon count :=
      ⟨(settles count).mp stops.settles, fun earlier before settled =>
        stops.earliest earlier before ((settles earlier).mpr settled)⟩
    exact ⟨_, Model.result_valueIteration reaccepted recordHistory rediscount positive small restops,
      .inr ⟨count, rfl, rfl⟩⟩
  · rw [exhausted] at run
    cases run
    rcases Model.result_valueIteration_cases reaccepted recordHistory rediscount positive budget
      with ⟨count, small, stops, -⟩ | ⟨-, reexhausted⟩
    · exact absurd ((settles count).mpr stops.settles) (unsettled count small)
    · exact ⟨none, reexhausted, .inl ⟨rfl, rfl⟩⟩

/-- A run that returns has stopped at the first sweep of which the stopping rule holds, with a
discount and a bound that the entry checks let through. -/
theorem Model.solution_of_valueIteration {solution : Solution (Extended F)}
    (run : (model.extended.valueIteration (.finite epsilon) recordHistory budget).result
      model.extended = .ok (some solution)) :
    (0 ≤ model.discount ∧ model.discount < 1) ∧ 0 < epsilon ∧ ∃ count,
      model.StopsAfter epsilon count ∧ solution = model.solutionAfter recordHistory (count + 1) := by
  obtain ⟨discount, positive⟩ := Model.entry_of_valueIteration run
  refine ⟨discount, positive, ?_⟩
  rcases Model.result_valueIteration_cases accepted recordHistory discount positive budget with
    ⟨count, -, stops, returned⟩ | ⟨-, exhausted⟩
  · rw [returned] at run
    exact ⟨count, stops, (Option.some.inj (Except.ok.inj run)).symm⟩
  · rw [exhausted] at run
    cases run

end Loop

end MarkovDecision
