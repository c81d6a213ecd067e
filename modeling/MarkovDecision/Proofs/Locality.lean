import MarkovDecision.Proofs.Policy

/-!
# What sweeps read

The value that a number of sweeps gives to a state depends on the model only through the actions,
rows and rewards of the states that are reached from it in fewer steps, and on the start only through
the states that are reached in exactly as many. A step leads to a successor of non-zero probability:
the others are passed over, whether or not they are known. Nothing is promised about arithmetic, so
the entries of a row count in their order.
-/

set_option autoImplicit false

namespace MarkovDecision

variable {K : Type} [Scalar K]

/-! ## States within reach -/

/-- The entries of a row that are not passed over. -/
def Row.weighed (row : Row K) : List (Ident × K) :=
  row.entries.filter fun entry => !Scalar.equal entry.2 Scalar.zero

def Policy.options (policy : Policy) (state : Ident) : List Ident := (policy.get? state).toList

def Model.successors (model : Model K) (options : Ident → List Ident) (state : Ident) : List Ident :=
  (options state).flatMap fun action => (model.rowAt state action).weighed.map Prod.fst

/-- The states reached in exactly so many steps, each under one of the options of its state. -/
def Model.reachedAfter (model : Model K) (options : Ident → List Ident) (start : Ident) :
    Nat → List Ident
  | 0 => [start]
  | steps + 1 => (model.reachedAfter options start steps).flatMap (model.successors options)

/-! ## Agreement -/

/-- The utilities do not differ in the state, unless one of them has no value there. -/
def Utility.AgreesAt (utility other : Utility K) (state : Ident) : Prop :=
  ∀ value ∈ utility.get? state, ∀ found ∈ other.get? state, value = found

/-- The options have the same weighed entries, which are rewarded alike. -/
structure Model.SameAt (left right : Model K) (options : List Ident) (state : Ident) : Prop where
  row : ∀ action ∈ options, (left.rowAt state action).weighed = (right.rowAt state action).weighed
  reward : ∀ action ∈ options, ∀ entry ∈ (left.rowAt state action).weighed,
    left.reward state action entry.1 = right.reward state action entry.1

/-- In every state reached in fewer steps, the models have the same options and are the same under
each of them. -/
def Model.SameWithin (left right : Model K) (options others : Ident → List Ident) (start : Ident)
    (count : Nat) : Prop :=
  ∀ steps < count, ∀ seen ∈ left.reachedAfter options start steps,
    options seen = others seen ∧ left.SameAt right (options seen) seen

section Decisions

variable [DecidableEq K]

instance (utility other : Utility K) (state : Ident) : Decidable (utility.AgreesAt other state) :=
  inferInstanceAs (Decidable (∀ _ ∈ _, ∀ _ ∈ _, _))

instance (left right : Model K) (options : List Ident) (state : Ident) :
    Decidable (left.SameAt right options state) :=
  decidable_of_iff (_ ∧ _) ⟨fun ⟨row, reward⟩ => ⟨row, reward⟩, fun same => ⟨same.row, same.reward⟩⟩

instance (left right : Model K) (options others : Ident → List Ident) (start : Ident) (count : Nat) :
    Decidable (left.SameWithin right options others start count) :=
  inferInstanceAs (Decidable (∀ _ < _, ∀ _ ∈ _, _ ∧ _))

end Decisions

/-! ## Action values -/

variable {model left right : Model K} {utility other : Utility K} {state action : Ident}

private theorem Model.accumulate_filter (entries : List (Ident × K)) (total : K) :
    model.accumulate utility state action
        (entries.filter fun entry => !Scalar.equal entry.2 Scalar.zero) total =
      model.accumulate utility state action entries total := by
  induction entries generalizing total with
  | nil => rfl
  | cons entry rest ih =>
      cases zero : Scalar.equal entry.2 Scalar.zero with
      | true => simp [Model.accumulate, zero, ih]
      | false => simp [Model.accumulate, zero, ih]

theorem Model.exists_get?_of_accumulate {entries : List (Ident × K)} {total sum : K}
    (run : model.accumulate utility state action entries total = .ok sum) :
    ∀ entry ∈ entries, Scalar.equal entry.2 Scalar.zero = false →
      ∃ value, utility.get? entry.1 = some value := by
  induction entries generalizing total with
  | nil => simp
  | cons first rest ih =>
      rw [Model.accumulate] at run
      cases zero : Scalar.equal first.2 Scalar.zero with
      | true =>
          rw [if_pos zero] at run
          simpa [zero] using ih run
      | false =>
          rw [if_neg (Bool.eq_false_iff.mp zero)] at run
          obtain ⟨value, found, later⟩ := bind_eq_ok_iff.mp run
          simpa [zero, Table.get?_of_demand found] using ih later

theorem Model.accumulate_congr (discount : left.discount = right.discount)
    {entries : List (Ident × K)}
    (reward : ∀ entry ∈ entries,
      left.reward state action entry.1 = right.reward state action entry.1)
    (alike : ∀ entry ∈ entries, Scalar.equal entry.2 Scalar.zero = false →
      utility.get? entry.1 = other.get? entry.1) (total : K) :
    left.accumulate utility state action entries total =
      right.accumulate other state action entries total := by
  induction entries generalizing total with
  | nil => rfl
  | cons entry rest ih =>
      rw [List.forall_mem_cons] at reward alike
      have others := ih reward.2 alike.2
      cases zero : Scalar.equal entry.2 Scalar.zero with
      | true => simp [Model.accumulate, zero, others]
      | false => simp [Model.accumulate, Table.demand, zero, others, discount, reward.1, alike.1 zero]

private theorem Model.result_expectedValue_eq (model : Model K) (utility : Utility K)
    (state action : Ident) :
    (model.expectedValue utility state action).result model = (do
      let _ ← model.row state action
      model.accumulate utility state action (model.rowAt state action).weighed Scalar.zero) := by
  rw [Model.expectedValue, Inquiry.result_bind, Inquiry.result_rowOf]
  cases run : model.row state action with
  | error fault => rfl
  | ok row =>
      have stored := Model.rowAt_of_get? (Model.row_eq_ok_iff.mp run).1
      rw [ok_bind, ok_bind, Inquiry.result_liftM, stored, Row.weighed, Model.accumulate_filter]

theorem Model.exists_row_of_expectedValue {value : K}
    (run : (model.expectedValue utility state action).result model = .ok value) :
    ∃ row, model.row state action = .ok row := by
  rw [Model.result_expectedValue_eq] at run
  obtain ⟨row, found, -⟩ := bind_eq_ok_iff.mp run
  exact ⟨row, found⟩

private theorem Model.get?_of_expectedValue {value : K}
    (run : (model.expectedValue utility state action).result model = .ok value) :
    ∀ entry ∈ (model.rowAt state action).weighed, ∃ value, utility.get? entry.1 = some value := by
  rw [Model.result_expectedValue_eq] at run
  obtain ⟨row, -, summed⟩ := bind_eq_ok_iff.mp run
  intro entry member
  have nonzero := (List.mem_filter.mp member).2
  exact Model.exists_get?_of_accumulate summed entry member (by simpa using nonzero)

private theorem Model.SameAt.expectedValue_eq {options : Ident → List Ident}
    (same : left.SameAt right (options state) state) (discount : left.discount = right.discount)
    (alike : ∀ seen ∈ left.successors options state, utility.AgreesAt other seen)
    (listed : action ∈ options state) {value found : K}
    (run : (left.expectedValue utility state action).result left = .ok value)
    (rerun : (right.expectedValue other state action).result right = .ok found) : value = found := by
  have row := same.row action listed
  have look : ∀ entry ∈ (left.rowAt state action).weighed,
      Scalar.equal entry.2 Scalar.zero = false → utility.get? entry.1 = other.get? entry.1 := by
    intro entry member _
    obtain ⟨here, stored⟩ := Model.get?_of_expectedValue run entry member
    obtain ⟨there, restored⟩ := Model.get?_of_expectedValue rerun entry (row ▸ member)
    have reached : entry.1 ∈ left.successors options state :=
      List.mem_flatMap.mpr ⟨action, listed, List.mem_map_of_mem member⟩
    rw [stored, restored, alike entry.1 reached here stored there restored]
  rw [Model.result_expectedValue_eq] at run rerun
  obtain ⟨-, -, summed⟩ := bind_eq_ok_iff.mp run
  obtain ⟨-, -, resummed⟩ := bind_eq_ok_iff.mp rerun
  rw [← row, ← Model.accumulate_congr discount (same.reward action listed) look, summed] at resummed
  exact Except.ok.inj resummed

/-! ## Best actions -/

private theorem Model.exists_expectedValue_of_improveOver {actions : List Ident}
    {incumbent best : Ident × K}
    (run : (model.improveOver utility state actions incumbent).result model = .ok best) :
    ∀ action ∈ actions, ∃ value,
      (model.expectedValue utility state action).result model = .ok value := by
  induction actions generalizing incumbent with
  | nil => simp
  | cons first rest ih =>
      rw [Model.improveOver] at run
      obtain ⟨value, valued, later⟩ := Inquiry.result_bind_eq_ok_iff.mp run
      exact List.forall_mem_cons.mpr ⟨⟨value, valued⟩, ih later⟩

theorem Model.exists_expectedValue_of_bestAction {best : Ident × K}
    (run : (model.bestAction utility state).result model = .ok best) :
    model.legal state ≠ [] ∧ ∀ action ∈ model.legal state, ∃ value,
      (model.expectedValue utility state action).result model = .ok value := by
  rw [Model.bestAction, Inquiry.result_bind, Inquiry.result_liftM] at run
  obtain ⟨actions, listed, run⟩ := bind_eq_ok_iff.mp run
  obtain ⟨rfl, active⟩ := Model.eq_legal_of_actions listed
  exact ⟨active, Model.exists_expectedValue_of_improveOver run⟩

private theorem Model.improveOver_congr {actions : List Ident}
    (each : ∀ action ∈ actions, (left.expectedValue utility state action).result left =
      (right.expectedValue other state action).result right) (incumbent : Ident × K) :
    (left.improveOver utility state actions incumbent).result left =
      (right.improveOver other state actions incumbent).result right := by
  induction actions generalizing incumbent with
  | nil => rfl
  | cons action rest ih =>
      rw [List.forall_mem_cons] at each
      simp only [Model.improveOver, Inquiry.result_bind, each.1, ih each.2]

theorem Model.bestAction_congr (options : left.legal state = right.legal state)
    (active : left.legal state ≠ [])
    (each : ∀ action ∈ left.legal state, (left.expectedValue utility state action).result left =
      (right.expectedValue other state action).result right) :
    (left.bestAction utility state).result left = (right.bestAction other state).result right := by
  have listed := Model.actions_eq_ok active
  have relisted := Model.actions_eq_ok (options ▸ active)
  rw [← options] at relisted
  simp only [Model.bestAction, Inquiry.result_bind, Inquiry.result_liftM, listed, relisted, ok_bind]
  exact Model.improveOver_congr each _

private theorem Model.expectedValue_of_actionValue {value : K}
    (run : (model.actionValue utility state action).result model = .ok value) :
    (model.expectedValue utility state action).result model = .ok value := by
  obtain ⟨actions, -, run⟩ := Inquiry.result_bind_eq_ok_iff.mp run
  split at run
  · exact run
  · cases run

/-! ## One sweep -/

section Sweep

variable (discount : left.discount = right.discount) {next renext : Utility K}

include discount

/-- After a sweep, utilities agree in a state if they agreed in its successors before. -/
theorem Model.SameAt.sweep_agrees (same : left.SameAt right (left.legal state) state)
    (options : left.legal state = right.legal state)
    (alike : ∀ seen ∈ left.successors left.legal state, utility.AgreesAt other seen)
    (run : (left.sweep utility).result left = .ok next)
    (rerun : (right.sweep other).result right = .ok renext) : next.AgreesAt renext state := by
  intro value stored found restored
  obtain ⟨-, computed⟩ := (get?_of_tabulate run state value).mp stored
  obtain ⟨-, recomputed⟩ := (get?_of_tabulate rerun state found).mp restored
  rw [Model.stateValue] at computed recomputed
  obtain ⟨best, improved, last⟩ := Inquiry.result_bind_eq_ok_iff.mp computed
  obtain ⟨rebest, reimproved, relast⟩ := Inquiry.result_bind_eq_ok_iff.mp recomputed
  obtain ⟨active, values⟩ := Model.exists_expectedValue_of_bestAction improved
  obtain ⟨-, revalues⟩ := Model.exists_expectedValue_of_bestAction reimproved
  have each : ∀ action ∈ left.legal state, (left.expectedValue utility state action).result left =
      (right.expectedValue other state action).result right := by
    intro action listed
    obtain ⟨value, valued⟩ := values action listed
    obtain ⟨found, revalued⟩ := revalues action (options ▸ listed)
    rw [valued, revalued, same.expectedValue_eq discount alike listed valued revalued]
  rw [Model.bestAction_congr options active each, reimproved] at improved
  cases improved
  cases last
  cases relast
  rfl

private theorem Model.SameAt.policySweep_agrees {policy rule : Policy}
    (same : left.SameAt right (policy.options state) state)
    (options : policy.options state = rule.options state)
    (alike : ∀ seen ∈ left.successors policy.options state, utility.AgreesAt other seen)
    (run : (left.policySweep policy utility).result left = .ok next)
    (rerun : (right.policySweep rule other).result right = .ok renext) :
    next.AgreesAt renext state := by
  intro value stored found restored
  obtain ⟨-, computed⟩ := (get?_of_tabulate run state value).mp stored
  obtain ⟨-, recomputed⟩ := (get?_of_tabulate rerun state found).mp restored
  obtain ⟨chosen, look, valued⟩ := Inquiry.result_bind_eq_ok_iff.mp computed
  obtain ⟨rechosen, relook, revalued⟩ := Inquiry.result_bind_eq_ok_iff.mp recomputed
  rw [Inquiry.result_liftM] at look relook
  have taken := Table.get?_of_demand look
  have retaken := Table.get?_of_demand relook
  obtain rfl : chosen = rechosen := by simpa [Policy.options, taken, retaken] using options
  have listed : chosen ∈ policy.options state := by simp [Policy.options, taken]
  exact same.expectedValue_eq discount alike listed (Model.expectedValue_of_actionValue valued)
    (Model.expectedValue_of_actionValue revalued)

end Sweep

/-! ## Many sweeps -/

/-- Take a step a number of times. -/
def Inquiry.repeatedly {Answer : Type} (step : Answer → Inquiry K Answer) :
    Nat → Answer → Inquiry K Answer
  | 0, start => return start
  | count + 1, start => do
    let next ← step start
    repeatedly step count next

private theorem Model.sweepTimes_eq_repeatedly (model : Model K) (count : Nat)
    (utility : Utility K) :
    model.sweepTimes count utility = .repeatedly model.sweep count utility := by
  induction count generalizing utility with
  | zero => rfl
  | succ count ih => simp only [Model.sweepTimes, Inquiry.repeatedly, ih]

private theorem Model.policySweeps_eq_repeatedly (model : Model K) (policy : Policy) (count : Nat)
    (utility : Utility K) :
    model.policySweeps policy count utility = .repeatedly (model.policySweep policy) count utility := by
  induction count generalizing utility with
  | zero => rfl
  | succ count ih => simp only [Model.policySweeps, Inquiry.repeatedly, ih]

/-- What steps preserve from one layer to the layer before it holds, after so many steps, in the first
layer. -/
theorem Utility.agrees_repeatedly {first second : Utility K → Inquiry K (Utility K)}
    {layer : Nat → List Ident} {count : Nat}
    (step : ∀ steps < count, ∀ utility other next renext : Utility K,
      (∀ seen ∈ layer (steps + 1), utility.AgreesAt other seen) →
      (first utility).result left = .ok next → (second other).result right = .ok renext →
      ∀ seen ∈ layer steps, next.AgreesAt renext seen)
    (starts : ∀ seen ∈ layer count, utility.AgreesAt other seen) {after later : Utility K}
    (run : (Inquiry.repeatedly first count utility).result left = .ok after)
    (rerun : (Inquiry.repeatedly second count other).result right = .ok later) :
    ∀ seen ∈ layer 0, after.AgreesAt later seen := by
  induction count generalizing utility other with
  | zero =>
      cases run
      cases rerun
      exact starts
  | succ count ih =>
      obtain ⟨next, stepped, rest⟩ := Inquiry.result_bind_eq_ok_iff.mp run
      obtain ⟨renext, restepped, rerest⟩ := Inquiry.result_bind_eq_ok_iff.mp rerun
      have nearer := step count (Nat.lt_succ_self count) utility other next renext starts stepped
        restepped
      exact ih (fun steps early => step steps (Nat.lt_succ_of_lt early)) nearer rest rerest

private theorem Inquiry.exists_get?_of_repeatedly {step : Utility K → Inquiry K (Utility K)}
    {count : Nat} (positive : 0 < count)
    (covers : ∀ utility next : Utility K, (step utility).result model = .ok next →
      state ∈ next.keys)
    {after : Utility K} (run : (Inquiry.repeatedly step count utility).result model = .ok after) :
    ∃ value, after.get? state = some value := by
  induction count generalizing utility with
  | zero => exact absurd positive (Nat.lt_irrefl 0)
  | succ count ih =>
      obtain ⟨next, stepped, rest⟩ := Inquiry.result_bind_eq_ok_iff.mp run
      cases count with
      | zero =>
          cases rest
          have present := (Table.get?_isSome_iff after state).mpr (covers _ _ stepped)
          exact Option.isSome_iff_exists.mp present
      | succ count => exact ih (Nat.succ_pos count) rest

private theorem Model.exists_value_within_reach {options : Ident → List Ident}
    {compute recompute : Utility K → Ident → Inquiry K K} (known : state ∈ left.states)
    (reknown : state ∈ right.states) {count : Nat} (positive : 0 < count)
    (step : ∀ steps < count, ∀ seen ∈ left.reachedAfter options state steps,
      ∀ utility other next renext : Utility K,
      (∀ beyond ∈ left.successors options seen, utility.AgreesAt other beyond) →
      (tabulate left.states (compute utility)).result left = .ok next →
      (tabulate right.states (recompute other)).result right = .ok renext → next.AgreesAt renext seen)
    (starts : ∀ seen ∈ left.reachedAfter options state count, utility.AgreesAt other seen)
    {after later : Utility K}
    (run : (Inquiry.repeatedly (fun utility => tabulate left.states (compute utility)) count
      utility).result left = .ok after)
    (rerun : (Inquiry.repeatedly (fun other => tabulate right.states (recompute other)) count
      other).result right = .ok later) :
    ∃ value, after.get? state = some value ∧ later.get? state = some value := by
  have covers {side : Model K} (known : state ∈ side.states)
      (compute : Utility K → Ident → Inquiry K K) (utility next : Utility K)
      (run : (tabulate side.states (compute utility)).result side = .ok next) : state ∈ next.keys :=
    (exists_result_of_tabulate run state known).1
  obtain ⟨value, stored⟩ := Inquiry.exists_get?_of_repeatedly positive (covers known compute) run
  obtain ⟨found, restored⟩ :=
    Inquiry.exists_get?_of_repeatedly positive (covers reknown recompute) rerun
  have agrees : ∀ seen ∈ left.reachedAfter options state 0, after.AgreesAt later seen := by
    refine Utility.agrees_repeatedly ?_ starts run rerun
    intro steps early utility other next renext agree stepped restepped seen reached
    refine step steps early seen reached utility other next renext ?_ stepped restepped
    exact fun beyond member => agree beyond (List.mem_flatMap.mpr ⟨seen, reached, member⟩)
  obtain rfl := agrees state (List.mem_singleton.mpr rfl) value stored found restored
  exact ⟨value, stored, restored⟩

/-- The value of a state after some sweeps depends on nothing beyond what so many steps reach from it:
on the models short of the last step, and on the starts after the last. This holds for optimal sweeps
under all legal actions, and for the sweeps of a policy under its choices. -/
theorem Model.sweeps_read_within_reach (left right : Model K)
    (discount : left.discount = right.discount) {state : Ident} (known : state ∈ left.states)
    (reknown : state ∈ right.states) {count : Nat} (positive : 0 < count) :
    (∀ utility other after later : Utility K,
      left.SameWithin right left.legal right.legal state count →
      (∀ seen ∈ left.reachedAfter left.legal state count, utility.AgreesAt other seen) →
      (left.sweepTimes count utility).result left = .ok after →
      (right.sweepTimes count other).result right = .ok later →
      ∃ value, after.get? state = some value ∧ later.get? state = some value) ∧
    ∀ (policy rule : Policy) (start restart : Option (Utility K)) (after later : Utility K),
      left.SameWithin right policy.options rule.options state count →
      (∀ seen ∈ left.reachedAfter policy.options state count,
        (start.getD left.zeroUtility).AgreesAt (restart.getD right.zeroUtility) seen) →
      (left.evaluatePolicy policy count start).result left = .ok after →
      (right.evaluatePolicy rule count restart).result right = .ok later →
      ∃ value, after.get? state = some value ∧ later.get? state = some value := by
  constructor
  · intro utility other after later same starts run rerun
    rw [Model.sweepTimes_eq_repeatedly] at run rerun
    refine Model.exists_value_within_reach known reknown positive ?_ starts run rerun
    intro steps early seen reached utility other next renext agree stepped restepped
    obtain ⟨options, alike⟩ := same steps early seen reached
    exact alike.sweep_agrees discount options agree stepped restepped
  · intro policy rule start restart after later same starts run rerun
    obtain ⟨-, -, -, swept⟩ := Model.evaluatePolicy_eq_ok_iff.mp run
    obtain ⟨-, -, -, reswept⟩ := Model.evaluatePolicy_eq_ok_iff.mp rerun
    rw [Int.toNat_natCast, Model.policySweeps_eq_repeatedly] at swept reswept
    refine Model.exists_value_within_reach known reknown positive ?_ starts swept reswept
    intro steps early seen reached utility other next renext agree stepped restepped
    obtain ⟨options, alike⟩ := same steps early seen reached
    exact alike.policySweep_agrees discount options agree stepped restepped

/-- Three places in a row. From the second, half of the ways lead back, and the last earns a bonus. In
the first there is a detour that is never taken. -/
def corridor (bonus : ℚ) (detour : Ident) : Model ℚ where
  states := [.int 0, .int 1, .int 2]
  actionTable := .ofKeys [.int 0, .int 1, .int 2] fun _ => [.text "walk"]
  rowTable := .ofPairs [((.int 0, .text "walk"), .ofPairs [(detour, 0), (.int 1, 1)]),
    ((.int 1, .text "walk"), .ofPairs [(.int 0, 1 / 2), (.int 2, 1 / 2)]),
    ((.int 2, .text "walk"), .ofPairs [(.int 2, 1)])]
  reward state _ _ := if state = .int 2 then bonus else 1
  discount := 1 / 2
  initial := .int 0
  terminals := []
  noop := .blank

/-- Neither the bonus nor the detour, which need not be a place, shows in two sweeps. -/
theorem Model.sweeps_read_within_reach_corridor :
    let left := corridor 3 (.int 2)
    let right := corridor 8 (.text "aside")
    let start : Ident → ℚ := fun _ => 4
    let restart : Ident → ℚ := fun state => if state = .int 1 then 9 else 4
    let walk : Policy := .ofKeys left.states fun _ => .text "walk"
    ∃ after later evaluated reevaluated value number,
      (left.extended.sweepTimes 2 (left.tabled start)).result left.extended = .ok after ∧
      (right.extended.sweepTimes 2 (right.tabled restart)).result right.extended = .ok later ∧
      (left.extended.evaluatePolicy walk 2 none).result left.extended = .ok evaluated ∧
      (right.extended.evaluatePolicy walk 2 none).result right.extended = .ok reevaluated ∧
      (after.get? (.int 0) = some value ∧ later.get? (.int 0) = some value) ∧
      evaluated.get? (.int 0) = some number ∧ reevaluated.get? (.int 0) = some number := by
  intro left right start restart walk
  have accepted : left.Accepted := by decide +kernel
  have reaccepted : right.Accepted := by decide +kernel
  have legal : left.LegalPolicy walk := by decide +kernel
  have relegal : right.LegalPolicy walk := by decide +kernel
  have discount : 0 ≤ left.discount ∧ left.discount < 1 := by decide +kernel
  have rediscount : 0 ≤ right.discount ∧ right.discount < 1 := by decide +kernel
  obtain ⟨after, run, -⟩ := Model.result_sweepTimes accepted (left.tabled_reads start) 2
  obtain ⟨later, rerun, -⟩ := Model.result_sweepTimes reaccepted (right.tabled_reads restart) 2
  have evaluated := Model.result_evaluatePolicy accepted legal.takes legal.legalChoice discount
    two_pos none left.zeroUtility_reads
  have reevaluated := Model.result_evaluatePolicy reaccepted relegal.takes relegal.legalChoice
    rediscount two_pos none right.zeroUtility_reads
  obtain ⟨sweeps, evaluations⟩ := Model.sweeps_read_within_reach left.extended right.extended
    (show left.extended.discount = right.extended.discount from rfl)
    (show .int 0 ∈ left.extended.states by decide) (show .int 0 ∈ right.extended.states by decide)
    two_pos
  obtain ⟨value, here, there⟩ := sweeps _ _ after later (by decide +kernel) (by decide +kernel) run
    rerun
  obtain ⟨number, first, second⟩ := evaluations walk walk none none _ _ (by decide +kernel)
    (by decide +kernel) evaluated reevaluated
  exact ⟨after, later, _, _, value, number, run, rerun, evaluated, reevaluated, ⟨here, there⟩,
    first, second⟩

end MarkovDecision
