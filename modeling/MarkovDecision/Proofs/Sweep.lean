import MarkovDecision.Proofs.Backup

/-!
# Sweeps with exact numbers

On a model whose rows pass their check, and from a utility that has an exact number for every state,
each step of a sweep succeeds and computes the exact backup of the same name: the value of an
action, the best action, the optimal sweep, the greedy policy and the distance of two utilities.
-/

set_option autoImplicit false

namespace MarkovDecision

variable {F : Type}

/-- A utility that has the given exact numbers in the given states. It may have other states too. -/
def Utility.Reads (utility : Utility (Extended F)) (states : List Ident) (value : Ident → F) : Prop :=
  ∀ state ∈ states, utility.get? state = some (.finite (value state))

def Model.tabled (model : Model F) (value : Ident → F) : Utility (Extended F) :=
  .ofKeys model.states fun state => .finite (value state)

def Model.sweepTimes {K : Type} [Scalar K] (model : Model K) : Nat → Utility K → Inquiry K (Utility K)
  | 0, utility => return utility
  | count + 1, utility => do
    let next ← model.sweep utility
    model.sweepTimes count next

variable {model : Model F} {value : Ident → F} {utility : Utility (Extended F)}
  {state action : Ident}

theorem Model.tabled_reads (model : Model F) (value : Ident → F) :
    Utility.Reads (model.tabled value) model.states value := by
  intro state member
  simp [Model.tabled, member]

theorem Utility.ofKeys_reads (states : List Ident) (value : Ident → F) :
    Utility.Reads (Table.ofKeys states value).extended states value := by
  intro state member
  simp [member]

theorem Utility.extended_reads {utility : Utility F} {states : List Ident}
    (covered : ∀ state ∈ states, utility.get? state = some (value state)) :
    Utility.Reads utility.extended states value := by
  intro state member
  rw [Table.get?_extended, covered state member, Option.map_some]

theorem Utility.Reads.tabled_eq_iff (reads : Utility.Reads utility model.states value)
    (next : Ident → F) :
    (∀ state ∈ model.states, (model.tabled next).get? state = utility.get? state) ↔
      ∀ state ∈ model.states, next state = value state := by
  refine forall₂_congr fun state member => ?_
  rw [model.tabled_reads next state member, reads state member, Option.some.injEq,
    Extended.finite.injEq]

variable [Field F] [LinearOrder F]

theorem Model.zeroUtility_extended (model : Model F) :
    model.extended.zeroUtility = model.tabled 0 := by
  simp only [Model.zeroUtility, Extended.zero_eq]
  rfl

theorem Model.zeroUtility_reads (model : Model F) :
    Utility.Reads model.extended.zeroUtility model.states 0 := by
  rw [Model.zeroUtility_extended]
  exact model.tabled_reads 0

theorem Table.demand_eq_ok {Value K : Type} {table : Table Ident Value} {key : Ident} {found : Value}
    (look : table.get? key = some found) : table.demand (K := K) key = .ok found := by
  simp only [Table.demand, look]

theorem Table.get?_of_demand {Value K : Type} {table : Table Ident Value} {key : Ident} {found : Value}
    (run : table.demand (K := K) key = .ok found) : table.get? key = some found := by
  unfold Table.demand at run
  split at run
  · next stored =>
      cases run
      exact stored
  · cases run

/-! ## Action values -/

private theorem Model.accumulate_finite (reads : Utility.Reads utility model.states value)
    (state action : Ident) {entries : List (Ident × F)}
    (known : ∀ entry ∈ entries, entry.2 ≠ 0 → entry.1 ∈ model.states) (total : F) :
    model.extended.accumulate utility state action
        (entries.map fun entry => (entry.1, .finite entry.2)) (.finite total) =
      .ok (.finite (total + (entries.map fun entry =>
        entry.2 * (model.reward state action entry.1 + model.discount * value entry.1)).sum)) := by
  induction entries generalizing total with
  | nil => simp [Model.accumulate]
  | cons entry rest ih =>
      have others := ih fun other member => known other (List.mem_cons_of_mem _ member)
      simp only [List.map_cons, Model.accumulate, Extended.zero_eq, Extended.equal_finite,
        decide_eq_true_eq, List.sum_cons]
      split
      · next zero => rw [others, zero, zero_mul, zero_add]
      · next nonzero =>
          have listed := known entry List.mem_cons_self nonzero
          rw [Table.demand_eq_ok (reads _ listed), ok_bind]
          simp only [Model.extended, Extended.finite_mul, Extended.finite_add] at others ⊢
          rw [others, add_assoc]

section Backups

variable (accepted : model.Accepted) (reads : Utility.Reads utility model.states value)

include accepted reads

theorem Model.result_expectedValue (member : state ∈ model.states)
    (legal : action ∈ model.legal state) :
    (model.extended.expectedValue utility state action).result model.extended =
      .ok (.finite (model.backup value state action)) := by
  have row := accepted.row member legal
  have total := Model.accumulate_finite reads state action (fun _ => row.mem_states) 0
  simp only [Model.expectedValue, Inquiry.result_bind, Inquiry.result_rowOf,
    accepted.row_eq_ok member legal, ok_bind, Inquiry.result_liftM, Extended.zero_eq]
  rw [zero_add] at total
  exact total

theorem Model.result_actionValue (member : state ∈ model.states)
    (legal : action ∈ model.legal state) :
    (model.extended.actionValue utility state action).result model.extended =
      .ok (.finite (model.backup value state action)) := by
  simp only [Model.actionValue, Inquiry.result_bind, Inquiry.result_liftM,
    accepted.actions_eq_ok member, ok_bind, legal, if_true]
  exact Model.result_expectedValue accepted reads member legal

/-! ## Best actions -/

/-- The incumbent carries its own value, so the leader does too. -/
private theorem Model.result_improveOver (member : state ∈ model.states) {actions : List Ident}
    (legal : ∀ action ∈ actions, action ∈ model.legal state) (incumbent : Ident) :
    (model.extended.improveOver utility state actions
        (incumbent, .finite (model.backup value state incumbent))).result model.extended =
      .ok (leader (model.backup value state) actions incumbent,
        .finite (model.backup value state
          (leader (model.backup value state) actions incumbent))) := by
  induction actions generalizing incumbent with
  | nil => rfl
  | cons action rest ih =>
      have others := ih fun other listed => legal other (List.mem_cons_of_mem _ listed)
      simp only [Model.improveOver, Inquiry.result_bind,
        Model.result_expectedValue accepted reads member (legal action List.mem_cons_self), ok_bind,
        Extended.below_finite, decide_eq_true_eq, leader]
      rw [← others]
      split <;> rfl

theorem Model.result_bestAction (member : state ∈ model.states) :
    (model.extended.bestAction utility state).result model.extended =
      .ok (model.greedy value state, .finite (model.best value state)) := by
  have active := accepted.active state member
  simp only [Model.bestAction, Inquiry.result_bind, Inquiry.result_liftM,
    accepted.actions_eq_ok member, ok_bind]
  unfold Model.best Model.greedy
  cases listed : model.legal state with
  | nil => exact absurd listed active
  | cons first rest =>
      have legal : ∀ action ∈ first :: rest, action ∈ model.legal state := by simp [listed]
      -- The first action replaces the blank incumbent, whose value is below every number.
      simp only [Model.improveOver, Inquiry.result_bind,
        Model.result_expectedValue accepted reads member (legal first List.mem_cons_self), ok_bind,
        Extended.below_negInf_finite, if_true]
      exact Model.result_improveOver accepted reads member
        (fun other later => legal other (List.mem_cons_of_mem _ later)) first

/-! ## Sweeps and policies -/

theorem Model.result_sweep :
    (model.extended.sweep utility).result model.extended = .ok (model.tabled (model.best value)) := by
  refine result_tabulate fun state member => ?_
  rw [Model.stateValue, Inquiry.result_bind, Model.result_bestAction accepted reads member]
  rfl

theorem Model.result_greedyPolicy :
    (model.extended.greedyPolicy utility).result model.extended =
      .ok (.ofKeys model.states (model.greedy value)) := by
  refine result_tabulate fun state member => ?_
  rw [Inquiry.result_bind, Model.result_bestAction accepted reads member]
  rfl

end Backups

theorem Model.result_sweepTimes (accepted : model.Accepted) {utility : Utility (Extended F)}
    {value : Ident → F} (reads : Utility.Reads utility model.states value) (count : Nat) :
    ∃ lifted, (model.extended.sweepTimes count utility).result model.extended = .ok lifted ∧
      Utility.Reads lifted model.states (model.best^[count] value) := by
  induction count generalizing utility value with
  | zero => exact ⟨utility, rfl, reads⟩
  | succ count ih =>
      obtain ⟨lifted, run, read⟩ := ih (model.tabled_reads (model.best value))
      refine ⟨lifted, ?_, read⟩
      rw [Model.sweepTimes, Inquiry.result_bind, Model.result_sweep accepted reads, ok_bind, run]

private theorem Model.active_of_bestAction {state : Ident} {best : Ident × Extended F}
    (run : (model.extended.bestAction utility state).result model.extended = .ok best) :
    model.legal state ≠ [] := by
  rw [Model.bestAction, Inquiry.result_bind, Inquiry.result_liftM] at run
  obtain ⟨actions, listed, -⟩ := bind_eq_ok_iff.mp run
  exact (Model.eq_legal_of_actions listed).2

theorem Model.active_of_sweep {next : Utility (Extended F)}
    (run : (model.extended.sweep utility).result model.extended = .ok next) :
    ∀ state ∈ model.states, model.legal state ≠ [] := by
  intro state member
  obtain ⟨-, value, computed⟩ := exists_result_of_tabulate run state member
  rw [Model.stateValue] at computed
  obtain ⟨best, improved, -⟩ := Inquiry.result_bind_eq_ok_iff.mp computed
  exact Model.active_of_bestAction improved

theorem Model.active_of_greedyPolicy {policy : Policy}
    (run : (model.extended.greedyPolicy utility).result model.extended = .ok policy) :
    ∀ state ∈ model.states, model.legal state ≠ [] := by
  intro state member
  obtain ⟨-, action, computed⟩ := exists_result_of_tabulate run state member
  obtain ⟨best, improved, -⟩ := Inquiry.result_bind_eq_ok_iff.mp computed
  exact Model.active_of_bestAction improved

/-! ## Fixed points -/

/-- A utility that a sweep reproduces on every state. -/
def Model.SweepFixes (model : Model F) (utility : Utility F) : Prop :=
  ∃ next, (model.extended.sweep utility.extended).result model.extended = .ok next ∧
    ∀ state ∈ model.states, next.get? state = utility.extended.get? state

/-- A computation of a table that reproduces a utility on every state has read numbers from it. -/
theorem Utility.exists_reads {states : List Ident} {compute : Ident → Inquiry (Extended F) (Extended F)}
    {utility : Utility F} {next : Utility (Extended F)}
    (run : (tabulate states compute).result model.extended = .ok next)
    (same : ∀ state ∈ states, next.get? state = utility.extended.get? state) :
    ∃ value : Ident → F, (∀ state ∈ states, utility.get? state = some (value state)) ∧
      Utility.Reads utility.extended states value := by
  have covered : ∀ state ∈ states, utility.get? state = some ((utility.get? state).getD 0) := by
    intro state member
    have present := (exists_result_of_tabulate run state member).1
    rw [← Table.get?_isSome_iff, same state member, Table.get?_extended, Option.isSome_map] at present
    obtain ⟨number, found⟩ := Option.isSome_iff_exists.mp present
    simp [found]
  exact ⟨_, covered, Utility.extended_reads covered⟩

theorem Model.SweepFixes.exists_value {utility : Utility F} (fixed : model.SweepFixes utility)
    (accepted : model.Accepted) :
    ∃ value : Ident → F, (∀ state ∈ model.states, utility.get? state = some (value state)) ∧
      ∀ state ∈ model.states, model.best value state = value state := by
  obtain ⟨next, run, same⟩ := fixed
  obtain ⟨value, covered, reads⟩ := Utility.exists_reads run same
  rw [Model.result_sweep accepted reads] at run
  cases run
  exact ⟨value, covered, (reads.tabled_eq_iff _).mp same⟩

theorem Model.sweepFixes_of_covered {value : Ident → F} (accepted : model.Accepted)
    {utility : Utility F} (covered : ∀ state ∈ model.states, utility.get? state = some (value state))
    (stays : ∀ state ∈ model.states, model.best value state = value state) :
    model.SweepFixes utility := by
  have reads := Utility.extended_reads covered
  exact ⟨_, Model.result_sweep accepted reads, (reads.tabled_eq_iff _).mpr stays⟩

theorem Model.sweepFixes_of_best_eq {value : Ident → F} (accepted : model.Accepted)
    (stays : ∀ state ∈ model.states, model.best value state = value state) :
    model.SweepFixes (.ofKeys model.states value) := by
  apply Model.sweepFixes_of_covered accepted _ stays
  intro state member
  simp [member]

/-! ## Distances -/

/-- One utility is above another by no more than a bound, with numbers in every state. -/
def Utility.ExceedsAtMost (upper lower : Utility (Extended F)) (states : List Ident) (bound : F) :
    Prop :=
  ∀ state ∈ states, ∃ high low : F, upper.get? state = some (.finite high) ∧
    lower.get? state = some (.finite low) ∧ high ≤ low + bound

theorem Utility.exceedsAtMost_iff {upper lower : Utility (Extended F)} {states : List Ident}
    {high low : Ident → F} (readsUpper : Utility.Reads upper states high)
    (readsLower : Utility.Reads lower states low) (bound : F) :
    upper.ExceedsAtMost lower states bound ↔ ∀ state ∈ states, high state ≤ low state + bound := by
  refine forall₂_congr fun state member => ?_
  rw [readsUpper state member, readsLower state member]
  simp only [Option.some.injEq, Extended.finite.injEq]
  constructor
  · rintro ⟨_, _, rfl, rfl, bounded⟩
    exact bounded
  · exact fun bounded => ⟨_, _, rfl, rfl, bounded⟩

private theorem greatest_finite {numbers : List F} (nonneg : ∀ number ∈ numbers, 0 ≤ number) :
    greatest (numbers.map Extended.finite) = .finite (numbers.foldr max 0) := by
  cases numbers with
  | nil => exact Extended.zero_eq
  | cons first rest =>
      have folded : ∀ (others : List F) (best : F), 0 ≤ best →
          (others.map Extended.finite).foldl
              (fun best number => if Scalar.below best number then number else best)
              (.finite best) = .finite (max best (others.foldr max 0)) := by
        intro others
        induction others with
        | nil => simp
        | cons number later ih =>
            intro best start
            have kept := ih (max best number) (start.trans (le_max_left _ _))
            rw [max_assoc, ← List.foldr_cons (f := max)] at kept
            rw [← kept, List.map_cons, List.foldl_cons, Extended.below_finite, max_def_lt]
            simp only [decide_eq_true_eq]
            split <;> rfl
      rw [List.map_cons, greatest, folded rest first (nonneg first List.mem_cons_self),
        List.foldr_cons]

variable [IsStrictOrderedRing F]

/-- The distance of two utilities that have numbers for the states, the first for no others, is the gap
of their numbers, in whatever order the states stand and however often they are repeated. -/
theorem Utility.Reads.distance_eq {states : List Ident} {utility other : Utility (Extended F)}
    {left right : Ident → F} (keyed : ∀ state, state ∈ utility.keys ↔ state ∈ states)
    (readsLeft : Utility.Reads utility states left) (readsRight : Utility.Reads other states right) :
    Utility.distance utility other = .ok (.finite (gap states left right)) := by
  have listed : ∀ entry ∈ utility.entries,
      entry.1 ∈ states ∧ entry.2 = .finite (left entry.1) := by
    intro entry member
    have known := (keyed entry.1).mp (List.mem_map_of_mem member)
    have found := (utility.get?_eq_some_iff entry.1 entry.2).mpr member
    rw [readsLeft entry.1 known] at found
    exact ⟨known, (Option.some.inj found).symm⟩
  have gaps : (utility.entries.mapM fun entry => do
      let other ← other.demand (K := Extended F) entry.1
      return Scalar.abs (entry.2 - other)) =
        .ok ((utility.entries.map fun entry =>
          |left entry.1 - right entry.1|).map Extended.finite) := by
    rw [List.map_map]
    apply mapM_eq_ok
    intro entry member
    obtain ⟨known, same⟩ := listed entry member
    rw [Table.demand_eq_ok (readsRight _ known), ok_bind, same, Extended.finite_sub,
      Extended.abs_finite]
    rfl
  have keys : (utility.entries.map fun entry => |left entry.1 - right entry.1|).foldr
      max 0 = gap utility.keys left right := by
    simp [gap, Table.keys, Function.comp_def]
  have same : gap utility.keys left right = gap states left right :=
    le_antisymm (gap_mono fun state => (keyed state).mp) (gap_mono fun state => (keyed state).mpr)
  have nonneg : ∀ number ∈ utility.entries.map fun entry =>
      |left entry.1 - right entry.1|, 0 ≤ number := by
    intro number member
    obtain ⟨entry, -, rfl⟩ := List.mem_map.mp member
    exact abs_nonneg _
  rw [Utility.distance, gaps, ok_bind, greatest_finite nonneg, keys, same, pure_eq_ok]

theorem Utility.Reads.distance_tabled {utility : Utility (Extended F)} {right : Ident → F}
    (reads : Utility.Reads utility model.states right) (left : Ident → F) :
    Utility.distance (model.tabled left) utility = .ok (.finite (gap model.states left right)) :=
  Utility.Reads.distance_eq (fun _ => Table.mem_keys_ofKeys _ _ _) (model.tabled_reads left) reads

theorem Model.distance_tabled (model : Model F) (left right : Ident → F) :
    Utility.distance (model.tabled left) (model.tabled right) =
      .ok (.finite (gap model.states left right)) :=
  (model.tabled_reads right).distance_tabled left

end MarkovDecision
