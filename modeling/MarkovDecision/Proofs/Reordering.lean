import MarkovDecision.Proofs.Policy
import MarkovDecision.Proofs.Validation

/-!
# Reordered models

Two models are shuffled if they have the same states, however ordered and however often listed, the same
actions and the same rows up to order, and the same rewards and discount. They are reordered if even
the order of actions agrees, which decides ties. Exact sums do not depend on the order of a row, so
shuffled models have the same exact backups, and the evaluation of a policy comes to the same utility.
-/

set_option autoImplicit false

namespace MarkovDecision

/-! ## Tables as mappings -/

section Tables

variable {Key Value : Type} [DecidableEq Key]

/-- The two tables hold the same values at the same keys, in whatever order. -/
def Table.SameMap (left right : Table Key Value) : Prop :=
  ∀ key, left.get? key = right.get? key

theorem Table.SameMap.ofKeys {keys others : List Key} (same : ∀ key, key ∈ keys ↔ key ∈ others)
    (value : Key → Value) : Table.SameMap (.ofKeys keys value) (.ofKeys others value) := by
  intro key
  simp only [Table.get?_ofKeys, same key]

private theorem exists_tabulate_sameMap {K : Type} [Scalar K] {left right : Model K}
    {keys others : List Key} {compute recompute : Key → Inquiry K Value} {table : Table Key Value}
    (same : ∀ key, key ∈ keys ↔ key ∈ others)
    (carries : ∀ key ∈ keys, ∀ value, (compute key).result left = .ok value →
      (recompute key).result right = .ok value)
    (run : (tabulate keys compute).result left = .ok table) :
    ∃ other, (tabulate others recompute).result right = .ok other ∧ table.SameMap other := by
  have each : ∀ key ∈ others, (recompute key).Gives right fun _ => True := by
    intro key member
    have listed := (same key).mpr member
    obtain ⟨-, value, computed⟩ := exists_result_of_tabulate run key listed
    exact ⟨value, carries key listed value computed, trivial⟩
  obtain ⟨other, rerun, -⟩ := gives_tabulate each
  refine ⟨other, rerun, fun key => Option.ext fun value => ?_⟩
  rw [get?_of_tabulate run, get?_of_tabulate rerun, ← same key]
  refine and_congr_right fun listed => ⟨carries key listed value, fun recomputed => ?_⟩
  obtain ⟨-, found, computed⟩ := exists_result_of_tabulate run key listed
  rw [carries key listed found computed] at recomputed
  cases recomputed
  exact computed

end Tables

/-! ## Shuffled models -/

section Shuffled

variable {F : Type}

/-- The same states, actions, rows, rewards and discount, whatever the order of states, of actions and
of the successors in a row, and however often a state is listed. -/
structure Model.Shuffled (left right : Model F) : Prop where
  states : ∀ state, state ∈ left.states ↔ state ∈ right.states
  actions : ∀ state, (left.legal state).Perm (right.legal state)
  rows : ∀ key, Option.Rel (fun row other : Row F => row.entries.Perm other.entries)
    (left.rowTable.get? key) (right.rowTable.get? key)
  reward : left.reward = right.reward
  discount : left.discount = right.discount

/-- Shuffled models that agree on the order of the actions of each state. -/
structure Model.Reordered (left right : Model F) : Prop extends Model.Shuffled left right where
  ties : ∀ state, left.legal state = right.legal state

variable {left right : Model F}

theorem Model.Shuffled.symm (shuffled : left.Shuffled right) : right.Shuffled left := by
  refine ⟨fun state => (shuffled.states state).symm, fun state => (shuffled.actions state).symm,
    fun key => ?_, shuffled.reward.symm, shuffled.discount.symm⟩
  have rows := shuffled.rows key
  generalize left.rowTable.get? key = row, right.rowTable.get? key = other at rows
  cases rows with
  | none => exact .none
  | some perm => exact .some perm.symm

theorem Model.Reordered.symm (reordered : left.Reordered right) : right.Reordered left :=
  ⟨reordered.toShuffled.symm, fun state => (reordered.ties state).symm⟩

section Looks

variable (shuffled : left.Shuffled right)

include shuffled

private theorem Model.Shuffled.knows_eq : left.knows = right.knows :=
  funext fun state => decide_eq_decide.mpr (shuffled.states state)

private theorem Model.Shuffled.rowAt_perm (state action : Ident) :
    (left.rowAt state action).entries.Perm (right.rowAt state action).entries := by
  have rows := shuffled.rows (state, action)
  unfold Model.rowAt
  generalize left.rowTable.get? (state, action) = row,
    right.rowTable.get? (state, action) = other at rows
  cases rows with
  | none => exact .refl _
  | some perm => exact perm

theorem Model.Shuffled.legal_iff (state action : Ident) :
    action ∈ left.legal state ↔ action ∈ right.legal state :=
  (shuffled.actions state).mem_iff

theorem Model.Shuffled.legalPolicy {policy : Policy} (legal : left.LegalPolicy policy) :
    right.LegalPolicy policy := by
  intro state member
  obtain ⟨action, allowed, chosen⟩ := legal state ((shuffled.states state).mpr member)
  exact ⟨action, (shuffled.legal_iff state action).mp allowed, chosen⟩

theorem Model.Shuffled.legalChoice {choice : Ident → Ident} (legal : left.LegalChoice choice) :
    right.LegalChoice choice := fun state member =>
  (shuffled.legal_iff state _).mp (legal state ((shuffled.states state).mpr member))

end Looks

end Shuffled

variable {F : Type} [Field F] [LinearOrder F] {left right : Model F}
  {utility other : Utility (Extended F)} {policy : Policy} {state action : Ident}

/-! ## Rows and sums -/

theorem Row.Accepted.perm {row reordered : Row F} {admits : Ident → Bool}
    (accepted : row.Accepted admits) (perm : row.entries.Perm reordered.entries) :
    reordered.Accepted admits := by
  have mass : reordered.mass = row.mass := (perm.map Prod.snd).sum_eq.symm
  exact ⟨fun entry listed => accepted.nonneg entry (perm.mem_iff.mpr listed),
    fun entry listed => accepted.known entry (perm.mem_iff.mpr listed), mass ▸ accepted.near⟩

private theorem Model.Shuffled.exists_row (shuffled : left.Shuffled right) {row : Row (Extended F)}
    (run : left.extended.row state action = .ok row) :
    ∃ reordered, right.extended.row state action = .ok reordered ∧
      row.entries.Perm reordered.entries := by
  obtain ⟨found, listed, checked, rfl⟩ := Model.row_extended_eq_ok_iff.mp run
  have counterpart := shuffled.rows (state, action)
  rw [listed] at counterpart
  cases stored : right.rowTable.get? (state, action) with
  | none =>
      rw [stored] at counterpart
      cases counterpart
  | some row =>
      rw [stored] at counterpart
      cases counterpart with
      | some perm =>
          rw [checkRow_extended_iff, shuffled.knows_eq] at checked
          exact ⟨_, Model.row_extended_eq_ok_iff.mpr
            ⟨row, stored, (checkRow_extended_iff _ _ _ _).mpr (checked.perm perm), rfl⟩, perm.map _⟩

theorem Model.Shuffled.accepted (shuffled : left.Shuffled right) (accepted : left.Accepted) :
    right.Accepted := by
  refine Model.accepted_iff.mpr fun state member => ?_
  obtain ⟨active, passes⟩ :=
    Model.accepted_iff.mp accepted state ((shuffled.states state).mpr member)
  refine ⟨fun idle => active (List.Perm.eq_nil (idle ▸ shuffled.actions state)),
    fun action legal => ?_⟩
  obtain ⟨row, run⟩ := passes action ((shuffled.legal_iff state action).mpr legal)
  obtain ⟨reordered, rerun, -⟩ := shuffled.exists_row run
  exact ⟨reordered, rerun⟩

section Sums

variable {model : Model (Extended F)} {entry : Ident × Extended F}
  {entries others rest : List (Ident × Extended F)} {total sum : Extended F}

private theorem Model.accumulate_cons_iff :
    model.accumulate utility state action (entry :: rest) total = .ok sum ↔
      (Scalar.equal entry.2 Scalar.zero = true ∧
        model.accumulate utility state action rest total = .ok sum) ∨
      (¬ Scalar.equal entry.2 Scalar.zero = true ∧
        ∃ later, utility.demand (K := Extended F) entry.1 = .ok later ∧
          model.accumulate utility state action rest (total + entry.2 *
            (model.reward state action entry.1 + model.discount * later)) = .ok sum) := by
  rw [Model.accumulate]
  split
  · next zero => simp only [zero, true_and, not_true_eq_false, false_and, or_false]
  · next nonzero =>
      simp only [nonzero, Bool.false_eq_true, false_and, false_or, not_false_eq_true, true_and,
        bind_eq_ok_iff]

/-- Sums of extended numbers do not depend on the order either. -/
theorem Model.accumulate_perm (perm : entries.Perm others)
    (run : model.accumulate utility state action entries total = .ok sum) :
    model.accumulate utility state action others total = .ok sum := by
  induction perm generalizing total with
  | nil => exact run
  | cons entry _ ih =>
      rw [Model.accumulate_cons_iff] at run ⊢
      rcases run with ⟨zero, run⟩ | ⟨nonzero, later, found, run⟩
      · exact .inl ⟨zero, ih run⟩
      · exact .inr ⟨nonzero, later, found, ih run⟩
  | swap first second rest =>
      simp only [Model.accumulate_cons_iff] at run ⊢
      rcases run with ⟨skipped, run⟩ | ⟨weighed, after, known, run⟩
      · rcases run with ⟨zero, run⟩ | ⟨nonzero, later, found, run⟩
        · exact .inl ⟨zero, .inl ⟨skipped, run⟩⟩
        · exact .inr ⟨nonzero, later, found, .inl ⟨skipped, run⟩⟩
      · rcases run with ⟨zero, run⟩ | ⟨nonzero, later, found, run⟩
        · exact .inl ⟨zero, .inr ⟨weighed, after, known, run⟩⟩
        · rw [Extended.add_swap] at run
          exact .inr ⟨nonzero, later, found, .inr ⟨weighed, after, known, run⟩⟩
  | trans _ _ before after => exact after (before run)

end Sums

/-! ## Evaluations -/

section Evaluations

variable (shuffled : left.Shuffled right)

include shuffled

private theorem Model.Shuffled.accumulate_eq (same : utility.SameMap other)
    (entries : List (Ident × Extended F)) (total : Extended F) :
    left.extended.accumulate utility state action entries total =
      right.extended.accumulate other state action entries total := by
  have reward : left.extended.reward = right.extended.reward := by
    simp only [Model.extended, shuffled.reward]
  have discount : left.extended.discount = right.extended.discount := by
    simp only [Model.extended, shuffled.discount]
  induction entries generalizing total with
  | nil => rfl
  | cons entry rest ih =>
      simp only [Model.accumulate, Table.demand, same entry.1, reward, discount, ih]

theorem Model.Shuffled.result_expectedValue (same : utility.SameMap other) {value : Extended F}
    (run : (left.extended.expectedValue utility state action).result left.extended = .ok value) :
    (right.extended.expectedValue other state action).result right.extended = .ok value := by
  rw [Model.expectedValue, Inquiry.result_bind, Inquiry.result_rowOf] at run ⊢
  obtain ⟨row, found, run⟩ := bind_eq_ok_iff.mp run
  obtain ⟨reordered, refound, perm⟩ := shuffled.exists_row found
  rw [Inquiry.result_liftM, shuffled.accumulate_eq same] at run
  rw [refound, ok_bind, Inquiry.result_liftM]
  exact Model.accumulate_perm perm run

theorem Model.Shuffled.result_actionValue (same : utility.SameMap other) {value : Extended F}
    (run : (left.extended.actionValue utility state action).result left.extended = .ok value) :
    (right.extended.actionValue other state action).result right.extended = .ok value := by
  rw [Model.actionValue, Inquiry.result_bind, Inquiry.result_liftM] at run ⊢
  obtain ⟨actions, listed, run⟩ := bind_eq_ok_iff.mp run
  obtain ⟨rfl, -⟩ := Model.eq_legal_of_actions listed
  split at run
  · next legal =>
      have allowed : action ∈ right.extended.legal state := (shuffled.legal_iff state action).mp legal
      rw [Model.actions_eq_ok (List.ne_nil_of_mem allowed), ok_bind, if_pos allowed]
      exact shuffled.result_expectedValue same run
  · cases run

private theorem Model.Shuffled.exists_policySweeps (count : Nat) (same : utility.SameMap other)
    {after : Utility (Extended F)}
    (run : (left.extended.policySweeps policy count utility).result left.extended = .ok after) :
    ∃ later, (right.extended.policySweeps policy count other).result right.extended = .ok later ∧
      after.SameMap later := by
  induction count generalizing utility other with
  | zero =>
      cases run
      exact ⟨other, rfl, same⟩
  | succ count ih =>
      rw [Model.policySweeps] at run
      obtain ⟨next, swept, run⟩ := Inquiry.result_bind_eq_ok_iff.mp run
      obtain ⟨renext, reswept, again⟩ := exists_tabulate_sameMap shuffled.states
        (fun state _ value computed => by
          rw [Inquiry.result_bind] at computed ⊢
          obtain ⟨chosen, held, computed⟩ := bind_eq_ok_iff.mp computed
          rw [Inquiry.result_liftM] at held ⊢
          exact bind_eq_ok_iff.mpr ⟨chosen, held, shuffled.result_actionValue same computed⟩) swept
      obtain ⟨later, rerun, kept⟩ := ih again run
      refine ⟨later, ?_, kept⟩
      rw [Model.policySweeps, Inquiry.result_bind]
      exact bind_eq_ok_iff.mpr ⟨renext, reswept, rerun⟩

theorem Model.Shuffled.exists_evaluatePolicy {sweeps : Int} {start : Option (Utility (Extended F))}
    {after : Utility (Extended F)}
    (run : (left.extended.evaluatePolicy policy sweeps start).result left.extended = .ok after) :
    ∃ later, (right.extended.evaluatePolicy policy sweeps start).result right.extended = .ok later ∧
      after.SameMap later := by
  obtain ⟨inRange, positive, legal, run⟩ := Model.evaluatePolicy_eq_ok_iff.mp run
  have discount := Model.checkDiscount_extended_iff.mp inRange
  rw [shuffled.discount] at discount
  have relegal : right.extended.LegalPolicy policy := shuffled.legalPolicy legal
  have begins : Table.SameMap (start.getD left.extended.zeroUtility)
      (start.getD right.extended.zeroUtility) := by
    cases start with
    | none => exact .ofKeys shuffled.states _
    | some given => exact fun _ => rfl
  obtain ⟨later, rerun, same⟩ := shuffled.exists_policySweeps _ begins run
  exact ⟨later, Model.evaluatePolicy_eq_ok_iff.mpr
    ⟨Model.checkDiscount_extended_iff.mpr discount, positive, relegal, rerun⟩, same⟩

end Evaluations

/-! ## Exact backups -/

section Backups

variable (shuffled : left.Shuffled right)

include shuffled

omit [LinearOrder F] in
private theorem Model.Shuffled.mean_eq : left.mean = right.mean := by
  funext value state action
  exact ((shuffled.rowAt_perm state action).map _).sum_eq

omit [LinearOrder F] in
theorem Model.Shuffled.backup_eq : left.backup = right.backup := by
  unfold Model.backup
  rw [shuffled.mean_eq, shuffled.reward, shuffled.discount]

omit [LinearOrder F] in
theorem Model.Shuffled.follow_eq : left.follow = right.follow := by
  unfold Model.follow
  rw [shuffled.backup_eq]

private theorem Model.Shuffled.best_le (value : Ident → F) (active : left.legal state ≠ []) :
    left.best value state ≤ right.best value state := by
  have legal := (shuffled.legal_iff state _).mp (Model.greedy_mem value active)
  have below := Model.backup_le_best value legal
  rwa [← shuffled.backup_eq] at below

/-- Ties are decided by the order of actions, but the greatest value is not. -/
theorem Model.Shuffled.best_eq : left.best = right.best := by
  funext value state
  by_cases idle : left.legal state = []
  · have empty : right.legal state = [] := List.Perm.eq_nil (idle ▸ (shuffled.actions state).symm)
    unfold Model.best Model.greedy
    rw [idle, empty, shuffled.backup_eq]
  · have active : right.legal state ≠ [] := fun empty =>
      idle (List.Perm.eq_nil (empty ▸ shuffled.actions state))
    exact le_antisymm (shuffled.best_le value idle) (shuffled.symm.best_le value active)

end Backups

theorem Model.Reordered.greedy_eq (reordered : left.Reordered right) : left.greedy = right.greedy := by
  funext value state
  unfold Model.greedy
  rw [reordered.ties, reordered.toShuffled.backup_eq]

end MarkovDecision
