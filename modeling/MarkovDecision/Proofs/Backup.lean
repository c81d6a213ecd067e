import Mathlib.Algebra.BigOperators.Ring.List
import MarkovDecision.Proofs.Contraction
import MarkovDecision.Proofs.Exact

/-!
# Exact backups

Backups as functions of exact values of states: the mean over a row, the value of an action, the
greedy action and its value, and the value of the action that a choice function takes. On a model
whose rows pass their check, optimal backups and the backups of a legal choice contract at the rate
of discount times mass.
-/

set_option autoImplicit false

namespace MarkovDecision

variable {F : Type}

/-! ## Leading actions -/

section Leading

variable [LinearOrder F] (score : Ident → F)

/-- The first of greatest score among an incumbent and the actions after it. -/
def leader : List Ident → Ident → Ident
  | [], incumbent => incumbent
  | action :: rest, incumbent =>
    leader rest (if score incumbent < score action then action else incumbent)

/-- The first of greatest score: what comes before it scores less, and what comes after it no more. -/
def FirstGreatest (actions : List Ident) (chosen : Ident) : Prop :=
  ∃ before after, actions = before ++ chosen :: after ∧
    (∀ action ∈ before, score action < score chosen) ∧ ∀ action ∈ after, score action ≤ score chosen

namespace FirstGreatest

variable {score : Ident → F} {actions : List Ident} {incumbent action chosen : Ident}

theorem mem (first : FirstGreatest score actions chosen) : chosen ∈ actions := by
  obtain ⟨before, after, rfl, -, -⟩ := first
  simp

theorem le (first : FirstGreatest score actions chosen) (member : action ∈ actions) :
    score action ≤ score chosen := by
  obtain ⟨before, after, rfl, less, noMore⟩ := first
  rcases List.mem_append.mp member with earlier | member
  · exact (less action earlier).le
  · rcases List.mem_cons.mp member with rfl | later
    · exact le_rfl
    · exact noMore action later

private theorem cons_of_lt (first : FirstGreatest score actions chosen)
    (less : score incumbent < score chosen) :
    FirstGreatest score (incumbent :: actions) chosen := by
  obtain ⟨before, after, rfl, lower, noMore⟩ := first
  exact ⟨incumbent :: before, after, rfl, List.forall_mem_cons.mpr ⟨less, lower⟩, noMore⟩

private theorem insert_of_le (first : FirstGreatest score (incumbent :: actions) chosen)
    (noMore : score action ≤ score incumbent) :
    FirstGreatest score (incumbent :: action :: actions) chosen := by
  obtain ⟨before, after, listed, less, later⟩ := first
  cases before with
  | nil =>
      cases listed
      exact ⟨[], action :: actions, rfl, by simp, List.forall_mem_cons.mpr ⟨noMore, later⟩⟩
  | cons head before =>
      cases listed
      obtain ⟨here, others⟩ := List.forall_mem_cons.mp less
      refine ⟨incumbent :: action :: before, after, rfl, ?_, later⟩
      simpa using ⟨here, noMore.trans_lt here, others⟩

end FirstGreatest

private theorem leader_firstGreatest (actions : List Ident) (incumbent : Ident) :
    FirstGreatest score (incumbent :: actions) (leader score actions incumbent) := by
  induction actions generalizing incumbent with
  | nil => exact ⟨[], [], rfl, by simp, by simp⟩
  | cons action rest ih =>
      rw [leader]
      split
      · next better =>
          have led := ih action
          exact led.cons_of_lt (better.trans_le (led.le List.mem_cons_self))
      · next worse => exact (ih incumbent).insert_of_le (not_lt.mp worse)

end Leading

variable [Field F]

/-! ## Means and action values -/

def Model.mean (model : Model F) (value : Ident → F) (state action : Ident) : F :=
  ((model.rowAt state action).entries.map fun entry => entry.2 * value entry.1).sum

/-- The expected reward and discounted value of an action. -/
def Model.backup (model : Model F) (value : Ident → F) (state action : Ident) : F :=
  model.mean (fun successor => model.reward state action successor + model.discount * value successor)
    state action

/-- The value of the action that a choice takes. -/
def Model.follow (model : Model F) (choice : Ident → Ident) (value : Ident → F) (state : Ident) : F :=
  model.backup value state (choice state)

theorem Model.follow_congr {model : Model F} {choice other : Ident → Ident} {state : Ident}
    (same : choice state = other state) (value : Ident → F) :
    model.follow choice value state = model.follow other value state := by
  rw [Model.follow, Model.follow, same]

section Sums

variable (model : Model F) (state action : Ident)

private theorem Model.mean_sub (left right : Ident → F) :
    model.mean left state action - model.mean right state action =
      model.mean (fun successor => left successor - right successor) state action := by
  unfold Model.mean
  induction (model.rowAt state action).entries with
  | nil => simp
  | cons entry rest ih =>
      simp only [List.map_cons, List.sum_cons]
      rw [← ih]
      ring

theorem Model.mean_add (left right : Ident → F) :
    model.mean (left + right) state action =
      model.mean left state action + model.mean right state action := by
  have split := model.mean_sub state action (left + right) right
  simp only [Pi.add_apply, add_sub_cancel_right] at split
  exact eq_add_of_sub_eq split

theorem Model.mean_scale (factor : F) (value : Ident → F) :
    model.mean (fun successor => factor * value successor) state action =
      factor * model.mean value state action := by
  unfold Model.mean
  rw [← List.sum_map_mul_left]
  congr 2
  funext entry
  ring

theorem Model.mean_const (value : F) :
    model.mean (fun _ => value) state action = (model.rowAt state action).mass * value := by
  rw [Model.mean, Row.mass, List.sum_map_mul_right]

theorem Model.mean_congr {left right : Ident → F}
    (same : ∀ entry ∈ (model.rowAt state action).entries, entry.2 ≠ 0 →
      left entry.1 = right entry.1) :
    model.mean left state action = model.mean right state action := by
  refine congrArg List.sum (List.map_congr_left fun entry listed => ?_)
  by_cases zero : entry.2 = 0
  · rw [zero, zero_mul, zero_mul]
  · rw [same entry listed zero]

theorem Model.backup_sub_backup (left right : Ident → F) :
    model.backup left state action - model.backup right state action =
      model.discount *
        model.mean (fun successor => left successor - right successor) state action := by
  unfold Model.backup
  rw [Model.mean_sub, ← Model.mean_scale]
  congr 1
  funext successor
  ring

end Sums

variable [LinearOrder F]

/-! ## Greedy actions -/

/-- The first legal action of greatest value; the blank action if there is none. -/
def Model.greedy (model : Model F) (value : Ident → F) (state : Ident) : Ident :=
  match model.legal state with
  | [] => .blank
  | first :: rest => leader (model.backup value state) rest first

def Model.best (model : Model F) (value : Ident → F) (state : Ident) : F :=
  model.backup value state (model.greedy value state)

variable {model : Model F} {state action : Ident}

theorem Model.follow_eq_best {choice : Ident → Ident} {value : Ident → F}
    (greedy : choice state = model.greedy value state) :
    model.follow choice value state = model.best value state := by
  rw [Model.follow, greedy, Model.best]

theorem Model.greedy_firstGreatest (value : Ident → F) (active : model.legal state ≠ []) :
    FirstGreatest (model.backup value state) (model.legal state) (model.greedy value state) := by
  unfold Model.greedy
  split
  · next idle => exact absurd idle active
  · next first rest listed =>
      rw [listed]
      exact leader_firstGreatest _ rest first

theorem Model.greedy_mem (value : Ident → F) (active : model.legal state ≠ []) :
    model.greedy value state ∈ model.legal state :=
  (Model.greedy_firstGreatest value active).mem

theorem Model.backup_le_best (value : Ident → F) (legal : action ∈ model.legal state) :
    model.backup value state action ≤ model.best value state :=
  (Model.greedy_firstGreatest value (List.ne_nil_of_mem legal)).le legal

/-! ## Rates of contraction -/

variable [IsStrictOrderedRing F]

/-- Only successors of positive probability count. -/
theorem Model.mean_mono {left right : Ident → F}
    (nonneg : ∀ entry ∈ (model.rowAt state action).entries, 0 ≤ entry.2)
    (below : ∀ entry ∈ (model.rowAt state action).entries, 0 < entry.2 →
      left entry.1 ≤ right entry.1) :
    model.mean left state action ≤ model.mean right state action := by
  refine List.sum_le_sum fun entry listed => ?_
  rcases (nonneg entry listed).eq_or_lt with zero | positive
  · simp [← zero]
  · exact mul_le_mul_of_nonneg_left (below entry listed positive) positive.le

theorem Model.abs_mean_le_mean {value cap : Ident → F}
    (nonneg : ∀ entry ∈ (model.rowAt state action).entries, 0 ≤ entry.2)
    (small : ∀ entry ∈ (model.rowAt state action).entries, 0 < entry.2 →
      |value entry.1| ≤ cap entry.1) :
    |model.mean value state action| ≤ model.mean cap state action := by
  have above := Model.mean_mono nonneg fun entry listed positive =>
    (abs_le.mp (small entry listed positive)).2
  have below : model.mean (fun successor => -1 * cap successor) state action ≤
      model.mean value state action := Model.mean_mono nonneg fun entry listed positive => by
    rw [neg_one_mul]
    exact (abs_le.mp (small entry listed positive)).1
  rw [Model.mean_scale, neg_one_mul] at below
  exact abs_le.mpr ⟨below, above⟩

/-- Successors of probability zero need not be listed and need no bound. -/
theorem Model.mean_le_mass_mul (accepted : (model.rowAt state action).Accepted model.knows)
    {value : Ident → F} {bound : F} (below : ∀ other ∈ model.states, value other ≤ bound) :
    model.mean value state action ≤ (model.rowAt state action).mass * bound := by
  rw [← Model.mean_const]
  exact Model.mean_mono accepted.nonneg fun entry listed positive =>
    below _ (accepted.mem_states listed positive.ne')

/-- Values raised by at most a bound, which may be negative, raise the value of an action by at most
the bound times discount and mass. -/
theorem Model.backup_sub_le_mass_mul (accepted : (model.rowAt state action).Accepted model.knows)
    (discount : 0 ≤ model.discount) {left right : Ident → F} {bound : F}
    (raised : ∀ other ∈ model.states, left other - right other ≤ bound) :
    model.backup left state action - model.backup right state action ≤
      model.discount * ((model.rowAt state action).mass * bound) := by
  rw [Model.backup_sub_backup]
  exact mul_le_mul_of_nonneg_left (Model.mean_le_mass_mul accepted raised) discount

/-- Over stochastic rows the mass drops out, for negative bounds too. -/
theorem Model.Stochastic.backup_sub_le (stochastic : model.Stochastic)
    (discount : 0 ≤ model.discount) (member : state ∈ model.states)
    (legal : action ∈ model.legal state) {left right : Ident → F} {bound : F}
    (raised : ∀ other ∈ model.states, left other - right other ≤ bound) :
    model.backup left state action - model.backup right state action ≤ model.discount * bound := by
  have row := stochastic.row member legal
  have step := Model.backup_sub_le_mass_mul row.accepted discount raised
  rwa [row.mass_eq, one_mul] at step

section Rates

variable {mass : F} (accepted : model.Accepted) (massive : model.MassAtMost mass)
  (discount : 0 ≤ model.discount)

include accepted massive discount

theorem Model.Accepted.backup_sub_le (member : state ∈ model.states)
    (legal : action ∈ model.legal state) {left right : Ident → F} {bound : F} (nonneg : 0 ≤ bound)
    (raised : ∀ other ∈ model.states, left other - right other ≤ bound) :
    model.backup left state action - model.backup right state action ≤
      model.discount * mass * bound := by
  rw [mul_assoc]
  refine (Model.backup_sub_le_mass_mul (accepted.row member legal) discount raised).trans ?_
  exact mul_le_mul_of_nonneg_left
    (mul_le_mul_of_nonneg_right (massive state member action legal) nonneg) discount

/-- Optimal backups contract: the greedy action for the greater values is one of the actions for the
smaller ones. -/
theorem Model.Accepted.best_contracts :
    Contracts model.states (model.discount * mass) model.best := by
  intro left right bound nonneg raised state member
  have legal := Model.greedy_mem left (accepted.active state member)
  have step := accepted.backup_sub_le massive discount member legal nonneg raised
  have chosen := Model.backup_le_best right legal
  have split : model.best left state = model.backup left state (model.greedy left state) := rfl
  linarith

end Rates

theorem Model.Stochastic.follow_contracts (stochastic : model.Stochastic)
    (discount : 0 ≤ model.discount) {choice : Ident → Ident} (legal : model.LegalChoice choice) :
    Contracts model.states model.discount (model.follow choice) :=
  fun _ _ _ _ raised state member =>
    stochastic.backup_sub_le discount member (legal state member) raised

theorem Model.Stochastic.best_contracts (stochastic : model.Stochastic)
    (active : ∀ state ∈ model.states, model.legal state ≠ []) (discount : 0 ≤ model.discount) :
    Contracts model.states model.discount model.best := by
  have contracts := (stochastic.accepted active).best_contracts stochastic.massAtMost discount
  rwa [mul_one] at contracts

end MarkovDecision
