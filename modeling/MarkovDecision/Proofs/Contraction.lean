import Mathlib.Algebra.Order.Archimedean.Basic
import Mathlib.Algebra.Order.Field.Basic
import Mathlib.Data.Finset.Max
import Mathlib.Tactic.Linarith
import Mathlib.Tactic.Positivity
import Mathlib.Tactic.Ring
import MarkovDecision.Ident

/-!
# Contracting operators on values of states

An operator contracts at a rate if raising the values of the listed states by at most `b` raises the
result by at most `rate * b`. Backups of all kinds are of this form. The module has the distance of
two value functions over a list of states, what repeated application does to it, and the estimates
that turn a small last step into a small distance from a fixed point. Values of states that are not
listed are never looked at.
-/

set_option autoImplicit false

namespace MarkovDecision

variable {F : Type} [Field F] [LinearOrder F] {states : List Ident}

/-! ## Distances -/

/-- The greatest distance of two value functions over listed states, or zero if none is listed. -/
def gap (states : List Ident) (left right : Ident → F) : F :=
  (states.map fun state => |left state - right state|).foldr max 0

section Gap

variable {left right : Ident → F} {bound : F}

theorem gap_nonneg (states : List Ident) (left right : Ident → F) : 0 ≤ gap states left right := by
  unfold gap
  induction states with
  | nil => exact le_rfl
  | cons state rest ih => exact ih.trans (le_max_right _ _)

theorem abs_sub_le_gap {state : Ident} (member : state ∈ states) :
    |left state - right state| ≤ gap states left right := by
  unfold gap
  induction states with
  | nil => simp at member
  | cons first rest ih =>
      rcases List.mem_cons.mp member with rfl | member
      · exact le_max_left _ _
      · exact (ih member).trans (le_max_right _ _)

theorem gap_le (nonneg : 0 ≤ bound)
    (each : ∀ state ∈ states, |left state - right state| ≤ bound) :
    gap states left right ≤ bound := by
  unfold gap
  induction states with
  | nil => exact nonneg
  | cons state rest ih =>
      exact max_le (each state List.mem_cons_self)
        (ih fun other member => each other (List.mem_cons_of_mem _ member))

theorem gap_mono {more : List Ident} (subset : ∀ state ∈ states, state ∈ more) :
    gap states left right ≤ gap more left right :=
  gap_le (gap_nonneg _ _ _) fun state member => abs_sub_le_gap (subset state member)

end Gap

/-! ## One application -/

/-- Raising the values of the listed states by at most a bound raises the result on them by at most
`rate` times the bound. -/
def Contracts (states : List Ident) (rate : F) (operator : (Ident → F) → Ident → F) : Prop :=
  ∀ left right bound, 0 ≤ bound → (∀ state ∈ states, left state - right state ≤ bound) →
    ∀ state ∈ states, operator left state - operator right state ≤ rate * bound

variable [IsStrictOrderedRing F] {rate bound : F} {operator : (Ident → F) → Ident → F}
  {left right : Ident → F}

theorem Contracts.mono (contracts : Contracts states rate operator)
    (below : ∀ state ∈ states, left state ≤ right state) :
    ∀ state ∈ states, operator left state ≤ operator right state := by
  intro state member
  have raised := contracts left right 0 le_rfl
    (fun other listed => sub_nonpos.mpr (below other listed)) state member
  linarith

theorem Contracts.congr (contracts : Contracts states rate operator)
    (same : ∀ state ∈ states, left state = right state) :
    ∀ state ∈ states, operator left state = operator right state := fun state member =>
  le_antisymm (contracts.mono (fun other listed => (same other listed).le) state member)
    (contracts.mono (fun other listed => (same other listed).ge) state member)

theorem Contracts.abs_sub_le_mul (contracts : Contracts states rate operator) (nonneg : 0 ≤ bound)
    (near : ∀ state ∈ states, |left state - right state| ≤ bound) :
    ∀ state ∈ states, |operator left state - operator right state| ≤ rate * bound := by
  intro state member
  rw [abs_sub_le_iff]
  exact ⟨contracts left right bound nonneg
      (fun other listed => (abs_sub_le_iff.mp (near other listed)).1) state member,
    contracts right left bound nonneg
      (fun other listed => (abs_sub_le_iff.mp (near other listed)).2) state member⟩

theorem Contracts.rate_nonneg (contracts : Contracts states rate operator) {state : Ident}
    (member : state ∈ states) : 0 ≤ rate := by
  have raised := contracts 0 0 1 zero_le_one (fun _ _ => by simp) state member
  simpa using raised

theorem Contracts.gap_le_mul (contracts : Contracts states rate operator) (left right : Ident → F) :
    gap states (operator left) (operator right) ≤ rate * gap states left right := by
  cases states with
  | nil => simp [gap]
  | cons state rest =>
      have nonneg : 0 ≤ rate := contracts.rate_nonneg List.mem_cons_self
      exact gap_le (mul_nonneg nonneg (gap_nonneg _ _ _))
        (contracts.abs_sub_le_mul (gap_nonneg _ _ _) fun _ => abs_sub_le_gap)

/-! ## Repeated application -/

theorem Contracts.iterate_sub_le (contracts : Contracts states rate operator) (nonneg : 0 ≤ bound)
    (rate_nonneg : 0 ≤ rate) (near : ∀ state ∈ states, left state - right state ≤ bound)
    (count : Nat) :
    ∀ state ∈ states,
      operator^[count] left state - operator^[count] right state ≤ rate ^ count * bound := by
  induction count with
  | zero => simpa using near
  | succ count ih =>
      have scaled : 0 ≤ rate ^ count * bound := mul_nonneg (pow_nonneg rate_nonneg _) nonneg
      intro state member
      rw [Function.iterate_succ_apply', Function.iterate_succ_apply', pow_succ', mul_assoc]
      exact contracts _ _ _ scaled ih state member

theorem Contracts.abs_iterates_sub_le (contracts : Contracts states rate operator)
    (nonneg : 0 ≤ bound) (rate_nonneg : 0 ≤ rate)
    (near : ∀ state ∈ states, |left state - right state| ≤ bound) (count : Nat) :
    ∀ state ∈ states,
      |operator^[count] left state - operator^[count] right state| ≤ rate ^ count * bound := by
  intro state member
  rw [abs_sub_le_iff]
  constructor
  · exact contracts.iterate_sub_le nonneg rate_nonneg
      (fun other listed => (abs_sub_le_iff.mp (near other listed)).1) count state member
  · exact contracts.iterate_sub_le nonneg rate_nonneg
      (fun other listed => (abs_sub_le_iff.mp (near other listed)).2) count state member

/-- What the next application still moves fades with the number of applications. -/
theorem Contracts.gap_iterate_le (contracts : Contracts states rate operator)
    (rate_nonneg : 0 ≤ rate) (value : Ident → F) (count : Nat) :
    gap states (operator (operator^[count] value)) (operator^[count] value) ≤
      rate ^ count * gap states (operator value) value := by
  induction count with
  | zero => simp
  | succ count ih =>
      rw [Function.iterate_succ_apply']
      calc gap states (operator (operator (operator^[count] value))) (operator (operator^[count] value))
          ≤ rate * gap states (operator (operator^[count] value)) (operator^[count] value) :=
            contracts.gap_le_mul _ _
        _ ≤ rate * (rate ^ count * gap states (operator value) value) :=
            mul_le_mul_of_nonneg_left ih rate_nonneg
        _ = rate ^ (count + 1) * gap states (operator value) value := by ring

/-- If one application moves no listed state by more than `(1 - rate) * bound`, then no number of
them moves one by more than the bound. -/
theorem Contracts.abs_iterate_sub_self_le (contracts : Contracts states rate operator)
    (nonneg : 0 ≤ bound)
    (small : ∀ state ∈ states, |operator left state - left state| ≤ (1 - rate) * bound)
    (count : Nat) : ∀ state ∈ states, |operator^[count] left state - left state| ≤ bound := by
  induction count with
  | zero => simpa using fun _ _ => nonneg
  | succ count ih =>
      intro state member
      have again : |operator^[count + 1] left state - operator left state| ≤ rate * bound := by
        rw [Function.iterate_succ_apply']
        exact contracts.abs_sub_le_mul nonneg ih state member
      calc |operator^[count + 1] left state - left state|
          ≤ |operator^[count + 1] left state - operator left state| +
              |operator left state - left state| := abs_sub_le _ _ _
        _ ≤ rate * bound + (1 - rate) * bound := add_le_add again (small state member)
        _ = bound := by ring

/-- Values each of which is within a slack of one application to those before stay near the iterates:
the slacks fade with the rate and add up to a geometric sum. -/
theorem Contracts.abs_sub_iterate_le (contracts : Contracts states rate operator)
    (rate_nonneg : 0 ≤ rate) (below : rate < 1) {slack : F} (nonneg : 0 ≤ slack)
    {path : Nat → Ident → F} (start : ∀ state ∈ states, path 0 state = left state)
    (near : ∀ count, ∀ state ∈ states, |path (count + 1) state - operator (path count) state| ≤ slack)
    (count : Nat) : ∀ state ∈ states,
      |path count state - operator^[count] left state| ≤ slack * (1 - rate ^ count) / (1 - rate) := by
  have room : 0 < 1 - rate := sub_pos.mpr below
  induction count with
  | zero =>
      intro state member
      simp [start state member]
  | succ count ih =>
      intro state member
      have fading : 0 ≤ 1 - rate ^ count := sub_nonneg.mpr (pow_le_one₀ rate_nonneg below.le)
      have bound_nonneg : 0 ≤ slack * (1 - rate ^ count) / (1 - rate) :=
        div_nonneg (mul_nonneg nonneg fading) room.le
      have carried := contracts.abs_sub_le_mul bound_nonneg ih state member
      rw [Function.iterate_succ_apply']
      calc |path (count + 1) state - operator (operator^[count] left) state|
          ≤ |path (count + 1) state - operator (path count) state| +
              |operator (path count) state - operator (operator^[count] left) state| :=
            abs_sub_le _ _ _
        _ ≤ slack + rate * (slack * (1 - rate ^ count) / (1 - rate)) :=
            add_le_add (near count state member) carried
        _ = slack * (1 - rate ^ (count + 1)) / (1 - rate) := by
            field_simp
            ring

theorem exists_pow_mul_lt [Archimedean F] {tolerance : F} (rate_nonneg : 0 ≤ rate) (below : rate < 1)
    (nonneg : 0 ≤ bound) (positive : 0 < tolerance) :
    ∃ enough, ∀ count, enough ≤ count → rate ^ count * bound < tolerance := by
  have room : 0 < bound + 1 := by linarith
  obtain ⟨enough, small⟩ := exists_pow_lt_of_lt_one (div_pos positive room) below
  refine ⟨enough, fun count later => ?_⟩
  calc rate ^ count * bound
      ≤ rate ^ enough * (bound + 1) :=
        mul_le_mul (pow_le_pow_of_le_one rate_nonneg below.le later) (le_add_of_nonneg_right zero_le_one)
          nonneg (pow_nonneg rate_nonneg _)
    _ < tolerance := (lt_div_iff₀ room).mp small

/-! ## Fixed points -/

/-- A function that is bounded by `slack + rate * b` wherever it is bounded by `b` is bounded by
`slack / (1 - rate)`. Only bounds that are attained matter, so none has to be known beforehand. -/
theorem le_of_self_bound {value : Ident → F} {slack : F} (below : rate < 1)
    (step : ∀ bound, (∀ state ∈ states, value state ≤ bound) →
      ∀ state ∈ states, value state ≤ slack + rate * bound) :
    ∀ state ∈ states, value state ≤ slack / (1 - rate) := by
  intro state member
  obtain ⟨top, listed, highest⟩ :=
    states.toFinset.exists_max_image value ⟨state, List.mem_toFinset.mpr member⟩
  have bounded : ∀ other ∈ states, value other ≤ value top := fun other known =>
    highest other (List.mem_toFinset.mpr known)
  have attained := step (value top) bounded top (List.mem_toFinset.mp listed)
  have limit : value top ≤ slack / (1 - rate) := by
    rw [le_div_iff₀ (sub_pos.mpr below)]
    linarith
  exact (bounded state member).trans limit

/-- If applying the operator to both loses no more than a slack of their difference, then one exceeds
the other by no more than `slack / (1 - rate)`. -/
theorem Contracts.sub_le (contracts : Contracts states rate operator) (below : rate < 1) {slack : F}
    (nonneg : 0 ≤ slack)
    (step : ∀ state ∈ states,
      left state - right state ≤ slack + (operator left state - operator right state)) :
    ∀ state ∈ states, left state - right state ≤ slack / (1 - rate) := by
  -- Contraction is known for bounds that are not negative, so the difference is cut off at zero.
  let cut := fun state => max (left state - right state) 0
  have low : ∀ state ∈ states, cut state ≤ slack / (1 - rate) := by
    apply le_of_self_bound below
    intro bound near state member
    have bound_nonneg : 0 ≤ bound := (le_max_right _ _).trans (near state member)
    have applied := contracts left right bound bound_nonneg
      (fun other listed => (le_max_left _ _).trans (near other listed)) state member
    have scaled := mul_nonneg (contracts.rate_nonneg member) bound_nonneg
    exact max_le (by linarith [step state member]) (by linarith)
  exact fun state member => (le_max_left _ _).trans (low state member)

/-- What does not exceed its image does not exceed any fixed point. -/
theorem Contracts.le_fixed (contracts : Contracts states rate operator) (below : rate < 1)
    (rises : ∀ state ∈ states, left state ≤ operator left state)
    (stays : ∀ state ∈ states, operator right state = right state) :
    ∀ state ∈ states, left state ≤ right state := by
  intro state member
  have close : left state - right state ≤ 0 / (1 - rate) :=
    contracts.sub_le below le_rfl
      (fun other listed => by linarith [rises other listed, stays other listed]) state member
  rwa [zero_div, sub_nonpos] at close

/-- Two functions whose difference an application keeps are equal, two fixed points for example. -/
theorem Contracts.eq_of_sub_eq (contracts : Contracts states rate operator) (below : rate < 1)
    (kept : ∀ state ∈ states, operator left state - operator right state = left state - right state) :
    ∀ state ∈ states, left state = right state := by
  intro state member
  have down : left state - right state ≤ 0 / (1 - rate) :=
    contracts.sub_le below le_rfl (fun other listed => by linarith [kept other listed]) state member
  have up : right state - left state ≤ 0 / (1 - rate) :=
    contracts.sub_le below le_rfl (fun other listed => by linarith [kept other listed]) state member
  rw [zero_div] at down up
  linarith

/-- If one application moves no listed state by more than `(1 - rate) * bound`, then a fixed point is
within the bound. -/
theorem Contracts.abs_fixed_sub_le (contracts : Contracts states rate operator) (below : rate < 1)
    (nonneg : 0 ≤ bound)
    (small : ∀ state ∈ states, |operator left state - left state| ≤ (1 - rate) * bound)
    (stays : ∀ state ∈ states, operator right state = right state) :
    ∀ state ∈ states, |right state - left state| ≤ bound := by
  have room : 0 < 1 - rate := sub_pos.mpr below
  have slack : 0 ≤ (1 - rate) * bound := mul_nonneg room.le nonneg
  have moves : ∀ state ∈ states, operator left state - left state ≤ (1 - rate) * bound ∧
      left state - operator left state ≤ (1 - rate) * bound :=
    fun state member => abs_sub_le_iff.mp (small state member)
  intro state member
  rw [abs_sub_le_iff, ← mul_div_cancel_left₀ bound room.ne']
  constructor
  · exact contracts.sub_le below slack
      (fun other listed => by linarith [stays other listed, (moves other listed).1]) state member
  · exact contracts.sub_le below slack
      (fun other listed => by linarith [stays other listed, (moves other listed).2]) state member

theorem Contracts.fixed_sub_le_gap (contracts : Contracts states rate operator) (below : rate < 1)
    (stays : ∀ state ∈ states, operator right state = right state) :
    ∀ state ∈ states, |right state - left state| ≤ gap states (operator left) left / (1 - rate) := by
  have room : 0 < 1 - rate := sub_pos.mpr below
  refine contracts.abs_fixed_sub_le below (div_nonneg (gap_nonneg _ _ _) room.le) ?_ stays
  intro state member
  rw [mul_div_cancel₀ _ room.ne']
  exact abs_sub_le_gap member

theorem Contracts.iterate_fixed (contracts : Contracts states rate operator)
    (stays : ∀ state ∈ states, operator left state = left state) (count : Nat) :
    ∀ state ∈ states, operator^[count] left state = left state := by
  induction count with
  | zero => exact fun _ _ => rfl
  | succ count ih =>
      intro state member
      rw [Function.iterate_succ_apply']
      exact (contracts.congr ih state member).trans (stays state member)

theorem Contracts.abs_iterate_sub_le (contracts : Contracts states rate operator)
    (rate_nonneg : 0 ≤ rate) (nonneg : 0 ≤ bound)
    (stays : ∀ state ∈ states, operator right state = right state)
    (near : ∀ state ∈ states, |left state - right state| ≤ bound) (count : Nat) :
    ∀ state ∈ states, |operator^[count] left state - right state| ≤ rate ^ count * bound := by
  induction count with
  | zero => simpa using near
  | succ count ih =>
      intro state member
      have scaled : 0 ≤ rate ^ count * bound := mul_nonneg (pow_nonneg rate_nonneg _) nonneg
      rw [Function.iterate_succ_apply', ← stays state member, pow_succ', mul_assoc]
      exact contracts.abs_sub_le_mul scaled ih state member

/-- After an application that moves no listed state by more than `move`, every fixed point is within
`rate * move / (1 - rate)`. -/
theorem Contracts.near_fixed (contracts : Contracts states rate operator) (below : rate < 1)
    {move : F} {fixed : Ident → F}
    (small : ∀ state ∈ states, |operator left state - left state| ≤ move)
    (stays : ∀ state ∈ states, operator fixed state = fixed state) :
    ∀ state ∈ states, |operator left state - fixed state| ≤ rate * move / (1 - rate) := by
  apply le_of_self_bound below
  intro bound near state member
  have nonneg : 0 ≤ move + bound :=
    add_nonneg ((abs_nonneg _).trans (small state member)) ((abs_nonneg _).trans (near state member))
  have start : ∀ other ∈ states, |left other - fixed other| ≤ move + bound := by
    intro other listed
    calc |left other - fixed other|
        ≤ |left other - operator left other| + |operator left other - fixed other| :=
          abs_sub_le _ _ _
      _ ≤ move + bound := by
          rw [abs_sub_comm (left other)]
          exact add_le_add (small other listed) (near other listed)
  have next := contracts.abs_sub_le_mul nonneg start state member
  rw [stays state member] at next
  linarith

end MarkovDecision
