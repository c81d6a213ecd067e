import Mathlib.LinearAlgebra.FiniteDimensional.Basic
import MarkovDecision.Proofs.Backup

/-!
# Exact values

Over stochastic rows, with a discount below one, the backups of a legal choice have a fixed point,
because a linear map that loses nothing is onto. Of the finitely many legal choices one has the
greatest values, and these are a fixed point of the optimal backups. Nothing is assumed about the
field but its order, so no limit is taken.
-/

set_option autoImplicit false

namespace MarkovDecision

/-! ## The choices of a model -/

/-- All ways to take an option in each of some states; the blank action is taken elsewhere. -/
def choicesFrom (options : Ident → List Ident) : List Ident → List (Ident → Ident)
  | [] => [fun _ => .blank]
  | state :: rest => (choicesFrom options rest).flatMap fun choice =>
    (options state).map fun action => Function.update choice state action

theorem choicesFrom_mem {options : Ident → List Ident} {states : List Ident}
    {choice : Ident → Ident} (listed : choice ∈ choicesFrom options states) :
    ∀ state ∈ states, choice state ∈ options state := by
  induction states generalizing choice with
  | nil => simp
  | cons first rest ih =>
      simp only [choicesFrom, List.mem_flatMap, List.mem_map] at listed
      obtain ⟨earlier, member, action, option, rfl⟩ := listed
      intro state found
      by_cases here : state = first
      · subst here
        simpa using option
      · have later := (List.mem_cons.mp found).resolve_left here
        simpa [here] using ih member state later

/-- Every choice of options agrees on the states with one that is listed. -/
theorem exists_mem_choicesFrom {options : Ident → List Ident} {states : List Ident}
    {choice : Ident → Ident} (legal : ∀ state ∈ states, choice state ∈ options state) :
    ∃ listed ∈ choicesFrom options states, ∀ state ∈ states, listed state = choice state := by
  induction states with
  | nil => exact ⟨fun _ => .blank, by simp [choicesFrom], by simp⟩
  | cons first rest ih =>
      obtain ⟨earlier, member, same⟩ := ih fun state listed =>
        legal state (List.mem_cons_of_mem _ listed)
      refine ⟨Function.update earlier first (choice first), ?_, fun state found => ?_⟩
      · simp only [choicesFrom, List.mem_flatMap, List.mem_map]
        exact ⟨earlier, member, choice first, legal first List.mem_cons_self, rfl⟩
      · by_cases here : state = first
        · subst here
          simp
        · simpa [here] using same state ((List.mem_cons.mp found).resolve_left here)

/-- The legal choices of a model, up to what they do elsewhere. -/
def Model.choices {K : Type} (model : Model K) : List (Ident → Ident) :=
  choicesFrom model.legal model.states

variable {F : Type} [Field F]

/-! ## Functions of listed states -/

/-- A function of listed states, with zero elsewhere. -/
def spread {states : List Ident} (value : {state // state ∈ states} → F) (state : Ident) : F :=
  if member : state ∈ states then value ⟨state, member⟩ else 0

@[simp] theorem spread_apply {states : List Ident} (value : {state // state ∈ states} → F)
    (state : {state // state ∈ states}) : spread value state = value state :=
  dif_pos state.2

private theorem spread_add {states : List Ident} (left right : {state // state ∈ states} → F) :
    spread (left + right) = spread left + spread right := by
  funext state
  simp only [spread, Pi.add_apply]
  split <;> simp

private theorem spread_smul {states : List Ident} (factor : F)
    (value : {state // state ∈ states} → F) :
    spread (factor • value) = fun state => factor * spread value state := by
  funext state
  simp only [spread, Pi.smul_apply, smul_eq_mul]
  split <;> simp

/-- What is left of values when the discounted mean of their successors is taken off. -/
def Model.residue (model : Model F) (choice : Ident → Ident) :
    ({state // state ∈ model.states} → F) →ₗ[F] ({state // state ∈ model.states} → F) where
  toFun value state :=
    value state - model.discount * model.mean (spread value) state (choice state)
  map_add' left right := by
    funext state
    simp only [spread_add, Model.mean_add, Pi.add_apply]
    ring
  map_smul' factor value := by
    funext state
    simp only [spread_smul, Model.mean_scale, Pi.smul_apply, smul_eq_mul, RingHom.id_apply]
    ring

private theorem Model.residue_apply (model : Model F) (choice : Ident → Ident)
    (value : {state // state ∈ model.states} → F) (state : {state // state ∈ model.states}) :
    model.residue choice value state =
      value state - (model.follow choice (spread value) state - model.follow choice 0 state) := by
  rw [Model.follow, Model.follow, Model.backup_sub_backup]
  simp [Model.residue]

variable [LinearOrder F] {model : Model F} {choice : Ident → Ident}
  {value : Ident → F} {rate : F}

/-! ## Bounds -/

/-- A bound that values keep which start from zero and are backed up at a rate of contraction,
whichever legal actions are taken. -/
structure Model.Ceiling (model : Model F) (rate ceiling : F) : Prop where
  nonneg : 0 ≤ ceiling
  reward_le : ∀ state ∈ model.states, ∀ action ∈ model.legal state,
    |model.backup 0 state action| ≤ (1 - rate) * ceiling

variable [IsStrictOrderedRing F]

theorem Model.exists_ceiling (model : Model F) (below : rate < 1) :
    ∃ ceiling, model.Ceiling rate ceiling := by
  have room : 0 < 1 - rate := sub_pos.mpr below
  let rewards := model.states.flatMap fun state =>
    (model.legal state).map fun action => |model.backup 0 state action|
  obtain ⟨top, highest⟩ := rewards.toFinset.exists_le
  refine ⟨max top 0 / (1 - rate), div_nonneg (le_max_right _ _) room.le, ?_⟩
  intro state member action legal
  rw [mul_div_cancel₀ _ room.ne']
  refine (highest _ ?_).trans (le_max_left _ _)
  simp only [rewards, List.mem_toFinset, List.mem_flatMap, List.mem_map]
  exact ⟨state, member, action, legal, rfl⟩

section Ceiling

variable {ceiling : F} (capped : model.Ceiling rate ceiling) (legal : model.LegalChoice choice)
  (contracts : Contracts model.states rate (model.follow choice))

include capped legal contracts

private theorem Model.Ceiling.abs_follow_le {bound : F} (nonneg : 0 ≤ bound)
    (bounded : ∀ state ∈ model.states, |value state| ≤ bound) :
    ∀ state ∈ model.states,
      |model.follow choice value state| ≤ (1 - rate) * ceiling + rate * bound := by
  intro state member
  have raised : |model.follow choice value state - model.follow choice 0 state| ≤ rate * bound :=
    contracts.abs_sub_le_mul nonneg (by simpa using bounded) state member
  have reward : |model.follow choice 0 state| ≤ (1 - rate) * ceiling :=
    capped.reward_le state member _ (legal state member)
  calc |model.follow choice value state|
      ≤ |model.follow choice value state - model.follow choice 0 state| +
          |model.follow choice 0 state| := by
        simpa using abs_sub_le (model.follow choice value state) (model.follow choice 0 state) 0
    _ ≤ (1 - rate) * ceiling + rate * bound := by linarith

theorem Model.Ceiling.abs_iterate_le (bounded : ∀ state ∈ model.states, |value state| ≤ ceiling)
    (count : Nat) :
    ∀ state ∈ model.states, |(model.follow choice)^[count] value state| ≤ ceiling := by
  induction count with
  | zero => exact bounded
  | succ count ih =>
      intro state member
      rw [Function.iterate_succ_apply']
      have kept := capped.abs_follow_le legal contracts capped.nonneg ih state member
      linarith

private theorem Model.Ceiling.abs_fixed_le (below : rate < 1)
    (stays : ∀ state ∈ model.states, model.follow choice value state = value state) :
    ∀ state ∈ model.states, |value state| ≤ ceiling := by
  have room : 0 < 1 - rate := sub_pos.mpr below
  have limit : (1 - rate) * ceiling / (1 - rate) = ceiling := mul_div_cancel_left₀ _ room.ne'
  rw [← limit]
  apply le_of_self_bound below
  intro bound near state member
  have kept := capped.abs_follow_le legal contracts ((abs_nonneg _).trans (near state member)) near
    state member
  rwa [stays state member] at kept

/-- Backups from values under the ceiling approach the fixed point, wherever this lies. -/
theorem Model.Ceiling.abs_iterate_sub_fixed_le (rate_nonneg : 0 ≤ rate) (below : rate < 1)
    (bounded : ∀ state ∈ model.states, |value state| ≤ ceiling) {exact : Ident → F}
    (stays : ∀ state ∈ model.states, model.follow choice exact state = exact state) (count : Nat) :
    ∀ state ∈ model.states, |(model.follow choice)^[count] value state - exact state| ≤
      rate ^ count * (ceiling + ceiling) := by
  refine contracts.abs_iterate_sub_le rate_nonneg (add_nonneg capped.nonneg capped.nonneg) stays
    (fun state member => ?_) count
  exact (abs_sub _ _).trans (add_le_add (bounded state member)
    (capped.abs_fixed_le legal contracts below stays state member))

end Ceiling

/-! ## Values of a choice -/

theorem Model.exists_follow_eq (contracts : Contracts model.states rate (model.follow choice))
    (below : rate < 1) :
    ∃ value, ∀ state ∈ model.states, model.follow choice value state = value state := by
  have faithful : Function.Injective (model.residue choice) := by
    rw [injective_iff_map_eq_zero]
    intro value vanishes
    have kept : ∀ state ∈ model.states,
        model.follow choice (spread value) state - model.follow choice 0 state =
          spread value state - (0 : Ident → F) state := by
      intro state member
      have gone := congrFun vanishes ⟨state, member⟩
      rw [Model.residue_apply, Pi.zero_apply, sub_eq_zero] at gone
      rw [← gone, Pi.zero_apply, sub_zero, ← spread_apply value ⟨state, member⟩]
    funext state
    rw [← spread_apply value state]
    exact contracts.eq_of_sub_eq below kept state state.2
  obtain ⟨value, solves⟩ := LinearMap.injective_iff_surjective.mp faithful
    fun state => model.follow choice 0 state
  refine ⟨spread value, fun state member => ?_⟩
  have here := congrFun solves ⟨state, member⟩
  rw [Model.residue_apply, ← spread_apply value] at here
  linarith

/-! ## Optimal values -/

/-- Taking greedy actions leads at least to the values of the first greedy backup. -/
theorem Model.best_le_fixed (contracts : Contracts model.states rate (model.follow choice))
    (below : rate < 1) (greedy : ∀ state ∈ model.states, choice state = model.greedy value state)
    (rises : ∀ state ∈ model.states, value state ≤ model.best value state) {exact : Ident → F}
    (stays : ∀ state ∈ model.states, model.follow choice exact state = exact state) :
    ∀ state ∈ model.states, model.best value state ≤ exact state := by
  have follows : ∀ state ∈ model.states,
      model.follow choice value state = model.best value state :=
    fun state member => Model.follow_eq_best (greedy state member)
  have under : ∀ state ∈ model.states, value state ≤ exact state := by
    refine contracts.le_fixed below (fun state member => ?_) stays
    rw [follows state member]
    exact rises state member
  intro state member
  rw [← follows state member, ← stays state member]
  exact contracts.mono under state member

/-- Of the fixed points of all legal choices, the one with the greatest sum of values is a fixed
point of the optimal backups: greedy actions would lower no value, so they raise none. -/
theorem Model.exists_best_eq (active : ∀ state ∈ model.states, model.legal state ≠ [])
    (contracts : ∀ choice, model.LegalChoice choice →
      Contracts model.states rate (model.follow choice)) (below : rate < 1) :
    ∃ value, ∀ state ∈ model.states, model.best value state = value state := by
  classical
  have solved : ∀ choice ∈ model.choices,
      ∃ value, ∀ state ∈ model.states, model.follow choice value state = value state :=
    fun choice listed =>
      Model.exists_follow_eq (contracts choice (choicesFrom_mem listed)) below
  choose! exact stays using solved
  have greedy : ∀ value, ∃ choice ∈ model.choices, ∀ state ∈ model.states,
      choice state = model.greedy value state := fun value =>
    exists_mem_choicesFrom fun state member => Model.greedy_mem value (active state member)
  obtain ⟨choice, listed, -⟩ := greedy 0
  obtain ⟨top, chosen, greatest⟩ := model.choices.toFinset.exists_max_image
    (fun choice => ∑ state ∈ model.states.toFinset, exact choice state)
    ⟨choice, List.mem_toFinset.mpr listed⟩
  rw [List.mem_toFinset] at chosen
  have rises : ∀ state ∈ model.states, exact top state ≤ model.best (exact top) state :=
    fun state member => (stays top chosen state member).ge.trans
      (Model.backup_le_best _ (choicesFrom_mem chosen state member))
  obtain ⟨next, member, same⟩ := greedy (exact top)
  have reached := Model.best_le_fixed (contracts next (choicesFrom_mem member)) below same rises
    (stays next member)
  refine ⟨exact top, fun state known => le_antisymm ?_ (rises state known)⟩
  by_contra higher
  have better : ∑ state ∈ model.states.toFinset, exact top state <
      ∑ state ∈ model.states.toFinset, exact next state := by
    apply Finset.sum_lt_sum
    · intro other found
      have listed := List.mem_toFinset.mp found
      exact (rises other listed).trans (reached other listed)
    · exact ⟨state, List.mem_toFinset.mpr known, (not_le.mp higher).trans_le (reached state known)⟩
  exact absurd (greatest next (List.mem_toFinset.mpr member)) (not_le.mpr better)

end MarkovDecision
