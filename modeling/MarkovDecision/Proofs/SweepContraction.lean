import MarkovDecision.Proofs.BellmanAgreement
import MarkovDecision.Proofs.Ready

/-!
# Sweeps are monotone and contract

With exact numbers a sweep keeps the order of utilities, and brings two of them together by the factor of
discount and mass. Over rows of mass one, a constant added to a utility comes back discounted, and since
it adds the same to every action of a state, it changes no greedy choice.
-/

set_option autoImplicit false

namespace MarkovDecision

variable {F : Type}

/-! ## Utilities -/

/-- The utility has numbers for the given states and for nothing else. -/
def Utility.IsOver (utility : Utility F) (states : List Ident) : Prop :=
  ∀ state, state ∈ utility.keys ↔ state ∈ states

/-- In none of the given states the first utility has a greater number than the second. -/
def Utility.AtMost [LE F] (lower upper : Utility F) (states : List Ident) : Prop :=
  ∀ state ∈ states, ∀ low ∈ lower.get? state, ∀ high ∈ upper.get? state, low ≤ high

/-- The utility with a constant added to every number. -/
def Utility.shifted [Add F] (utility : Utility F) (shift : F) : Utility F :=
  utility.mapValues fun _ value => value + shift

theorem Utility.IsOver.covers {utility : Utility F} {states : List Ident}
    (keyed : utility.IsOver states) : Utility.Covers utility states :=
  fun state member => (keyed state).mpr member

private theorem Utility.isOver_ofKeys (states : List Ident) (value : Ident → F) :
    Utility.IsOver (.ofKeys states value) states := fun _ => Table.mem_keys_ofKeys _ _ _

private theorem Utility.shifted_ofKeys [Add F] (states : List Ident) (value : Ident → F)
    (shift : F) :
    Utility.shifted (.ofKeys states value) shift = .ofKeys states fun state => value state + shift := by
  rw [Utility.shifted, Table.ofKeys, Table.mapValues_ofPairs, List.map_map]
  rfl

private theorem Table.ofKeys_congr {Key Value : Type} [DecidableEq Key] {keys : List Key}
    {value other : Key → Value} (same : ∀ key ∈ keys, value key = other key) :
    Table.ofKeys keys value = Table.ofKeys keys other := by
  rw [Table.ofKeys, Table.ofKeys]
  exact congrArg Table.ofPairs (List.map_congr_left fun key listed => by rw [same key listed])

private theorem Model.tabled_eq_extended (model : Model F) (value : Ident → F) :
    model.tabled value = (Table.ofKeys model.states value).extended := by
  rw [Table.extended, Table.ofKeys, Table.mapValues_ofPairs, List.map_map]
  rfl

namespace Utility.Covers

variable [Field F] {utility : Utility F} {states : List Ident}
  (covers : Utility.Covers utility states)

include covers

private theorem get?_eq {state : Ident} (member : state ∈ states) :
    utility.get? state = some (utility.number state) := by
  obtain ⟨value, found⟩ :=
    Option.isSome_iff_exists.mp ((utility.get?_isSome_iff state).mpr (covers state member))
  rw [number, found, Option.getD_some]

theorem reads : Utility.Reads utility.extended states utility.number :=
  Utility.extended_reads fun _ => covers.get?_eq

private theorem reads_shifted (shift : F) :
    Utility.Reads (utility.shifted shift).extended states fun state => utility.number state + shift := by
  apply Utility.extended_reads
  intro state member
  rw [shifted, Table.get?_mapValues, covers.get?_eq member, Option.map_some]

private theorem atMost_iff [LinearOrder F] {upper : Utility F}
    (coversUpper : Utility.Covers upper states) :
    utility.AtMost upper states ↔ ∀ state ∈ states, utility.number state ≤ upper.number state := by
  refine forall₂_congr fun state member => ?_
  rw [covers.get?_eq member, coversUpper.get?_eq member]
  simp

end Utility.Covers

/-! ## Shifts -/

/-- The row of every state and legal action has mass one. -/
def Model.UnitMass [Field F] (model : Model F) : Prop :=
  ∀ state ∈ model.states, ∀ action ∈ model.legal state, (model.rowAt state action).mass = 1

instance [Field F] [DecidableEq F] (model : Model F) : Decidable model.UnitMass :=
  inferInstanceAs (Decidable (∀ _ ∈ _, ∀ _ ∈ _, _))

variable [Field F] [LinearOrder F] [IsStrictOrderedRing F] {model : Model F} {state : Ident}

private theorem leader_shift {score other : Ident → F} {shift : F} {actions : List Ident}
    {incumbent : Ident}
    (shifted : ∀ action ∈ incumbent :: actions, other action = score action + shift) :
    leader other actions incumbent = leader score actions incumbent := by
  induction actions generalizing incumbent with
  | nil => rfl
  | cons action rest ih =>
      obtain ⟨first, second, later⟩ := by simpa using shifted
      rw [leader, leader, first, second]
      simp only [add_lt_add_iff_right]
      split
      · exact ih (List.forall_mem_cons.mpr ⟨second, later⟩)
      · exact ih (List.forall_mem_cons.mpr ⟨first, later⟩)

omit [LinearOrder F] [IsStrictOrderedRing F] in
private theorem Model.backup_shift {action : Ident} (unit : (model.rowAt state action).mass = 1)
    (value : Ident → F) (shift : F) :
    model.backup (fun other => value other + shift) state action =
      model.backup value state action + model.discount * shift := by
  have moved := model.backup_sub_backup state action (fun other => value other + shift) value
  simp only [add_sub_cancel_left, Model.mean_const, unit, one_mul] at moved
  exact eq_add_of_sub_eq' moved

section Shift

variable (unit : model.UnitMass) (member : state ∈ model.states) (value : Ident → F) (shift : F)

include unit member

private theorem Model.greedy_shift :
    model.greedy (fun other => value other + shift) state = model.greedy value state := by
  have units := unit state member
  unfold Model.greedy
  split
  · rfl
  · next first rest listed =>
      rw [listed] at units
      exact leader_shift fun action legal => Model.backup_shift (units action legal) value shift

private theorem Model.best_shift (active : model.legal state ≠ []) :
    model.best (fun other => value other + shift) state =
      model.best value state + model.discount * shift := by
  rw [Model.best, Model.greedy_shift unit member]
  exact Model.backup_shift (unit state member _ (Model.greedy_mem value active)) value shift

end Shift

/-! ## Sweeps -/

variable {left right : Utility F} {mass : F}

section Shifted

variable (accepted : model.Accepted) (unit : model.UnitMass)
  (covers : Utility.Covers left model.states) (shift : F)

include accepted unit covers

private theorem Model.result_sweep_shifted :
    (model.extended.sweep (left.shifted shift).extended).result model.extended =
      .ok (Utility.shifted (.ofKeys model.states (model.best left.number))
        (model.discount * shift)).extended := by
  rw [Model.result_sweep accepted (covers.reads_shifted shift), Utility.shifted_ofKeys,
    ← Model.tabled_eq_extended]
  refine congrArg Except.ok (Table.ofKeys_congr fun state member => ?_)
  rw [Model.best_shift unit member _ shift (accepted.active state member)]

private theorem Model.result_greedyPolicy_shifted :
    (model.extended.greedyPolicy (left.shifted shift).extended).result model.extended =
      .ok (.ofKeys model.states (model.greedy left.number)) := by
  rw [Model.result_greedyPolicy accepted (covers.reads_shifted shift)]
  refine congrArg Except.ok (Table.ofKeys_congr fun state member => ?_)
  exact Model.greedy_shift unit member _ shift

end Shifted

theorem Utility.IsOver.distance_eq (keyed : left.IsOver model.states)
    (covers : Utility.Covers right model.states) :
    Utility.distance left.extended right.extended =
      .ok (.finite (gap model.states left.number right.number)) := by
  refine Utility.Reads.distance_eq (fun state => ?_) keyed.covers.reads covers.reads
  rw [Table.extended, Table.keys_mapValues]
  exact keyed state

section Rates

variable (accepted : model.Accepted) (massive : model.MassAtMost mass) (discount : 0 ≤ model.discount)

include accepted massive discount

theorem Utility.AtMost.sweep (atMost : left.AtMost right model.states)
    (coversLeft : Utility.Covers left model.states)
    (coversRight : Utility.Covers right model.states) :
    Utility.AtMost (.ofKeys model.states (model.best left.number))
      (.ofKeys model.states (model.best right.number)) model.states := by
  intro state member
  have below := (coversLeft.atMost_iff coversRight).mp atMost
  have raised := (accepted.best_contracts massive discount).mono below state member
  simpa [member] using raised

private theorem Model.distance_sweep_le (overLeft : left.IsOver model.states)
    (overRight : right.IsOver model.states) :
    ∃ before after, Utility.distance left.extended right.extended = .ok (.finite before) ∧
      Utility.distance (model.tabled (model.best left.number))
        (model.tabled (model.best right.number)) = .ok (.finite after) ∧
      after ≤ model.discount * mass * before := by
  refine ⟨_, _, overLeft.distance_eq overRight.covers, model.distance_tabled _ _, ?_⟩
  exact (accepted.best_contracts massive discount).gap_le_mul _ _

end Rates

/-- On a model whose rows pass their check and have at most the given mass, the sweeps of two utilities
that cover the states keep their order, and the distance of utilities over the states shrinks at least
by the factor of discount and mass. If the rows have mass one, then a constant that is added to a
utility is added to its sweep with the discount, and the greedy policy stays. -/
theorem Model.sweep_monotone_contraction (accepted : model.Accepted)
    (massive : model.MassAtMost mass) (discount : 0 ≤ model.discount)
    (coversLeft : Utility.Covers left model.states)
    (coversRight : Utility.Covers right model.states) :
    ∃ nextLeft nextRight : Utility F,
      (model.extended.sweep left.extended).result model.extended = .ok nextLeft.extended ∧
      (model.extended.sweep right.extended).result model.extended = .ok nextRight.extended ∧
      (nextLeft.IsOver model.states ∧ nextRight.IsOver model.states) ∧
      (left.AtMost right model.states → nextLeft.AtMost nextRight model.states) ∧
      (left.IsOver model.states → right.IsOver model.states → ∃ before after,
        Utility.distance left.extended right.extended = .ok (.finite before) ∧
        Utility.distance nextLeft.extended nextRight.extended = .ok (.finite after) ∧
        after ≤ model.discount * mass * before) ∧
      (model.UnitMass → ∃ policy,
        (model.extended.greedyPolicy left.extended).result model.extended = .ok policy ∧
        ∀ shift,
          (model.extended.sweep (left.shifted shift).extended).result model.extended =
            .ok (nextLeft.shifted (model.discount * shift)).extended ∧
          (model.extended.greedyPolicy (left.shifted shift).extended).result model.extended =
            .ok policy) := by
  have swept : ∀ {utility : Utility F}, Utility.Covers utility model.states →
      (model.extended.sweep utility.extended).result model.extended =
        .ok (Table.ofKeys model.states (model.best utility.number)).extended := by
    intro utility covers
    rw [Model.result_sweep accepted covers.reads, Model.tabled_eq_extended]
  refine ⟨_, _, swept coversLeft, swept coversRight,
    ⟨Utility.isOver_ofKeys _ _, Utility.isOver_ofKeys _ _⟩, ?_, ?_, ?_⟩
  · intro atMost
    exact Utility.AtMost.sweep accepted massive discount atMost coversLeft coversRight
  · intro overLeft overRight
    simp only [← Model.tabled_eq_extended]
    exact Model.distance_sweep_le accepted massive discount overLeft overRight
  · intro unit
    refine ⟨_, Model.result_greedyPolicy accepted coversLeft.reads, fun shift => ⟨?_, ?_⟩⟩
    · exact Model.result_sweep_shifted accepted unit coversLeft shift
    · exact Model.result_greedyPolicy_shifted accepted unit coversLeft shift

/-- The second place is listed first in one utility and last in the other. -/
theorem Model.sweep_monotone_contraction_outing :
    let left : Utility ℚ := .ofPairs [(.int 1, 1), (.int 0, 0)]
    let right : Utility ℚ := .ofPairs [(.int 0, 1 / 2), (.int 1, 3)]
    ((outing 0).Accepted ∧ (outing 0).MassAtMost 1 ∧ 0 ≤ (outing 0).discount ∧
      Utility.Covers left (outing 0).states ∧ Utility.Covers right (outing 0).states) ∧
    ∃ nextLeft nextRight,
      ((outing 0).extended.sweep left.extended).result (outing 0).extended =
        .ok (Table.extended nextLeft) ∧
      ((outing 0).extended.sweep right.extended).result (outing 0).extended =
        .ok (Table.extended nextRight) ∧
      Utility.AtMost nextLeft nextRight (outing 0).states ∧
      (∃ after, Utility.distance (Table.extended nextLeft) (Table.extended nextRight) =
        .ok (.finite after) ∧ after ≤ 1) ∧
      ((outing 0).extended.sweep (left.shifted 6).extended).result (outing 0).extended =
        .ok (Utility.shifted nextLeft 3).extended := by
  intro left right
  have accepted : (outing 0).Accepted := by decide +kernel
  have massive : (outing 0).MassAtMost 1 := by decide +kernel
  have discount : 0 ≤ (outing 0).discount := by decide +kernel
  have overLeft : left.IsOver (outing 0).states := by
    intro state
    simp [left, outing, or_comm]
  have overRight : right.IsOver (outing 0).states := by
    intro state
    simp [right, outing]
  have atMost : left.AtMost right (outing 0).states := by
    unfold Utility.AtMost
    decide +kernel
  have unit : (outing 0).UnitMass := by decide +kernel
  obtain ⟨nextLeft, nextRight, sweptLeft, sweptRight, -, keeps, shrinks, shifts⟩ :=
    Model.sweep_monotone_contraction accepted massive discount overLeft.covers overRight.covers
  obtain ⟨before, after, apart, near, shrunk⟩ := shrinks overLeft overRight
  obtain ⟨policy, -, shifted⟩ := shifts unit
  rw [overLeft.distance_eq overRight.covers] at apart
  cases apart
  have bound : (outing 0).discount * 1 * gap (outing 0).states left.number right.number = 1 := by
    decide +kernel
  refine ⟨⟨accepted, massive, discount, overLeft.covers, overRight.covers⟩, nextLeft, nextRight,
    sweptLeft, sweptRight, keeps atMost, ⟨after, near, shrunk.trans_eq bound⟩, ?_⟩
  have half : (outing 0).discount * 6 = 3 := by decide +kernel
  exact half ▸ (shifted 6).1

end MarkovDecision
