import MarkovDecision.Model.Validation
import MarkovDecision.Proofs.Exact

/-!
# What validation accepts

With exact numbers validation succeeds exactly on the valid models: the initial state is known, every
state has actions whose rows pass their check, and every terminal state idles. Idling is what the
terminal check looks at, which is less than absorption: the mass of the loop may fall short of one by
the tolerance, and the reward of what leaves the state is not looked at.
-/

set_option autoImplicit false

namespace MarkovDecision

variable {F : Type} [Field F]

/-- The probability of a successor, zero if it is not listed. -/
def Row.probability (row : Row F) (state : Ident) : F := (row.get? state).getD 0

theorem Row.probability_of_mem {row : Row F} {entry : Ident × F} (listed : entry ∈ row.entries) :
    row.probability entry.1 = entry.2 := by
  rw [Row.probability, (row.get?_eq_some_iff entry.1 entry.2).mpr listed, Option.getD_some]

variable [LinearOrder F]

/-- The no-op alone is legal, it stays up to the tolerance, and staying earns nothing. -/
structure Model.Idles (model : Model F) (state : Ident) : Prop where
  legal_eq : model.legal state = [model.noop]
  near : |(model.rowAt state model.noop).probability state - 1| ≤ 1 / 10 ^ 9
  free : model.reward state model.noop state = 0

theorem Row.extended_getD (row : Row F) (state : Ident) :
    (row.extended.get? state).getD Scalar.zero = .finite (row.probability state) := by
  rw [Table.get?_extended, Extended.zero_eq, Row.probability]
  cases row.get? state <;> rfl

structure Model.Valid (model : Model F) : Prop where
  initial : model.initial ∈ model.states
  accepted : model.Accepted
  idles : ∀ state ∈ model.states, model.isTerminal state = true → model.Idles state

instance (model : Model F) (state : Ident) : Decidable (model.Idles state) :=
  decidable_of_iff (model.legal state = [model.noop] ∧
      |(model.rowAt state model.noop).probability state - 1| ≤ 1 / (10 ^ 9 : Nat) ∧
      model.reward state model.noop state = 0)
    ⟨fun ⟨legal_eq, near, free⟩ => ⟨legal_eq, by rwa [Nat.cast_pow] at near, free⟩,
      fun idles => ⟨idles.legal_eq, by rw [Nat.cast_pow]; exact idles.near, idles.free⟩⟩

instance (model : Model F) : Decidable model.Valid :=
  decidable_of_iff (model.initial ∈ model.states ∧ model.Accepted ∧
      ∀ state ∈ model.states, model.isTerminal state = true → model.Idles state)
    ⟨fun ⟨initial, accepted, idles⟩ => ⟨initial, accepted, idles⟩,
      fun valid => ⟨valid.initial, valid.accepted, valid.idles⟩⟩

variable {model : Model F} {state action : Ident}

theorem Model.row_extended_eq_ok_iff {found : Row (Extended F)} :
    model.extended.row state action = .ok found ↔
      ∃ row : Row F, model.rowTable.get? (state, action) = some row ∧
        checkRow row.extended state action model.knows = .ok () ∧ found = row.extended := by
  rw [Model.row, bind_eq_ok_iff]
  cases listed : model.rowTable.get? (state, action) with
  | none => simp [Model.rawRow, Model.extended, listed]
  | some row =>
      have raw : model.extended.rawRow state action = .ok row.extended := by
        simp [Model.rawRow, Model.extended, listed]
      rw [raw]
      constructor
      · rintro ⟨_, same, run⟩
        cases same
        obtain ⟨⟨⟩, checked, run⟩ := bind_eq_ok_iff.mp run
        cases run
        exact ⟨row, rfl, checked, rfl⟩
      · rintro ⟨_, same, checked, rfl⟩
        cases same
        have passed : checkRow row.extended state action model.extended.knows = .ok () := checked
        exact ⟨_, rfl, by rw [passed, ok_bind, pure_eq_ok]⟩

theorem Model.accepted_iff :
    model.Accepted ↔ ∀ state ∈ model.states, model.legal state ≠ [] ∧
      ∀ action ∈ model.legal state, ∃ row, model.extended.row state action = .ok row := by
  constructor
  · intro accepted state member
    exact ⟨accepted.active state member,
      fun action legal => ⟨_, accepted.row_eq_ok member legal⟩⟩
  · intro each
    refine ⟨fun state member => (each state member).1, fun state member action legal => ?_⟩
    obtain ⟨_, run⟩ := (each state member).2 action legal
    obtain ⟨row, listed, checked, -⟩ := Model.row_extended_eq_ok_iff.mp run
    exact ⟨row, listed, checked⟩

/-! ## The checks of a state -/

private theorem Inquiry.result_checks_iff {K : Type} [Scalar K] {model : Model K}
    {refused passed : Bool} {first second : Fault K} :
    (if refused then .fail first else if passed then pure () else .fail second :
        Inquiry K Unit).result model = .ok () ↔ refused = false ∧ passed = true := by
  cases refused <;> cases passed <;> simp

/-- The numbers that the terminal check compares are those of an idle state. -/
theorem Model.stays_iff {row : Row F}
    (listed : model.rowTable.get? (state, model.noop) = some row) :
    (Scalar.below massTolerance
        (Scalar.abs ((row.extended.get? state).getD Scalar.zero - Scalar.one)) = false ∧
      Scalar.equal (model.extended.reward state model.noop state) Scalar.zero = true) ↔
      |(model.rowAt state model.noop).probability state - 1| ≤ 1 / 10 ^ 9 ∧
        model.reward state model.noop state = 0 := by
  have reward : model.extended.reward state model.noop state =
      .finite (model.reward state model.noop state) := rfl
  rw [Model.rowAt_of_get? listed, Row.extended_getD, reward]
  simp only [massTolerance, Extended.decimal_eq, Extended.one_eq, Extended.zero_eq,
    Extended.finite_sub, Extended.abs_finite, Extended.below_finite, Extended.equal_finite,
    decide_eq_true_eq, decide_eq_false_iff_not, not_lt, Nat.cast_one]

private theorem Model.result_checkAbsorbing_iff :
    (model.extended.checkAbsorbing state).result model.extended = .ok () ↔
      model.Idles state ∧ ∃ row, model.extended.row state model.noop = .ok row := by
  have noop : model.extended.noop = model.noop := rfl
  rw [Model.checkAbsorbing, Inquiry.result_bind, Inquiry.result_liftM, noop]
  constructor
  · intro run
    obtain ⟨actions, listed, run⟩ := bind_eq_ok_iff.mp run
    obtain ⟨rfl, -⟩ := Model.eq_legal_of_actions listed
    split at run
    · cases run
    · next single =>
        rw [Inquiry.result_bind, Inquiry.result_rowOf] at run
        obtain ⟨found, looked, run⟩ := bind_eq_ok_iff.mp run
        obtain ⟨row, listed, -, rfl⟩ := Model.row_extended_eq_ok_iff.mp looked
        obtain ⟨near, free⟩ := (Model.stays_iff listed).mp (Inquiry.result_checks_iff.mp run)
        exact ⟨⟨not_not.mp single, near, free⟩, _, looked⟩
  · rintro ⟨idles, found, looked⟩
    obtain ⟨row, listed, -, rfl⟩ := Model.row_extended_eq_ok_iff.mp looked
    have legal : model.extended.legal state = [model.noop] := idles.legal_eq
    have actions : model.extended.actions state = .ok [model.noop] := by
      rw [Model.actions_eq_ok (by rw [legal]; exact List.cons_ne_nil _ _), legal]
    rw [actions, ok_bind, if_neg (not_not.mpr rfl), Inquiry.result_bind, Inquiry.result_rowOf, looked,
      ok_bind]
    exact Inquiry.result_checks_iff.mpr ((Model.stays_iff listed).mpr ⟨idles.near, idles.free⟩)

private theorem Model.result_validateState_iff :
    (model.extended.validateState state).result model.extended = .ok () ↔
      (model.legal state ≠ [] ∧
        ∀ action ∈ model.legal state, ∃ row, model.extended.row state action = .ok row) ∧
      (model.isTerminal state = true → model.Idles state) := by
  have looks : ∀ action, (do
      let _ ← Inquiry.rowOf state action
      pure ⟨⟩ : Inquiry (Extended F) PUnit).result model.extended = .ok ⟨⟩ ↔
        ∃ row, model.extended.row state action = .ok row := by
    intro action
    rw [Inquiry.result_bind, Inquiry.result_rowOf, bind_eq_ok_iff]
    exact ⟨fun ⟨row, found, _⟩ => ⟨row, found⟩, fun ⟨row, found⟩ => ⟨row, found, rfl⟩⟩
  have rows : ∀ actions : List Ident, (actions.forM fun action => (do
      let _ ← Inquiry.rowOf state action
      pure ⟨⟩ : Inquiry (Extended F) PUnit)).result model.extended = .ok ⟨⟩ ↔
        ∀ action ∈ actions, ∃ row, model.extended.row state action = .ok row := by
    intro actions
    rw [Inquiry.result_forM_iff]
    exact forall₂_congr fun action _ => looks action
  rw [Model.validateState, Inquiry.result_bind, Inquiry.result_liftM, bind_eq_ok_iff]
  constructor
  · rintro ⟨actions, listed, run⟩
    obtain ⟨rfl, active⟩ := Model.eq_legal_of_actions listed
    obtain ⟨⟨⟩, looked, run⟩ := Inquiry.result_bind_eq_ok_iff.mp run
    refine ⟨⟨active, (rows _).mp looked⟩, fun terminal => ?_⟩
    have ends : model.extended.isTerminal state = true := terminal
    rw [if_pos ends] at run
    exact (Model.result_checkAbsorbing_iff.mp run).1
  · rintro ⟨⟨active, fine⟩, idles⟩
    refine ⟨_, Model.actions_eq_ok active, ?_⟩
    rw [Inquiry.result_bind]
    refine bind_eq_ok_iff.mpr ⟨⟨⟩, (rows _).mpr fine, ?_⟩
    split
    · next ends =>
        have legal := (idles ends).legal_eq
        exact Model.result_checkAbsorbing_iff.mpr
          ⟨idles ends, fine _ (by rw [legal]; exact List.mem_cons_self)⟩
    · rfl

/-! ## The whole check -/

theorem Model.result_validate_iff :
    model.extended.validate.result model.extended = .ok () ↔ model.Valid := by
  have knows : model.extended.knows model.extended.initial = true ↔ model.initial ∈ model.states :=
    decide_eq_true_iff
  rw [Model.validate]
  constructor
  · intro run
    split at run
    · next known =>
        have each := (Inquiry.result_forM_iff model.extended _ _).mp run
        refine ⟨knows.mp known, Model.accepted_iff.mpr fun state member => ?_,
          fun state member => ?_⟩
        · exact (Model.result_validateState_iff.mp (each state member)).1
        · exact (Model.result_validateState_iff.mp (each state member)).2
    · cases run
  · intro valid
    rw [if_pos (knows.mpr valid.initial)]
    refine (Inquiry.result_forM_iff model.extended _ _).mpr fun state member => ?_
    exact Model.result_validateState_iff.mpr
      ⟨Model.accepted_iff.mp valid.accepted state member, valid.idles state member⟩

/-! ## A small model with a terminal state -/

/-- From the first place one arrives at the second or at the third, which is the end; every arrival
earns one. A place outside the model is listed with probability zero. -/
def trip : Model ℚ where
  states := [.int 0, .int 1, .int 2]
  actionTable := .ofPairs [(.int 0, [.text "go"]), (.int 1, [.text "go"]), (.int 2, [.blank])]
  rowTable := .ofPairs [
    ((.int 0, .text "go"), .ofPairs [(.int 1, 1 / 2), (.int 3, 0), (.int 2, 1 / 2)]),
    ((.int 1, .text "go"), .ofPairs [(.int 2, 1)]),
    ((.int 2, .blank), .ofPairs [(.int 2, 1)])]
  reward state _ _ := if state = .int 2 then 0 else 1
  discount := 1 / 2
  initial := .int 0
  terminals := [.int 2]
  noop := .blank

theorem trip_valid : trip.Valid := by decide +kernel

end MarkovDecision
