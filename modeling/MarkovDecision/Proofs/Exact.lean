import Mathlib.Algebra.Order.BigOperators.Group.List
import Mathlib.Algebra.BigOperators.Ring.List
import Mathlib.Tactic.Linarith
import MarkovDecision.Proofs.Extended
import MarkovDecision.Proofs.RowCheck

/-!
# Models with exact numbers

A model over an ordered field runs as a model over the extended numbers. This module says which of
its rows pass their check, and what a model promises whose rows all pass it or are even exactly
stochastic.
-/

set_option autoImplicit false

namespace MarkovDecision

/-! ## Legal actions -/

section Legal

variable {K : Type} {model : Model K} {state : Ident}

/-- The actions listed for a state, which may be none. -/
def Model.legal (model : Model K) (state : Ident) : List Ident :=
  (model.actionTable.get? state).getD []

def Model.LegalChoice (model : Model K) (choice : Ident → Ident) : Prop :=
  ∀ state ∈ model.states, choice state ∈ model.legal state

theorem Model.actions_eq_ok (active : model.legal state ≠ []) :
    model.actions state = .ok (model.legal state) := by
  unfold Model.actions Model.legal at *
  cases found : model.actionTable.get? state with
  | none => simp [found] at active
  | some listed =>
      cases listed with
      | nil => simp [found] at active
      | cons first rest => rfl

theorem Model.eq_legal_of_actions {actions : List Ident} (run : model.actions state = .ok actions) :
    actions = model.legal state ∧ model.legal state ≠ [] := by
  unfold Model.actions at run
  unfold Model.legal
  split at run
  · next first rest found =>
      cases run
      simp [found]
  · cases run

end Legal

variable {F : Type}

/-! ## Reading numbers as extended numbers -/

def Table.extended {Key : Type} (table : Table Key F) : Table Key (Extended F) :=
  table.mapValues fun _ value => .finite value

@[simp] theorem Table.get?_extended {Key : Type} [DecidableEq Key] (table : Table Key F)
    (key : Key) : table.extended.get? key = (table.get? key).map .finite :=
  table.get?_mapValues _ key

theorem Table.contains_extended {Key : Type} [DecidableEq Key] (table : Table Key F) (key : Key) :
    table.extended.contains key = table.contains key := by
  rw [Table.contains, Table.contains, Table.get?_extended, Option.isSome_map]

/-- The model with its numbers read as extended numbers. -/
def Model.extended (model : Model F) : Model (Extended F) where
  states := model.states
  actionTable := model.actionTable
  rowTable := model.rowTable.mapValues fun _ row => row.extended
  reward state action successor := .finite (model.reward state action successor)
  discount := .finite model.discount
  initial := model.initial
  terminals := model.terminals
  noop := model.noop

@[simp] theorem Model.states_extended (model : Model F) : model.extended.states = model.states := rfl

/-- The row of a state and an action; a missing row is empty. -/
def Model.rowAt (model : Model F) (state action : Ident) : Row F :=
  (model.rowTable.get? (state, action)).getD .empty

theorem Model.rowAt_of_get? {model : Model F} {state action : Ident} {row : Row F}
    (found : model.rowTable.get? (state, action) = some row) : model.rowAt state action = row := by
  simp [Model.rowAt, found]

variable [Field F] [LinearOrder F]

def Row.mass (row : Row F) : F := (row.entries.map Prod.snd).sum

/-! ## Rows that pass their check -/

/-- A row without negative entries, whose positive entries are on admitted successors, and whose
mass is within the tolerance of one. -/
structure Row.Accepted (row : Row F) (admits : Ident → Bool) : Prop where
  nonneg : ∀ entry ∈ row.entries, 0 ≤ entry.2
  known : ∀ entry ∈ row.entries, 0 < entry.2 → admits entry.1 = true
  near : |row.mass - 1| ≤ 1 / 10 ^ 9

/-- A row without negative entries, whose positive entries are on listed states, and whose mass is
one. -/
structure Row.Stochastic (row : Row F) (states : List Ident) : Prop where
  nonneg : ∀ entry ∈ row.entries, 0 ≤ entry.2
  known : ∀ entry ∈ row.entries, 0 < entry.2 → entry.1 ∈ states
  mass_eq : row.mass = 1

theorem Row.total_extended (row : Row F) : Row.total row.extended = .finite row.mass := by
  have values : row.extended.values = (row.entries.map Prod.snd).map Extended.finite := by
    simp [Table.values, Table.extended, Table.mapValues, Function.comp_def]
  rw [Row.total, values, Extended.zero_eq, Extended.foldl_add_finite, zero_add, Row.mass]

theorem Row.total_near_iff (row : Row F) :
    Scalar.below massTolerance (Scalar.abs (Row.total row.extended - Scalar.one)) = false ↔
      |row.mass - 1| ≤ 1 / 10 ^ 9 := by
  simp [Row.total_extended, massTolerance]

theorem checkRow_extended_iff (row : Row F) (state action : Ident) (admits : Ident → Bool) :
    checkRow row.extended state action admits = .ok () ↔ row.Accepted admits := by
  have entries : row.extended.entries = row.entries.map fun entry => (entry.1, .finite entry.2) :=
    rfl
  rw [checkRow_eq_ok_iff, row.total_near_iff, entries, List.forall_mem_map]
  simp only [Extended.zero_eq, Extended.below_finite, decide_eq_false_iff_not, not_lt,
    decide_eq_true_eq]
  constructor
  · rintro ⟨good, near⟩
    exact ⟨fun entry member => (good entry member).1, fun entry member => (good entry member).2, near⟩
  · rintro ⟨nonneg, known, near⟩
    exact ⟨fun entry member => ⟨nonneg entry member, known entry member⟩, near⟩

instance (row : Row F) (admits : Ident → Bool) : Decidable (row.Accepted admits) :=
  decidable_of_iff ((∀ entry ∈ row.entries, 0 ≤ entry.2) ∧
      (∀ entry ∈ row.entries, 0 < entry.2 → admits entry.1 = true) ∧ |row.mass - 1| ≤ 1 / 10 ^ 9)
    ⟨fun ⟨nonneg, known, near⟩ => ⟨nonneg, known, near⟩,
      fun fine => ⟨fine.nonneg, fine.known, fine.near⟩⟩

instance (row : Row F) (states : List Ident) : Decidable (row.Stochastic states) :=
  decidable_of_iff ((∀ entry ∈ row.entries, 0 ≤ entry.2) ∧
      (∀ entry ∈ row.entries, 0 < entry.2 → entry.1 ∈ states) ∧ row.mass = 1)
    ⟨fun ⟨nonneg, known, mass_eq⟩ => ⟨nonneg, known, mass_eq⟩,
      fun fine => ⟨fine.nonneg, fine.known, fine.mass_eq⟩⟩

/-! ## Promises of a model -/

/-- Every state has actions, and the row of every state and legal action passes its check. -/
structure Model.Accepted (model : Model F) : Prop where
  active : ∀ state ∈ model.states, model.legal state ≠ []
  passes : ∀ state ∈ model.states, ∀ action ∈ model.legal state, ∃ row : Row F,
    model.rowTable.get? (state, action) = some row ∧
      checkRow row.extended state action model.knows = .ok ()

def Model.MassAtMost (model : Model F) (mass : F) : Prop :=
  ∀ state ∈ model.states, ∀ action ∈ model.legal state, (model.rowAt state action).mass ≤ mass

/-- The row of every state and legal action is stochastic over the states. States without actions
are not excluded. -/
def Model.Stochastic (model : Model F) : Prop :=
  ∀ state ∈ model.states, ∀ action ∈ model.legal state, ∃ row : Row F,
    model.rowTable.get? (state, action) = some row ∧ row.Stochastic model.states

instance (model : Model F) (mass : F) : Decidable (model.MassAtMost mass) :=
  inferInstanceAs (Decidable (∀ _ ∈ _, ∀ _ ∈ _, _))

instance (model : Model F) : Decidable model.Stochastic :=
  inferInstanceAs (Decidable (∀ state ∈ model.states, ∀ action ∈ model.legal state,
    ∃ row ∈ model.rowTable.get? (state, action), Row.Stochastic row model.states))

instance (model : Model F) : Decidable model.Accepted :=
  decidable_of_iff ((∀ state ∈ model.states, model.legal state ≠ []) ∧
      ∀ state ∈ model.states, ∀ action ∈ model.legal state,
        ∃ row ∈ model.rowTable.get? (state, action), Row.Accepted row model.knows)
    ⟨fun ⟨active, passes⟩ => ⟨active, fun state member action legal =>
        (passes state member action legal).imp fun row fine =>
          ⟨fine.1, (checkRow_extended_iff row state action _).mpr fine.2⟩⟩,
      fun accepted => ⟨accepted.active, fun state member action legal =>
        (accepted.passes state member action legal).imp fun row fine =>
          ⟨fine.1, (checkRow_extended_iff row state action _).mp fine.2⟩⟩⟩

variable {model : Model F} {state action : Ident}

theorem Row.Accepted.mem_states {row : Row F} (accepted : row.Accepted model.knows)
    {entry : Ident × F} (listed : entry ∈ row.entries) (nonzero : entry.2 ≠ 0) :
    entry.1 ∈ model.states :=
  of_decide_eq_true
    (accepted.known entry listed ((accepted.nonneg entry listed).lt_of_ne' nonzero))

theorem Model.Accepted.row (accepted : model.Accepted) (member : state ∈ model.states)
    (legal : action ∈ model.legal state) : (model.rowAt state action).Accepted model.knows := by
  obtain ⟨row, found, passed⟩ := accepted.passes state member action legal
  rw [Model.rowAt_of_get? found]
  exact (checkRow_extended_iff row state action _).mp passed

theorem Model.Accepted.row_eq_ok (accepted : model.Accepted) (member : state ∈ model.states)
    (legal : action ∈ model.legal state) :
    model.extended.row state action = .ok (model.rowAt state action).extended := by
  obtain ⟨row, found, passed⟩ := accepted.passes state member action legal
  have raw : model.extended.rawRow state action = .ok row.extended := by
    simp [Model.rawRow, Model.extended, found]
  have check : checkRow row.extended state action model.extended.knows = .ok () := passed
  rw [Model.rowAt_of_get? found, Model.row, raw, ok_bind, check, ok_bind, pure_eq_ok]

theorem Model.Accepted.actions_eq_ok (accepted : model.Accepted) (member : state ∈ model.states) :
    model.extended.actions state = .ok (model.legal state) :=
  Model.actions_eq_ok (accepted.active state member)

theorem Model.checkDiscount_extended_iff :
    model.extended.checkDiscount = .ok () ↔ 0 ≤ model.discount ∧ model.discount < 1 := by
  simp only [Model.checkDiscount, Model.extended, Extended.zero_eq, Extended.one_eq,
    Extended.atMost_finite, Extended.below_finite, Bool.and_eq_true, decide_eq_true_eq]
  split <;> simp_all

theorem Model.Stochastic.row (stochastic : model.Stochastic) (member : state ∈ model.states)
    (legal : action ∈ model.legal state) :
    (model.rowAt state action).Stochastic model.states := by
  obtain ⟨row, found, fine⟩ := stochastic state member action legal
  rwa [Model.rowAt_of_get? found]

theorem Model.Stochastic.massAtMost (stochastic : model.Stochastic) : model.MassAtMost 1 :=
  fun _ member _ legal => (stochastic.row member legal).mass_eq.le

variable [IsStrictOrderedRing F]

theorem Row.Stochastic.accepted {row : Row F} (fine : row.Stochastic model.states) :
    row.Accepted model.knows := by
  refine ⟨fine.nonneg, fun entry listed positive => ?_, ?_⟩
  · exact decide_eq_true (fine.known entry listed positive)
  · rw [fine.mass_eq, sub_self, abs_zero]
    positivity

theorem Row.stochastic_sure {states : List Ident} {target : Ident} (member : target ∈ states) :
    Row.Stochastic (.ofPairs [(target, (1 : F))]) states := by
  have entries : (Table.ofPairs [(target, (1 : F))]).entries = [(target, 1)] := rfl
  constructor <;> simp [Row.mass, entries, member]

theorem Model.Stochastic.accepted (stochastic : model.Stochastic)
    (active : ∀ state ∈ model.states, model.legal state ≠ []) : model.Accepted := by
  refine ⟨active, fun state member action legal => ?_⟩
  obtain ⟨row, found, fine⟩ := stochastic state member action legal
  exact ⟨row, found, (checkRow_extended_iff row state action _).mpr fine.accepted⟩

/-! ## A small model -/

/-- Two places, the second of which earns one for every arrival. In the first it is possible to stay
or to set off, which succeeds half of the time; the excess is added to the probability of success. -/
def outing (excess : ℚ) : Model ℚ where
  states := [.int 0, .int 1]
  actionTable := .ofPairs [(.int 0, [.text "stay", .text "set off"]), (.int 1, [.text "stay"])]
  rowTable := .ofPairs [((.int 0, .text "stay"), .ofPairs [(.int 0, 1)]),
    ((.int 0, .text "set off"), .ofPairs [(.int 0, 1 / 2), (.int 1, 1 / 2 + excess)]),
    ((.int 1, .text "stay"), .ofPairs [(.int 1, 1)])]
  reward _ _ successor := if successor = .int 1 then 1 else 0
  discount := 1 / 2
  initial := .int 0
  terminals := []
  noop := .blank

theorem outing_stochastic : (outing 0).Stochastic := by decide +kernel

end MarkovDecision
