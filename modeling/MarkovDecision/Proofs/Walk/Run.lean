import MarkovDecision.Proofs.Ready
import MarkovDecision.Simulate.Walk

/-!
# Runs of walks

A walk is described by the steps it makes, apart from the number of steps that it is allowed. The
description determines what the program returns: a walk that reaches a terminal state ends there,
and one that has used up its steps before is cut. On a ready model a walk of a legal policy from a
state of the model always goes on until one of the two happens, and it draws every successor from a
positive entry of the row.
-/

set_option autoImplicit false

namespace MarkovDecision

variable {K : Type} [Scalar K]

/-! ## Draws -/

section Draws

variable {uniform cumulative : K} {entries : List (Ident × K)} {last : Option Ident}
  {row : Row K} {successor : Ident}

private theorem drawFrom_mem (drawn : drawFrom uniform entries cumulative last = some successor) :
    last = some successor ∨
      ∃ entry ∈ entries, entry.1 = successor ∧ Scalar.atMost entry.2 Scalar.zero = false := by
  induction entries generalizing cumulative last with
  | nil => exact Or.inl drawn
  | cons entry rest ih =>
      rw [drawFrom] at drawn
      split at drawn
      · rcases ih drawn with earlier | ⟨found, listed, fine⟩
        · exact Or.inl earlier
        · exact Or.inr ⟨found, List.mem_cons_of_mem _ listed, fine⟩
      · next positive =>
          have here : Scalar.atMost entry.2 Scalar.zero = false := Bool.not_eq_true _ ▸ positive
          dsimp only at drawn
          split at drawn
          · exact Or.inr ⟨entry, List.mem_cons_self, Option.some.inj drawn, here⟩
          · rcases ih drawn with earlier | ⟨found, listed, fine⟩
            · exact Or.inr ⟨entry, List.mem_cons_self, Option.some.inj earlier, here⟩
            · exact Or.inr ⟨found, List.mem_cons_of_mem _ listed, fine⟩

private theorem exists_drawFrom (drawable : last.isSome = true ∨
    ∃ entry ∈ entries, Scalar.atMost entry.2 Scalar.zero = false) :
    ∃ successor, drawFrom uniform entries cumulative last = some successor := by
  induction entries generalizing cumulative last with
  | nil =>
      rcases drawable with earlier | ⟨entry, listed, -⟩
      · exact Option.isSome_iff_exists.mp earlier
      · cases listed
  | cons entry rest ih =>
      rw [drawFrom]
      split
      · next passed =>
          refine ih ?_
          rcases drawable with earlier | ⟨found, listed, fine⟩
          · exact Or.inl earlier
          · rcases List.mem_cons.mp listed with rfl | later
            · rw [passed] at fine
              cases fine
            · exact Or.inr ⟨found, later, fine⟩
      · dsimp only
        split
        · exact ⟨_, rfl⟩
        · exact ih (Or.inl rfl)

theorem Row.draw?_mem (drawn : row.draw? uniform = some successor) :
    ∃ entry ∈ row.entries, entry.1 = successor ∧ Scalar.atMost entry.2 Scalar.zero = false := by
  rcases drawFrom_mem drawn with absent | found
  · cases absent
  · exact found

theorem Row.Usable.exists_draw {states : List Ident} (usable : Row.Usable row states)
    (uniform : K) : ∃ successor ∈ states, row.draw? uniform = some successor := by
  obtain ⟨successor, drawn⟩ := exists_drawFrom (Or.inr usable.exists_drawn)
  obtain ⟨entry, listed, same, positive⟩ := Row.draw?_mem drawn
  exact ⟨successor, same ▸ usable.drawn entry listed positive, drawn⟩

private theorem Row.draw_of_draw? (drawn : row.draw? uniform = some successor) :
    row.draw uniform = successor := by
  rw [Row.draw, drawn, Option.getD_some]

theorem Row.sample_of_draw? {Source : Type} [UniformSource Source K] {source : Source}
    (drawn : row.draw? (UniformSource.uniform source).1 = some successor) :
    row.sample source = (successor, (UniformSource.uniform source).2) := by
  rw [← Row.draw_of_draw? drawn]
  rfl

end Draws

/-! ## Walks by their steps -/

section Walks

variable {Source : Type} [UniformSource Source K]

def Model.stepTo (model : Model K) (state action successor : Ident) : Step K :=
  ⟨state, action, successor, model.reward state action successor⟩

/-- A walk that makes the given steps: none of them starts in a terminal state, each takes the action
of the policy and goes to the successor that the next uniform selects from the row. -/
inductive Model.Walks (model : Model K) (policy : Policy) (keep : Bool) :
    Position K → Source → List (Step K) → Position K → Source → Prop
  | stand (position : Position K) (source : Source) : Walks model policy keep position source []
      position source
  | step {position last : Position K} {source later : Source} {action successor : Ident} {row : Row K}
      {steps : List (Step K)} (running : model.isTerminal position.state = false)
      (chosen : policy.get? position.state = some action)
      (looked : model.row position.state action = .ok row)
      (drawn : row.draw? (UniformSource.uniform source).1 = some successor)
      (rest : Walks model policy keep
        (position.advance model.discount keep (model.stepTo position.state action successor))
        (UniformSource.uniform source).2 steps last later) :
      Walks model policy keep position source (model.stepTo position.state action successor :: steps)
        last later

variable {model : Model K} {policy : Policy} {keep : Bool} {position last : Position K}
  {source later : Source} {steps : List (Step K)} {allowed : Nat}

/-- A walk that may make no more steps, or need not. -/
def Model.Stops (model : Model K) (allowed : Nat) (steps : List (Step K)) (last : Position K) : Prop :=
  steps.length ≤ allowed ∧ (model.isTerminal last.state = true ∨ steps.length = allowed)

omit [Scalar K] in
theorem Model.Stops.cons {step : Step K} (stops : model.Stops allowed steps last) :
    model.Stops (allowed + 1) (step :: steps) last :=
  ⟨Nat.succ_le_succ stops.1, stops.2.imp_right (congrArg Nat.succ)⟩

omit [Scalar K] in
theorem Model.Stops.exists_fewer {step : Step K} (stops : model.Stops allowed (step :: steps) last) :
    ∃ fewer, allowed = fewer + 1 ∧ model.Stops fewer steps last := by
  cases allowed with
  | zero => exact absurd stops.1 (Nat.not_succ_le_zero _)
  | succ fewer =>
      exact ⟨fewer, rfl, Nat.le_of_succ_le_succ stops.1, stops.2.imp_right Nat.succ.inj⟩

def Model.ending (model : Model K) (position : Position K) : WalkEnd K :=
  if model.isTerminal position.state then .absorbed position else .cut position.state

private theorem Model.result_walkFrom_stand
    (stops : model.isTerminal position.state = true ∨ 0 = allowed)
    (source : Source) :
    (model.walkFrom policy keep allowed position source).result model =
      .ok (model.ending position, source) := by
  cases allowed with
  | zero =>
      rw [Model.walkFrom, Model.ending]
      split <;> rfl
  | succ allowed =>
      have terminal := stops.resolve_right (Nat.succ_ne_zero allowed).symm
      rw [Model.walkFrom, Model.ending, if_pos terminal, if_pos terminal]
      rfl

theorem Model.Walks.result_walkFrom
    (walks : model.Walks policy keep position source steps last later)
    (stops : model.Stops allowed steps last) :
    (model.walkFrom policy keep allowed position source).result model =
      .ok (model.ending last, later) := by
  induction walks generalizing allowed with
  | stand position source => exact Model.result_walkFrom_stand stops.2 source
  | step running chosen looked drawn rest ih =>
      obtain ⟨fewer, rfl, fits⟩ := stops.exists_fewer
      rw [Model.walkFrom, if_neg (Bool.not_eq_true _ ▸ running), Inquiry.result_bind,
        Inquiry.result_liftM, Table.demand_eq_ok chosen, ok_bind, Inquiry.result_bind,
        Inquiry.result_rowOf, looked, ok_bind, Row.sample_of_draw? drawn]
      exact ih fits

theorem Model.Walks.result_rollout {start : Ident} {limit : Int}
    (walks : model.Walks policy keep (.start start) source steps last later)
    (stops : model.Stops limit.toNat steps last) (trial : Int) :
    (model.rollout policy start trial limit keep source).result model =
      if model.isTerminal last.state then .ok (last.rollout trial, later)
      else .error (.walkCut trial limit last.state) := by
  rw [Model.rollout, Inquiry.result_bind, Model.walk, walks.result_walkFrom stops, ok_bind,
    Model.ending]
  cases model.isTerminal last.state <;> rfl

theorem Model.Walks.steps_eq
    (walks : model.Walks policy keep position source steps last later) :
    last.steps = position.steps + steps.length := by
  induction walks with
  | stand => rfl
  | step _ _ _ _ _ ih =>
      simp only [ih, Position.advance, List.length_cons]
      omega

theorem Model.Walks.kept_eq
    (walks : model.Walks policy true position source steps last later) :
    last.kept.reverse = position.kept.reverse ++ steps := by
  induction walks with
  | stand => exact (List.append_nil _).symm
  | step _ _ _ _ _ ih =>
      rw [ih, Position.advance, if_pos rfl, List.reverse_cons, List.append_assoc]
      rfl

/-- Walks of the same policy on the same source that stop by the same bound make the same steps. -/
theorem Model.Walks.unique (walks : model.Walks policy keep position source steps last later)
    (stops : model.Stops allowed steps last) {others : List (Step K)} {final : Position K}
    {left : Source} (again : model.Walks policy keep position source others final left)
    (halts : model.Stops allowed others final) : steps = others := by
  induction walks generalizing allowed others with
  | stand position source =>
      cases again with
      | stand => rfl
      | step running =>
          obtain ⟨fewer, rfl, -⟩ := halts.exists_fewer
          have terminal := stops.2.resolve_right (Nat.succ_ne_zero fewer).symm
          exact absurd (terminal.symm.trans running) Bool.noConfusion
  | step running chosen looked drawn rest ih =>
      obtain ⟨fewer, rfl, fits⟩ := stops.exists_fewer
      cases again with
      | stand =>
          have terminal := halts.2.resolve_right (Nat.succ_ne_zero fewer).symm
          exact absurd (terminal.symm.trans running) Bool.noConfusion
      | step _ taken found selected walked =>
          cases chosen.symm.trans taken
          cases looked.symm.trans found
          cases drawn.symm.trans selected
          obtain ⟨_, same, within⟩ := halts.exists_fewer
          cases same
          rw [ih fits walked within]

/-! ## Walks on ready models -/

section Ready

variable (ready : model.Ready) (legal : model.LegalPolicy policy)

include ready legal

theorem Model.Ready.exists_step {state : Ident} (member : state ∈ model.states) (uniform : K) :
    ∃ action row successor, policy.get? state = some action ∧ model.row state action = .ok row ∧
      row.draw? uniform = some successor ∧ successor ∈ model.states := by
  obtain ⟨action, allowed, chosen⟩ := legal state member
  obtain ⟨row, looked, usable⟩ := ready.usable state member action allowed
  obtain ⟨successor, known, drawn⟩ := usable.exists_draw uniform
  exact ⟨action, row, successor, chosen, looked, drawn, known⟩

/-- A walk can always be continued until it stops. -/
theorem Model.Ready.exists_walks (member : position.state ∈ model.states) (allowed : Nat)
    (source : Source) :
    ∃ steps last later, model.Walks policy keep position source steps last later ∧
      model.Stops allowed steps last := by
  induction allowed generalizing position source with
  | zero => exact ⟨[], position, source, .stand position source, Nat.le_refl 0, Or.inr rfl⟩
  | succ allowed ih =>
      cases running : model.isTerminal position.state with
      | true => exact ⟨[], position, source, .stand position source, Nat.zero_le _, Or.inl running⟩
      | false =>
          obtain ⟨action, row, successor, chosen, looked, drawn, known⟩ :=
            ready.exists_step legal member (UniformSource.uniform source).1
          have arrived : (position.advance model.discount keep
              (model.stepTo position.state action successor)).state ∈ model.states := known
          obtain ⟨steps, last, later, walks, stops⟩ := ih arrived (UniformSource.uniform source).2
          exact ⟨_, last, later, .step running chosen looked drawn walks, stops.cons⟩

theorem Model.Walks.mem_states (walks : model.Walks policy keep position source steps last later)
    (member : position.state ∈ model.states) :
    last.state ∈ model.states ∧
      ∀ step ∈ steps, step.state ∈ model.states ∧ step.successor ∈ model.states := by
  induction walks with
  | stand position source => exact ⟨member, fun _ absent => nomatch absent⟩
  | @step position last source later action successor row steps running chosen looked drawn rest ih =>
      -- The step is the one that readiness promises: what it looks up and draws is determined.
      obtain ⟨_, _, _, taken, found, selected, known⟩ :=
        ready.exists_step legal member (UniformSource.uniform source).1
      cases chosen.symm.trans taken
      cases looked.symm.trans found
      cases drawn.symm.trans selected
      obtain ⟨ends, others⟩ := ih known
      exact ⟨ends, List.forall_mem_cons.mpr ⟨⟨member, known⟩, others⟩⟩

end Ready

end Walks

end MarkovDecision
