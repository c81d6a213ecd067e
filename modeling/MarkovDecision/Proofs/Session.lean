import Mathlib.Data.List.Basic
import MarkovDecision.Proofs.RowCheck

/-!
# Sessions

In a session several models are in use, each with its own memory of the rows that have passed their
check. A request lets one of them answer an inquiry, which may be a single look-up, a validation, a
run of a solver or a walk. A replacement adds a model that shares the actions and rows of another one
and starts with an empty memory. The plain session has no memories and checks a row whenever it is
asked for. The main statement says that the two cannot be told apart, not even by a single look-up
inside a request, and that a memory holds exactly the pairs that its model has looked up with success.
-/

set_option autoImplicit false

namespace MarkovDecision

variable {K : Type}

/-! ## Replaced models -/

/-- What a replacement changes. Actions and rows are not among it. -/
structure Changes (K : Type) where
  states : Option (List Ident)
  reward : Option (Ident → Ident → Ident → K)
  discount : Option K
  initial : Option Ident
  terminals : Option (List Ident)
  noop : Option Ident

def Model.replace (model : Model K) (changes : Changes K) : Model K :=
  { model with
    states := changes.states.getD model.states
    reward := changes.reward.getD model.reward
    discount := changes.discount.getD model.discount
    initial := changes.initial.getD model.initial
    terminals := changes.terminals.getD model.terminals
    noop := changes.noop.getD model.noop }

/-! ## Look-ups -/

/-- A row that was asked for, and what came back. -/
structure Look (K : Type) where
  state : Ident
  action : Ident
  found : Except (Fault K) (Row K)

/-- The look-up gave a row for the pair of a state and an action. -/
def Look.Answers (look : Look K) (pair : Ident × Ident) : Prop :=
  (look.state, look.action) = pair ∧ ∃ row, look.found = .ok row

variable [Scalar K] {Answer : Type}

namespace Inquiry

/-- The look-ups that an inquiry makes when every row is checked each time it is asked for. -/
def looks (model : Model K) : Inquiry K Answer → List (Look K)
  | .done _ | .fail _ => []
  | .ask state action next =>
    match model.row state action with
    | .ok row => ⟨state, action, .ok row⟩ :: looks model (next row)
    | .error fault => [⟨state, action, .error fault⟩]
  | .note _ next => looks model (next ())

/-- The look-ups that an inquiry makes when the rows that have passed are remembered. -/
def resumedLooks (model : Model K) (checked : Checked) : Inquiry K Answer → List (Look K)
  | .done _ | .fail _ => []
  | .ask state action next =>
    match memoizedRow model checked state action with
    | .ok (row, known) => ⟨state, action, .ok row⟩ :: resumedLooks model known (next row)
    | .error fault => [⟨state, action, .error fault⟩]
  | .note _ next => resumedLooks model checked (next ())

variable {model : Model K}

private theorem resumedLooks_eq_looks {checked : Checked} (sound : checked.Sound model)
    (inquiry : Inquiry K Answer) : inquiry.resumedLooks model checked = inquiry.looks model := by
  induction inquiry generalizing checked with
  | done answer => rfl
  | fail fault => rfl
  | ask state action next ih =>
      rcases memoizedRow_of_sound sound state action with
        ⟨row, known, remembered, fresh, kept⟩ | ⟨fault, remembered, fresh⟩
      · simp only [resumedLooks, looks, remembered, fresh, ih row kept]
      · simp only [resumedLooks, looks, remembered, fresh]
  | note event next ih => exact ih () sound

/-- A look-up that succeeds leaves its pair in the memory and nothing else. -/
private theorem contains_of_memoizedRow {checked known : Checked} {state action : Ident}
    {row : Row K}
    (run : memoizedRow model checked state action = .ok (row, known)) (pair : Ident × Ident) :
    known.contains pair = true ↔ checked.contains pair = true ∨ (state, action) = pair := by
  unfold memoizedRow at run
  obtain ⟨found, -, run⟩ := bind_eq_ok_iff.mp run
  split at run
  · next present =>
      cases run
      constructor
      · exact .inl
      · rintro (earlier | rfl)
        · exact earlier
        · exact present
  · obtain ⟨_, -, run⟩ := bind_eq_ok_iff.mp run
    cases run
    rw [Std.HashSet.contains_insert, Bool.or_eq_true, beq_iff_eq, or_comm]

private theorem contains_resume (model : Model K) (checked : Checked) (inquiry : Inquiry K Answer)
    (pair : Ident × Ident) :
    (inquiry.resume model checked).2.contains pair = true ↔ checked.contains pair = true ∨
      ∃ look ∈ inquiry.resumedLooks model checked, look.Answers pair := by
  induction inquiry generalizing checked with
  | done answer => simp [resume, resumedLooks]
  | fail fault => simp [resume, resumedLooks]
  | ask state action next ih =>
      cases run : memoizedRow model checked state action with
      | error fault => simp [resume, resumedLooks, run, Look.Answers]
      | ok found =>
          obtain ⟨row, known⟩ := found
          have here : (⟨state, action, .ok row⟩ : Look K).Answers pair ↔ (state, action) = pair :=
            and_iff_left ⟨row, rfl⟩
          simp only [resume, resumedLooks, run]
          rw [ih, contains_of_memoizedRow run, List.exists_mem_cons_iff, here, or_assoc]
  | note event next ih => exact ih () checked

end Inquiry

/-! ## Sessions with and without memories -/

/-- A model in use, with the rows that have passed their check. -/
structure Held (K : Type) where
  model : Model K
  checked : Inquiry.Checked

abbrev Session (K : Type) := List (Held K)

/-- What can be done in a session: ask the model at a place, or replace it by adding another one. -/
inductive Command (K : Type) : Type 1 where
  | request (place : Nat) (Answer : Type) (inquiry : Model K → Inquiry K Answer)
  | replace (place : Nat) (changes : Changes K)

/-- What the model at a place replied to a request, and the look-ups that it made. -/
structure Reply (K : Type) : Type 1 where
  place : Nat
  Answer : Type
  outcome : Inquiry.Outcome K Answer
  looks : List (Look K)

/-- Carry out a command. A command for a place without a model does nothing. -/
def Session.step (session : Session K) : Command K → Session K × Option (Reply K)
  | .request place Answer inquiry =>
    match session[place]? with
    | none => (session, none)
    | some ⟨model, checked⟩ =>
      let (outcome, known) := (inquiry model).resume model checked
      (session.set place ⟨model, known⟩,
        some ⟨place, Answer, outcome, (inquiry model).resumedLooks model checked⟩)
  | .replace place changes =>
    match session[place]? with
    | none => (session, none)
    | some held => (session ++ [⟨held.model.replace changes, ∅⟩], none)

/-- Carry out a command without memories. -/
def plainStep (models : List (Model K)) : Command K → List (Model K) × Option (Reply K)
  | .request place Answer inquiry =>
    match models[place]? with
    | none => (models, none)
    | some model =>
      (models, some ⟨place, Answer, (inquiry model).answer model, (inquiry model).looks model⟩)
  | .replace place changes =>
    match models[place]? with
    | none => (models, none)
    | some model => (models ++ [model.replace changes], none)

/-- Carry out commands in turn and collect the replies. -/
def Session.run (session : Session K) : List (Command K) → Session K × List (Reply K)
  | [] => (session, [])
  | command :: rest =>
    let (next, reply) := session.step command
    let (last, replies) := Session.run next rest
    (last, reply.toList ++ replies)

def plainRun (models : List (Model K)) : List (Command K) → List (Model K) × List (Reply K)
  | [] => (models, [])
  | command :: rest =>
    let (next, reply) := plainStep models command
    let (last, replies) := plainRun next rest
    (last, reply.toList ++ replies)

def Session.models (session : Session K) : List (Model K) := session.map Held.model

def Session.Sound (session : Session K) : Prop := ∀ held ∈ session, held.checked.Sound held.model

/-- The model at a place remembers the pair of a state and an action. -/
def Session.Remembers (session : Session K) (place : Nat) (pair : Ident × Ident) : Prop :=
  ∃ held, session[place]? = some held ∧ held.checked.contains pair = true

/-- The model at a place has looked up the pair with success. -/
def Reply.Answers (reply : Reply K) (place : Nat) (pair : Ident × Ident) : Prop :=
  reply.place = place ∧ ∃ look ∈ reply.looks, look.Answers pair

variable {session : Session K}

/-! ## One command -/

omit [Scalar K] in
private theorem Session.models_getElem? (place : Nat) :
    session.models[place]? = session[place]?.map Held.model := List.getElem?_map

/-- The two sessions reply alike and go on with the same models, and the memories stay sound. -/
theorem Session.Sound.step (sound : session.Sound) (command : Command K) :
    (session.step command).2 = (plainStep session.models command).2 ∧
      (session.step command).1.models = (plainStep session.models command).1 ∧
      (session.step command).1.Sound := by
  cases command with
  | request place Answer inquiry =>
      rw [Session.step, plainStep, Session.models_getElem?]
      cases stored : session[place]? with
      | none => exact ⟨rfl, rfl, sound⟩
      | some held =>
          have kept := sound held (List.mem_of_getElem? stored)
          obtain ⟨same, after⟩ := Inquiry.resume_eq_answer kept (inquiry held.model)
          have looks := Inquiry.resumedLooks_eq_looks kept (inquiry held.model)
          refine ⟨?_, ?_, fun other member => ?_⟩
          · simp only [Option.map_some, same, looks]
          · obtain ⟨inside, rfl⟩ := List.getElem?_eq_some_iff.mp stored
            rw [Session.models, List.map_set, ← List.getElem_map Held.model (h := by simpa using inside)]
            exact List.set_getElem_self _
          · rcases List.mem_or_eq_of_mem_set member with earlier | rfl
            · exact sound other earlier
            · exact after
  | replace place changes =>
      rw [Session.step, plainStep, Session.models_getElem?]
      cases stored : session[place]? with
      | none => exact ⟨rfl, rfl, sound⟩
      | some held =>
          refine ⟨rfl, List.map_append, fun other member => ?_⟩
          rcases List.mem_append.mp member with earlier | added
          · exact sound other earlier
          · cases List.mem_singleton.mp added
            exact Inquiry.Checked.sound_empty _

/-- A command adds to a memory what its model looks up with success. A new memory is empty. -/
theorem Session.remembers_step (session : Session K) (command : Command K) (place : Nat)
    (pair : Ident × Ident) :
    (session.step command).1.Remembers place pair ↔ session.Remembers place pair ∨
      ∃ reply ∈ (session.step command).2, reply.Answers place pair := by
  cases command with
  | request asked Answer inquiry =>
      rw [Session.step]
      cases stored : session[asked]? with
      | none => simp
      | some held =>
          have added := Inquiry.contains_resume held.model held.checked (inquiry held.model) pair
          have inside := (List.getElem?_eq_some_iff.mp stored).1
          simp only [Session.Remembers, Reply.Answers, List.getElem?_set, Option.mem_def,
            Option.some.injEq, exists_eq_left']
          by_cases here : asked = place
          · subst here
            simp only [inside, if_true, stored, Option.some.injEq, exists_eq_left', true_and]
            exact added
          · simp [here]
  | replace asked changes =>
      rw [Session.step]
      cases stored : session[asked]? with
      | none => simp
      | some held =>
          simp only [Session.Remembers, List.getElem?_append]
          split
          · simp
          · next outside =>
              have missing : session[place]? = none := List.getElem?_eq_none (Nat.not_lt.mp outside)
              simp only [missing, List.getElem?_singleton]
              split <;> simp

/-! ## Whole sessions -/

theorem Session.Sound.run (sound : session.Sound) (commands : List (Command K)) :
    (session.run commands).2 = (plainRun session.models commands).2 ∧
      (session.run commands).1.models = (plainRun session.models commands).1 ∧
      (session.run commands).1.Sound := by
  induction commands generalizing session with
  | nil => exact ⟨rfl, rfl, sound⟩
  | cons command rest ih =>
      obtain ⟨reply, models, kept⟩ := sound.step command
      obtain ⟨replies, last, final⟩ := ih kept
      rw [models] at replies last
      rw [Session.run, plainRun]
      exact ⟨by simp only [reply, replies], last, final⟩

private theorem Session.remembers_run (session : Session K) (commands : List (Command K))
    (place : Nat) (pair : Ident × Ident) :
    (session.run commands).1.Remembers place pair ↔ session.Remembers place pair ∨
      ∃ reply ∈ (session.run commands).2, reply.Answers place pair := by
  induction commands generalizing session with
  | nil => simp [Session.run]
  | cons command rest ih =>
      rw [Session.run]
      simp only [ih, Session.remembers_step, List.mem_append, Option.mem_toList, or_and_right,
        exists_or, or_assoc, Option.mem_def]

/-- A session that begins with one model replies to every sequence of commands as if each row were
checked whenever it is asked for, down to the single look-up. In every session that can be reached, a
remembered row passes the check against the states of its own model, and what a model remembers is
what it has looked up with success. -/
theorem Session.run_eq_plainRun (model : Model K) (commands : List (Command K)) :
    (Session.run [⟨model, ∅⟩] commands).2 = (plainRun [model] commands).2 ∧
    (Session.run [⟨model, ∅⟩] commands).1.models = (plainRun [model] commands).1 ∧
    (∀ held ∈ (Session.run [⟨model, ∅⟩] commands).1, ∀ state action,
      held.checked.contains (state, action) = true →
        ∃ row, held.model.rowTable.get? (state, action) = some row ∧
          checkRow row state action held.model.knows = .ok ()) ∧
    ∀ place pair, (Session.run [⟨model, ∅⟩] commands).1.Remembers place pair ↔
      ∃ reply ∈ (plainRun [model] commands).2, reply.Answers place pair := by
  have begins : Session.Sound [⟨model, ∅⟩] := fun held member => by
    cases List.mem_singleton.mp member
    exact Inquiry.Checked.sound_empty model
  obtain ⟨replies, models, sound⟩ := begins.run commands
  refine ⟨replies, models, fun held member state action remembered => ?_, fun place pair => ?_⟩
  · obtain ⟨row, passed⟩ := sound held member state action remembered
    exact ⟨row, Model.row_eq_ok_iff.mp passed⟩
  · have blank : ¬ Session.Remembers [⟨model, ∅⟩] place pair := by
      rintro ⟨held, stored, present⟩
      cases List.mem_singleton.mp (List.mem_of_getElem? stored)
      simp at present
    rw [Session.remembers_run, or_iff_right blank, replies]
    rfl

end MarkovDecision
