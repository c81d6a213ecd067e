import MarkovDecision.Event
import MarkovDecision.Model
import Std.Data.HashSet

/-!
# Inquiries

Solvers and simulators see the rows of a model only by asking for them. An inquiry is such a
computation: it answers, fails, asks for the row of a state and an action, or notes an event. The
same inquiry can be answered in two ways. `Inquiry.answer` checks a row each time it is asked for.
`Inquiry.resume` remembers which rows have passed and checks each of them once. Either way gives the
outcome together with the events noted up to it.
-/

set_option autoImplicit false

namespace MarkovDecision

variable {K Answer Result : Type}

/-- A computation that asks for rows and notes events. -/
inductive Inquiry (K Answer : Type) where
  | done (answer : Answer)
  | fail (fault : Fault K)
  | ask (state action : Ident) (next : Row K → Inquiry K Answer)
  | note (event : Event K) (next : Unit → Inquiry K Answer)

namespace Inquiry

def bind (inquiry : Inquiry K Answer) (next : Answer → Inquiry K Result) : Inquiry K Result :=
  match inquiry with
  | .done answer => next answer
  | .fail fault => .fail fault
  | .ask state action rest => .ask state action fun row => (rest row).bind next
  | .note event rest => .note event fun begun => (rest begun).bind next

instance : Monad (Inquiry K) where
  pure := .done
  bind := bind

def rowOf (state action : Ident) : Inquiry K (Row K) := .ask state action .done

def report (event : Event K) : Inquiry K Unit := .note event .done

def lift : Except (Fault K) Answer → Inquiry K Answer
  | .ok answer => .done answer
  | .error fault => .fail fault

instance : MonadLift (Except (Fault K)) (Inquiry K) := ⟨lift⟩

theorem bind_done (inquiry : Inquiry K Answer) : inquiry.bind .done = inquiry := by
  induction inquiry with
  | done answer => rfl
  | fail fault => rfl
  | ask state action next ih => simp only [bind]; exact congrArg _ (funext ih)
  | note event next ih => simp only [bind]; exact congrArg _ (funext ih)

theorem bind_assoc {Last : Type} (inquiry : Inquiry K Answer) (first : Answer → Inquiry K Result)
    (second : Result → Inquiry K Last) :
    (inquiry.bind first).bind second = inquiry.bind fun answer => (first answer).bind second := by
  induction inquiry with
  | done answer => rfl
  | fail fault => rfl
  | ask state action next ih => simp only [bind]; exact congrArg _ (funext ih)
  | note event next ih => simp only [bind]; exact congrArg _ (funext ih)

instance : LawfulMonad (Inquiry K) :=
  LawfulMonad.mk' (Inquiry K) bind_done (fun _ _ => rfl) bind_assoc

/-- What an inquiry comes to: its answer or fault, and the events noted on the way. -/
structure Outcome (K Answer : Type) where
  result : Except (Fault K) Answer
  events : List (Event K)

def Outcome.after (event : Event K) (outcome : Outcome K Answer) : Outcome K Answer :=
  ⟨outcome.result, event :: outcome.events⟩

variable [Scalar K]

/-- Answer from a model, checking every row each time it is asked for. -/
def answer (model : Model K) : Inquiry K Answer → Outcome K Answer
  | .done answer => ⟨.ok answer, []⟩
  | .fail fault => ⟨.error fault, []⟩
  | .ask state action next =>
    match model.row state action with
    | .ok row => answer model (next row)
    | .error fault => ⟨.error fault, []⟩
  | .note event next => (answer model (next ())).after event

/-- The states and actions whose rows have passed their check. -/
abbrev Checked := Std.HashSet (Ident × Ident)

/-- The row of a state and an action, checked only if it has not passed before. -/
def memoizedRow (model : Model K) (checked : Checked) (state action : Ident) :
    Except (Fault K) (Row K × Checked) := do
  let row ← model.rawRow state action
  if checked.contains (state, action) then return (row, checked)
  else
    checkRow row state action model.knows
    return (row, checked.insert (state, action))

/-- Answer from a model, remembering which rows have passed their check. -/
def resume (model : Model K) (checked : Checked) :
    Inquiry K Answer → Outcome K Answer × Checked
  | .done answer => (⟨.ok answer, []⟩, checked)
  | .fail fault => (⟨.error fault, []⟩, checked)
  | .ask state action next =>
    match memoizedRow model checked state action with
    | .ok (row, known) => resume model known (next row)
    | .error fault => (⟨.error fault, []⟩, checked)
  | .note event next =>
    let (outcome, known) := resume model checked (next ())
    (outcome.after event, known)

end Inquiry

end MarkovDecision
