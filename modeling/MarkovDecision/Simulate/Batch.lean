import MarkovDecision.Simulate.Walk
import MarkovDecision.Solve.PolicyEvaluation

/-!
# Batches of walks

The walks of a batch run one after the other on one source of randomness. A walk that is cut either
stops the batch or is dropped and counted.
-/

set_option autoImplicit false

namespace MarkovDecision

variable {K : Type} [Scalar K]

/-- What happens to a batch when a walk is cut. -/
inductive LimitMode where
  | refuse
  | discard

def LimitMode.ofName (name : String) : Except (Fault K) LimitMode :=
  if name = "raise" then .ok .refuse
  else if name = "discard" then .ok .discard
  else .error (.misuse (.unknownLimitMode name))

/-- The finished walks of a batch, and how many were dropped. -/
structure Batch (K : Type) where
  rollouts : List (Rollout K)
  discarded : Int

/-- The settings of a batch. -/
structure BatchSettings where
  trials : Int
  maxSteps : Int
  limitMode : String
  keepTrajectories : Bool

/-- The start state that a name stands for: the blank name stands for the initial state. -/
def Model.startState (model : Model K) (start : Ident) : Ident :=
  if start = .blank then model.initial else start

section Walking

variable {Source : Type} [UniformSource Source K]

/-- Run the remaining walks of a batch. The finished ones are listed latest first. -/
def Model.runTrials (model : Model K) (policy : Policy) (start : Ident) (limit : Int)
    (mode : LimitMode) (keep : Bool) :
    (remaining : Nat) → (trial : Nat) → Source → Batch K → Inquiry K (Batch K)
  | 0, _, _, batch => return ⟨batch.rollouts.reverse, batch.discarded⟩
  | remaining + 1, trial, source, batch => do
    let (ending, later) ← model.walk policy start limit keep source
    match ending, mode with
    | .absorbed position, _ =>
      model.runTrials policy start limit mode keep remaining (trial + 1) later
        ⟨position.rollout trial :: batch.rollouts, batch.discarded⟩
    | .cut last, .refuse => .fail (.walkCut trial limit last)
    | .cut last, .discard =>
      Inquiry.report (.walkDropped trial limit last)
      model.runTrials policy start limit mode keep remaining (trial + 1) later
        ⟨batch.rollouts, batch.discarded + 1⟩

/-- Run a batch. The number of trials, the step limit, the mode and the policy are checked in this
order before the source is asked for. -/
def Model.runBatch (model : Model K) (policy : Policy) (start : Ident) (settings : BatchSettings)
    (source : Except (Fault K) Source) : Inquiry K (Batch K) := do
  (checkCount .trials settings.trials : Except (Fault K) Unit)
  (checkCount .maxSteps settings.maxSteps : Except (Fault K) Unit)
  let mode ← (LimitMode.ofName settings.limitMode : Except (Fault K) LimitMode)
  model.checkPolicy policy
  let ready ← source
  model.runTrials policy (model.startState start) settings.maxSteps mode
    settings.keepTrajectories settings.trials.toNat 0 ready ⟨[], 0⟩

end Walking

end MarkovDecision
