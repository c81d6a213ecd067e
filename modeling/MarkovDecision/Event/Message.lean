import MarkovDecision.Decimal.Places
import MarkovDecision.Event
import MarkovDecision.Fault.Message

/-!
# Wording of events

An event is shown with its importance, the part of the library that noted it, and a sentence.
-/

set_option autoImplicit false

namespace MarkovDecision.Event

open Decimal (general fixed)

/-- How important an event is. -/
inductive Level where
  | debug
  | info
  | warning

def Level.text : Level → String
  | .debug => "DEBUG"
  | .info => "INFO"
  | .warning => "WARNING"

variable {K : Type}

def level : Event K → Level
  | .sweep .. | .round .. | .stateEstimated .. => .debug
  | .sweepsDone .. | .roundsDone .. => .info
  | .walkDropped .. => .warning

def channel : Event K → String
  | .sweep .. | .sweepsDone .. => "mdp_planning.Solvers.value_iteration"
  | .round .. | .roundsDone .. => "mdp_planning.Solvers.policy_iteration"
  | .walkDropped .. => "mdp_planning.MonteCarlo.simulation"
  | .stateEstimated .. => "mdp_planning.MonteCarlo.evaluator"

def message : Event Float → String
  | .sweep index delta => s!"value iteration sweep {index}: delta={general 3 false delta}"
  | .sweepsDone count delta threshold =>
    s!"Value iteration converged in {count} iterations (delta={general 3 false delta}, " ++
      s!"threshold={general 3 false threshold})"
  | .round index changed => s!"policy iteration round {index}: {changed} action(s) changed"
  | .roundsDone count => s!"Policy iteration converged in {count} rounds"
  | .walkDropped trial limit last =>
    s!"Discarding rollout: {Fault.message (.walkCut trial limit last)}"
  | .stateEstimated state mean trials =>
    s!"state {state.written}: mean={fixed 4 mean} over {trials} trials"

end MarkovDecision.Event
