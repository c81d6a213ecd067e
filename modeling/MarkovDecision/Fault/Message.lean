import MarkovDecision.Decimal.Shortest
import MarkovDecision.Fault
import MarkovDecision.Ident.Written

/-!
# Messages of faults

One sentence for each cause, with names in their written form and numbers in their shortest form.
-/

set_option autoImplicit false

namespace MarkovDecision

open Decimal (shortest)

def pairText (state action : Ident) : String := s!"({state.written}, {action.written})"

def Defect.message : Defect Float → String
  | .noActions state => s!"State {state.written} has no legal actions"
  | .noRow state action =>
    s!"No transition distribution for state {state.written}, action {action.written}"
  | .negativeProbability probability state action successor =>
    s!"Negative probability {shortest probability} for {pairText state action} -> " ++
      successor.written
  | .unknownSuccessor state action successor =>
    s!"Transition {pairText state action} reaches unknown state {successor.written}"
  | .wrongTotal state action total =>
    s!"Transition {pairText state action} sums to {shortest total}, expected 1"
  | .unknownInitial state => s!"Initial state {state.written} is not in states"
  | .terminalActions state => s!"Terminal state {state.written} must only allow the no-op action"
  | .terminalLoop state => s!"Terminal state {state.written} must self-loop"
  | .terminalReward state => s!"Terminal state {state.written} must have zero reward"

def CountName.text : CountName → String
  | .sweeps => "sweeps"
  | .sweepsPerEvaluation => "sweeps_per_eval"
  | .trials => "num_trials"
  | .maxSteps => "max_steps"

def Misuse.message : Misuse Float → String
  | .discountOutOfRange discount =>
    s!"Discount factor must be in [0, 1), got: {shortest discount}"
  | .epsilonNotPositive epsilon => s!"epsilon must be positive, got: {shortest epsilon}"
  | .countNotPositive name count => s!"{name.text} must be positive, got: {count}"
  | .unknownLimitMode mode =>
    s!"on_max_steps must be one of ('raise', 'discard'), got: {Text.quoted mode}"
  | .incompletePolicy missing first =>
    s!"Policy has no action for {missing} state(s), e.g. {first.written}"

def BadParameter.message : BadParameter Float → String
  | .advanceProbability probability =>
    s!"advance_prob must be in (0, 1], got: {shortest probability}"
  | .gridSize width height => s!"Grid must be at least 1x1, got: {width}x{height}"
  | .intendedProbability probability =>
    s!"intended_prob must be in [0, 1], got: {shortest probability}"
  | .cellOutOfBounds cell => s!"Cell out of bounds: {cell.written}"
  | .cellIsWall cell => s!"Cell cannot be a wall: {cell.written}"
  | .negativeSeed => "expected non-negative integer"
  | .unknownColumns names =>
    "dict contains fields not in fieldnames: " ++ String.intercalate ", " (names.map Text.quoted)

def BadPosition.message : BadPosition → String
  | .outsideList => "list index out of range"
  | .outsideTuple => "tuple index out of range"
  | .tooLarge => "cannot fit 'int' into an index-sized integer"

def BadPath.message : BadPath → String
  | .nothingThere path => s!"No such file or directory: {Text.quoted path}"
  | .isFolder path => s!"Is a directory: {Text.quoted path}"

def Fault.message : Fault Float → String
  | .malformed defect => defect.message
  | .misuse cause => cause.message
  | .illegalAction state action =>
    s!"Action {action.written} is not legal in state {state.written}"
  | .walkCut trial limit last =>
    s!"Trial {trial} did not terminate within {limit} steps (last state {last.written})"
  | .allWalksCut limit => s!"No trial terminated within {limit} steps"
  | .badParameter cause => cause.message
  | .missingKey key => key.written
  | .badPosition cause => cause.message
  | .badPath cause => cause.message
  | .frozenField name => s!"cannot assign to field '{name}'"
  | .divisionByZero => "division by zero"
  | .wrongType => "value of a wrong type"

end MarkovDecision
