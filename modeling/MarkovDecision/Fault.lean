import MarkovDecision.Ident

/-!
# What can go wrong

Every failure is a value that names its cause and carries the states, actions and numbers it is
about. Failures fall into five groups that callers tell apart: a malformed model, unsuitable
settings, an illegal action, a walk that was cut off, and the rest, which concern look-ups and
configurations outside a model.
-/

set_option autoImplicit false

namespace MarkovDecision

/-- What makes a model malformed. -/
inductive Defect (K : Type) where
  | noActions (state : Ident)
  | noRow (state action : Ident)
  | negativeProbability (probability : K) (state action successor : Ident)
  | unknownSuccessor (state action successor : Ident)
  | wrongTotal (state action : Ident) (total : K)
  | unknownInitial (state : Ident)
  | terminalActions (state : Ident)
  | terminalLoop (state : Ident)
  | terminalReward (state : Ident)

/-- The counts that must be positive. -/
inductive CountName where
  | sweeps
  | sweepsPerEvaluation
  | trials
  | maxSteps

/-- What makes the settings of a solver or simulator unsuitable. -/
inductive Misuse (K : Type) where
  | discountOutOfRange (discount : K)
  | epsilonNotPositive (epsilon : K)
  | countNotPositive (name : CountName) (count : Int)
  | unknownLimitMode (mode : String)
  | incompletePolicy (missing : Nat) (first : Ident)

/-- What makes the parameters of a case study unacceptable. A cell is named by its coordinates. -/
inductive BadParameter (K : Type) where
  | advanceProbability (probability : K)
  | gridSize (width height : Int)
  | intendedProbability (probability : K)
  | cellOutOfBounds (cell : Ident)
  | cellIsWall (cell : Ident)
  | negativeSeed
  | unknownColumns (names : List String)

/-- Why a position in a sequence cannot be read. -/
inductive BadPosition where
  | outsideList
  | outsideTuple
  | tooLarge

/-- Why a file cannot be written. -/
inductive BadPath where
  | nothingThere (path : String)
  | isFolder (path : String)

/-- The cause of a failure. -/
inductive Fault (K : Type) where
  | malformed (defect : Defect K)
  | misuse (cause : Misuse K)
  | illegalAction (state action : Ident)
  | walkCut (trial limit : Int) (last : Ident)
  | allWalksCut (limit : Int)
  | badParameter (cause : BadParameter K)
  | missingKey (key : Ident)
  | badPosition (cause : BadPosition)
  | badPath (cause : BadPath)
  | frozenField (name : String)
  | divisionByZero
  | wrongType

end MarkovDecision
