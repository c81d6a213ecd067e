import MarkovDecision.Model

/-!
# A chain of three states

From state 0 the only action advances to state 1 with some probability and otherwise stays; from
state 1 it leaves for state 2, which absorbs. The utilities of a chain have a closed form.
-/

set_option autoImplicit false

namespace MarkovDecision

variable {K : Type} [Scalar K]

/-- The parameters of a chain. -/
structure Chain (K : Type) where
  advanceProbability : K
  advanceReward : K
  stayReward : K
  exitReward : K
  discount : K

namespace Chain

/-- The chain that is meant if no parameters are given. -/
def standard : Chain K :=
  ⟨Scalar.decimal 5 1, Scalar.one, Scalar.zero, Scalar.two, Scalar.decimal 9 1⟩

/-- Accept a chain whose probability to advance lies in `(0, 1]`. -/
def check (chain : Chain K) : Except (Fault K) (Chain K) :=
  if Scalar.below Scalar.zero chain.advanceProbability &&
      Scalar.atMost chain.advanceProbability Scalar.one then .ok chain
  else .error (.badParameter (.advanceProbability chain.advanceProbability))

def advance : Ident := .text "advance"

/-- The reward of a transition; a transition that a chain does not make earns nothing. -/
def reward (chain : Chain K) (state successor : Ident) : K :=
  if state = .int 0 ∧ successor = .int 1 then chain.advanceReward
  else if state = .int 0 ∧ successor = .int 0 then chain.stayReward
  else if state = .int 1 ∧ successor = .int 2 then chain.exitReward
  else Scalar.zero

/-- The actions of a chain. The absorbing state comes first. -/
def actionTable : Table Ident (List Ident) :=
  (absorbingActions [.int 2] .blank).insertAll [(.int 0, [advance]), (.int 1, [advance])]

def rowTable (chain : Chain K) : Table (Ident × Ident) (Row K) :=
  (absorbingRows [.int 2] .blank).insertAll
    [((.int 0, advance), .ofPairs [(.int 1, chain.advanceProbability),
      (.int 0, Scalar.one - chain.advanceProbability)]),
    ((.int 1, advance), .ofPairs [(.int 2, Scalar.one)])]

def model (chain : Chain K) : Model K where
  states := [.int 0, .int 1, .int 2]
  actionTable := actionTable
  rowTable := chain.rowTable
  reward := fun state _ successor => chain.reward state successor
  discount := chain.discount
  initial := .int 0
  terminals := [.int 2]
  noop := .blank

/-- The utilities of a chain, by solving the loop at state 0. -/
def closedForm (chain : Chain K) : Except (Fault K) (Utility K) :=
  let advancing := chain.advanceProbability
  let staying := Scalar.one - advancing
  let divisor := Scalar.one - staying * chain.discount
  if Scalar.equal divisor Scalar.zero then .error .divisionByZero
  else
    let gain := advancing * (chain.advanceReward + chain.discount * chain.exitReward) +
      staying * chain.stayReward
    .ok (.ofPairs [(.int 0, gain / divisor), (.int 1, chain.exitReward), (.int 2, Scalar.zero)])

end Chain

end MarkovDecision
