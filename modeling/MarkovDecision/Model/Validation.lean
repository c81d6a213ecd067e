import MarkovDecision.Inquiry

/-!
# Validation

`Model.validate` goes through a model in the order of its states and reports the first thing that is
wrong: an unknown initial state, a state without actions, a bad row, or a terminal state that does
more than stay where it is without reward.
-/

set_option autoImplicit false

namespace MarkovDecision

variable {K : Type} [Scalar K]

/-- Check that a terminal state allows the no-op alone, that the no-op stays in the state, and that
staying earns nothing. -/
def Model.checkAbsorbing (model : Model K) (state : Ident) : Inquiry K Unit := do
  let actions ← model.actions state
  if actions ≠ [model.noop] then .fail (.malformed (.terminalActions state))
  else
    let row ← Inquiry.rowOf state model.noop
    let staying := (row.get? state).getD Scalar.zero
    if Scalar.below massTolerance (Scalar.abs (staying - Scalar.one)) then
      .fail (.malformed (.terminalLoop state))
    else if Scalar.equal (model.reward state model.noop state) Scalar.zero then return ()
    else .fail (.malformed (.terminalReward state))

/-- Check the actions and rows of one state, and its absorption if it is terminal. -/
def Model.validateState (model : Model K) (state : Ident) : Inquiry K Unit := do
  let actions ← model.actions state
  actions.forM fun action => do
    let _ ← Inquiry.rowOf state action
  if model.isTerminal state then model.checkAbsorbing state

def Model.validate (model : Model K) : Inquiry K Unit := do
  if model.knows model.initial then model.states.forM model.validateState
  else .fail (.malformed (.unknownInitial model.initial))

end MarkovDecision
