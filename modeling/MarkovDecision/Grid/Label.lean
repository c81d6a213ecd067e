import MarkovDecision.Grid.Layout
import MarkovDecision.Ident.Written

/-!
# Labels of states

A state of a grid is labelled by the coordinates of its cell, any other state by its written name.
-/

set_option autoImplicit false

namespace MarkovDecision

variable {K : Type}

def stateLabel (grid : Option (Grid K)) (state : Ident) : Except (Fault K) String :=
  match grid with
  | some layout => do
    let cell ← layout.cellOf state
    return cell.name.written
  | none => .ok state.written

end MarkovDecision
