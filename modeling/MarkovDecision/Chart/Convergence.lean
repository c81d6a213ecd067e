import MarkovDecision.Chart.Figure
import MarkovDecision.Ident.Written
import MarkovDecision.Model

/-!
# Charts of convergence

How the utilities of states and the change per sweep develop while value iteration runs.
-/

set_option autoImplicit false

namespace MarkovDecision.Chart

/-- The label of a state: the given one, or its written name. -/
def labelOf (labels : Table Ident String) (state : Ident) : String :=
  (labels.get? state).getD state.written

/-- The places of as many sweeps, counted from one. -/
def sweepPlaces (count : Nat) : List Nat := (List.range count).map (· + 1)

/-- One line for each state, through its utilities after the sweeps. Without given states every
state of the first utility has a line. -/
def utilityHistory (history : List (Utility Float)) (states : Option (List Ident))
    (labels : Table Ident String) (delivery : Delivery) : Except (Fault Float) Plot :=
  match history with
  | [] => .ok (.missing "No utility history to plot")
  | first :: _ => do
    let lines ← (states.getD first.keys).mapM fun state => do
      let heights ← history.mapM fun utility => utility.demand state
      return Stroke.line (sweepPlaces history.length) heights (labelOf labels state)
    return .drawn 10 6
      (lines ++ [.horizontalTitle "Iteration", .verticalTitle "Utility",
        .title "Utility Estimates by Iteration", .legend, .gridLines true]) delivery

def leastShown : Float := 1e-300

def raised (delta : Float) : Float := if delta < leastShown then leastShown else delta

/-- The changes of the sweeps over a logarithmic scale, with a line at the threshold if it is
finite. -/
def convergence (deltas : List Float) (threshold : Option Float) (delivery : Delivery) : Plot :=
  if deltas.isEmpty then .missing "No deltas to plot"
  else
    let limit := (threshold.filter Float.isFinite).toList.map fun height =>
      Stroke.level height "red" "--" "Stopping threshold"
    .drawn 8 5
      (.logLine (sweepPlaces deltas.length) (deltas.map raised) "steelblue" "max |U' - U|" ::
        (limit ++ [.horizontalTitle "Iteration", .verticalTitle "Delta (log scale)",
          .title "Value Iteration Convergence", .legend, .gridLines true])) delivery

end MarkovDecision.Chart
