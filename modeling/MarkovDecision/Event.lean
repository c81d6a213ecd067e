import MarkovDecision.Ident

/-!
# Events of a run

Solvers and simulators note what happens while they run. An event carries the numbers it reports;
how it is worded is decided elsewhere.
-/

set_option autoImplicit false

namespace MarkovDecision

/-- What a run reports while it is going on. -/
inductive Event (K : Type) where
  | sweep (index : Nat) (delta : K)
  | sweepsDone (count : Nat) (delta threshold : K)
  /-- A round of policy iteration and how many actions it replaced. -/
  | round (index changed : Nat)
  | roundsDone (count : Nat)
  | walkDropped (trial limit : Int) (last : Ident)
  | stateEstimated (state : Ident) (mean : K) (trials : Int)

end MarkovDecision
