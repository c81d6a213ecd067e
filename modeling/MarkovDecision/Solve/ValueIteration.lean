import MarkovDecision.Solve.Bellman

/-!
# Value iteration

Starting from zero, sweeps are repeated until the change of a sweep is at most
`epsilon * (1 - discount) / discount`. The sweeps of a model need not come to an end for every kind
of number, so the loop has a budget, and an exhausted budget gives no result.
-/

set_option autoImplicit false

namespace MarkovDecision

variable {K : Type} [Scalar K]

/-- The result of value iteration: the last utility, its greedy policy, the number of sweeps, the
change that each sweep made, and the utilities after each sweep if they were asked for. -/
structure Solution (K : Type) where
  utility : Utility K
  policy : Policy
  iterations : Nat
  deltas : List K
  history : List (Utility K)

/-- The sweeps made so far, latest first. -/
structure Progress (K : Type) where
  utility : Utility K
  deltas : List K
  history : List (Utility K)

/-- The change below which value iteration stops. Without a discount the first sweep is exact. -/
def stoppingThreshold (epsilon discount : K) : K :=
  if Scalar.equal discount Scalar.zero then Scalar.posInf
  else epsilon * (Scalar.one - discount) / discount

def Model.sweepOnce (model : Model K) (recordHistory : Bool) (progress : Progress K) :
    Inquiry K (K × Progress K) := do
  let utility ← model.sweep progress.utility
  let delta ← (Utility.distance utility progress.utility : Except (Fault K) K)
  let deltas := delta :: progress.deltas
  Inquiry.report (.sweep deltas.length delta)
  return (delta, ⟨utility, deltas, if recordHistory then utility :: progress.history else []⟩)

/-- Sweep until a change is at most the threshold, for at most `budget` sweeps. -/
def Model.sweepUntil (model : Model K) (recordHistory : Bool) (threshold : K) :
    (budget : Nat) → Progress K → Inquiry K (Option (K × Progress K))
  | 0, _ => return none
  | budget + 1, progress => do
    let (delta, next) ← model.sweepOnce recordHistory progress
    if Scalar.atMost delta threshold then return some (delta, next)
    else model.sweepUntil recordHistory threshold budget next

/-- Value iteration. The discount and epsilon are checked first. -/
def Model.valueIteration (model : Model K) (epsilon : K) (recordHistory : Bool) (budget : Nat) :
    Inquiry K (Option (Solution K)) := do
  model.checkDiscount
  if Scalar.atMost epsilon Scalar.zero then .fail (.misuse (.epsilonNotPositive epsilon))
  else
    let threshold := stoppingThreshold epsilon model.discount
    match ← model.sweepUntil recordHistory threshold budget ⟨model.zeroUtility, [], []⟩ with
    | none => return none
    | some (delta, final) =>
      Inquiry.report (.sweepsDone final.deltas.length delta threshold)
      let policy ← model.greedyPolicy final.utility
      return some
        ⟨final.utility, policy, final.deltas.length, final.deltas.reverse, final.history.reverse⟩

/-- The bound on the error of utilities that value iteration uses if none is given. -/
def defaultEpsilon : K := Scalar.decimal 1 3

end MarkovDecision
