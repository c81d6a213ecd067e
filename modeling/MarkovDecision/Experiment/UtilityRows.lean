import MarkovDecision.CrossCheck
import MarkovDecision.Document.Sheet

/-!
# Rows of a cross-check

The sheet of an experiment has one row for each state of the cross-check, under the label of the
state.
-/

set_option autoImplicit false

namespace MarkovDecision

variable {K : Type}

/-- A computed utility beside its estimate, under the label of its state. -/
structure UtilityRow (K : Type) where
  study : String
  label : String
  analytic : K
  mean : K
  low : K
  high : K
  trials : Int
  discarded : Int
  error : K
  passes : Bool

/-- The row of a state: its discrepancy and its estimate. -/
def utilityRow (study : String) (estimates : Estimates K)
    (label : Ident → Except (Fault K) String) (state : Ident) (entry : Discrepancy K) :
    Except (Fault K) (UtilityRow K) := do
  let estimate ← estimates.demand state
  let name ← label state
  return ⟨study, name, entry.analytic, entry.empirical, estimate.low, estimate.high,
    estimate.trials, estimate.discarded, entry.error, entry.passes⟩

/-- The rows of a report, state by state. -/
def utilityRows (study : String) (report : Report K) (estimates : Estimates K)
    (label : Ident → Except (Fault K) String) : Except (Fault K) (List (UtilityRow K)) :=
  report.entries.mapM fun entry => utilityRow study estimates label entry.1 entry.2

def utilityColumns : List String :=
  ["case_study", "state", "analytic", "mc_mean", "mc_ci_low", "mc_ci_high", "mc_trials",
    "mc_discarded", "abs_error", "within_tolerance"]

def UtilityRow.fields (row : UtilityRow Float) : SheetRow :=
  [("case_study", .text row.study), ("state", .text row.label), ("analytic", .real row.analytic),
    ("mc_mean", .real row.mean), ("mc_ci_low", .real row.low), ("mc_ci_high", .real row.high),
    ("mc_trials", .whole row.trials), ("mc_discarded", .whole row.discarded),
    ("abs_error", .real row.error), ("within_tolerance", .flag row.passes)]

end MarkovDecision
