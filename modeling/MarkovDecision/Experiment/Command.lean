import MarkovDecision.Experiment.Catalog
import MarkovDecision.Experiment.Run

/-!
# The command

The command runs the experiment that its first argument names; further arguments are ignored. It
succeeds if the experiment runs to its end. Without an argument, or if there is no such experiment,
it says so and fails.
-/

set_option autoImplicit false

namespace MarkovDecision

def usageLines : List String :=
  ["Usage: python -m mdp_planning.experiments.run_solver_experiment <config_module>",
    "Example: python -m mdp_planning.experiments.run_solver_experiment " ++
      "configs.gridworld_textbook"]

def successCode : Nat := 0

def failureCode : Nat := 1

/-- Run the command. An experiment is adapted before it runs. -/
def runCommand (arguments : List String) (conditions : Experiment.Conditions)
    (adapt : Experiment → Except (Fault Float) Experiment) : Run Nat :=
  match arguments with
  | [] => do
    Run.print usageLines
    return failureCode
  | name :: _ =>
    match findExperiment name with
    | .error miss => do
      Run.print [s!"Error loading config: {miss.message}"]
      return failureCode
    | .ok experiment => do
      let adapted ← Run.orStop (adapt experiment)
      adapted.run conditions
      return successCode

end MarkovDecision
