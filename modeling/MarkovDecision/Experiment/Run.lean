import MarkovDecision.Chart.Estimates
import MarkovDecision.Estimate.Summary
import MarkovDecision.Experiment.Transcript
import MarkovDecision.Grid.Render
import MarkovDecision.Random.Generator
import MarkovDecision.Statistics.Interval
import MarkovDecision.Text.Capital

/-!
# Running experiments

An experiment builds and validates its model, solves it by value iteration and by policy iteration,
checks the computed utilities by walks, counts where walks from the initial state end, and leaves
its results and figures. Every stage reports what it found.
-/

set_option autoImplicit false

namespace MarkovDecision.Experiment

open Decimal (fixed general percent shortest)

/-- The stages whose duration is reported. -/
inductive Stage where
  | valueIteration
  | policyIteration
  | whole

/-- What a run is given beside the experiment: the seconds that its stages take, what is known of
its surroundings, and the number of sweeps or rounds after which a loop is given up. -/
structure Conditions where
  seconds : Stage → Float
  surroundings : Surroundings
  budget : Nat

/-- How many sweeps evaluate the policy of policy iteration for the comparison. -/
def comparisonSweeps : Int := 500

def rule : String := Text.repeated '=' 70

/-- Lines between two rules. -/
def framed (lines : List String) : List String := rule :: lines ++ [rule]

/-- A model with its grid, if it has one. -/
structure Subject where
  model : Model Float
  grid : Option (Grid Float)

def Subject.label (subject : Subject) (state : Ident) : Except (Fault Float) String :=
  stateLabel subject.grid state

/-! ## The model -/

def load (experiment : Experiment) : Run Subject := do
  Run.print (framed ["SOLVER EXPERIMENT - " ++ Text.upper experiment.name,
    s!"Epsilon: {shortest experiment.epsilon}, " ++
      s!"Sweeps/eval: {experiment.sweepsPerEvaluation}, Trials: {experiment.trials}, " ++
      s!"Seed: {(experiment.seed.elim .blank .int : Ident).written}"])
  Run.print ["", s!"Loading {Text.upper experiment.name} MDP..."]
  let (model, grid) ← Run.orStop experiment.study.build
  Run.inquire model model.validate
  Run.print [s!"  States: {model.states.length}, Terminals: {model.sortedTerminals.length}, " ++
    s!"Discount: {shortest model.discount}"]
  return ⟨model, grid⟩

/-! ## Solvers -/

/-- The utilities and the policy of a solution: as pictures of the grid, or line by line. -/
def Subject.solutionLines (subject : Subject) (solution : Solution Float) :
    Except (Fault Float) (List String) :=
  match subject.grid with
  | some grid => do
    let utilities ← grid.renderUtilities solution.utility
    let policy ← grid.renderPolicy solution.policy
    return ["", "Utilities:"] ++ utilities ++ ["", "Policy:"] ++ policy
  | none =>
    subject.model.states.mapM fun state => do
      let value ← solution.utility.demand state
      let action ← solution.policy.demand state
      return s!"  {state.written}: U={fixed 4 value}  pi={action.written}"

def solve (experiment : Experiment) (conditions : Conditions) (subject : Subject) :
    Run (Solution Float) := do
  Run.print ("" :: framed ["VALUE ITERATION"])
  let solution ← Run.finished (← Run.inquire subject.model
    (subject.model.valueIteration experiment.epsilon true conditions.budget))
  let threshold := stoppingThreshold experiment.epsilon subject.model.discount
  Run.print [s!"Converged in {solution.iterations} iterations " ++
      s!"({fixed 3 (conditions.seconds .valueIteration)}s)",
    s!"Final delta: {general 3 false (solution.deltas.getLastD 0)}  " ++
      s!"threshold: {general 3 false threshold}"]
  Run.print (← Run.orStop (subject.solutionLines solution))
  return solution

/-- The states, as they are listed, in which two policies take different actions. -/
def differingStates (states : List Ident) (first second : Policy) :
    Except (Fault Float) (List (Ident × Ident × Ident)) := do
  let triples ← states.mapM fun state => do
    let left ← first.demand state
    let right ← second.demand state
    return (state, left, right)
  return triples.filter fun triple => triple.2.1 != triple.2.2

/-- Solve by policy iteration and compare with the solution. The answer is the policy, the number of
rounds, and how far the utility of the policy is from the solution. -/
def compareSolvers (experiment : Experiment) (conditions : Conditions) (subject : Subject)
    (solution : Solution Float) : Run (Policy × Nat × Float) := do
  let model := subject.model
  Run.print ("" :: framed ["POLICY ITERATION",
    s!"Sweeps per evaluation: {experiment.sweepsPerEvaluation}"])
  let start : StartingPolicy Float Generator := .drawn (Generator.ofSeed experiment.seed)
  let result ← Run.finished (← Run.inquire model
    (model.policyIteration experiment.sweepsPerEvaluation start conditions.budget))
  Run.print [s!"Converged in {result.rounds.length} rounds " ++
    s!"({fixed 3 (conditions.seconds .policyIteration)}s)"]
  let differing ← Run.orStop (differingStates model.states result.policy solution.policy)
  let utility ← Run.inquire model (model.evaluatePolicy result.policy comparisonSweeps none)
  let gap ← Run.orStop (Utility.distance utility solution.utility)
  Run.print [s!"States where policies differ: {differing.length}"]
  Run.print (← Run.orStop (differing.mapM fun (state, left, right) => do
    let name ← subject.label state
    return s!"  {name}: PI={left.written}  VI={right.written}"))
  Run.print [s!"Max-norm gap between PI policy utility and VI utility: {general 3 false gap}"]
  return (result.policy, result.rounds.length, gap)

/-! ## Walks -/

def batchSettings (experiment : Experiment) : BatchSettings :=
  ⟨experiment.trials, experiment.maxSteps, experiment.limitMode, false⟩

def crossCheckLine (label : String) (entry : Discrepancy Float) (estimate : Estimate Float) :
    String :=
  Text.alignLeft 12 label ++ " " ++ Text.alignRight 10 (fixed 4 entry.analytic) ++ " " ++
    Text.alignRight 10 (fixed 4 entry.empirical) ++ " " ++
    Text.alignRight 8 (fixed 4 entry.error) ++ " " ++
    Text.alignRight 8 (fixed 4 estimate.halfWidth) ++ "  " ++ (if entry.passes then "yes" else "NO")

def crossCheckHead : String :=
  Text.alignLeft 12 "State" ++ " " ++ Text.alignRight 10 "Analytic" ++ " " ++
    Text.alignRight 10 "MC mean" ++ " " ++ Text.alignRight 8 "|err|" ++ " " ++
    Text.alignRight 8 "CI +/-" ++ "  OK"

/-- Estimate the utility of the policy from every state that is not terminal, and compare. -/
def crossCheck (experiment : Experiment) (subject : Subject) (solution : Solution Float) :
    Run (Estimates Float × Report Float) := do
  Run.print ("" :: framed ["MONTE CARLO CROSS-CHECK",
    s!"Trials per state: {experiment.trials}, " ++
      s!"Seed: {(experiment.seed.elim .blank .int : Ident).written}"])
  let estimates ← Run.inquire subject.model
    (subject.model.evaluateByWalks Statistics.studentRules solution.policy none
      experiment.batchSettings defaultSignificance (Generator.ofSeedAt experiment.seed))
  let report ← Run.orStop (compareEstimates solution.utility estimates experiment.tolerance)
  Run.print [crossCheckHead, Text.repeated '-' crossCheckHead.length]
  Run.print (← Run.orStop (report.entries.mapM fun entry => do
    let name ← subject.label entry.1
    let estimate ← estimates.demand entry.1
    return crossCheckLine name entry.2 estimate))
  return (estimates, report)

def endingLine (label : String) (ending : EndingRate Float) : String :=
  s!"  absorbed in {label}: {percent 1 ending.rate} " ++
    s!"[{percent 1 ending.low}, {percent 1 ending.high}]"

/-- Walk from the initial state and count where the walks end. -/
def countEndings (experiment : Experiment) (subject : Subject) (solution : Solution Float) :
    Run (Estimate Float × List (EndingRate Float)) := do
  let (start, endings) ← Run.inquire subject.model
    (subject.model.walkToEnds Statistics.studentRules (Statistics.rateInterval defaultSignificance)
      defaultSignificance solution.policy experiment.batchSettings
      (Generator.ofSeed experiment.seed))
  let name ← Run.orStop (subject.label subject.model.initial)
  Run.print (["", s!"From start state {name}:"] ++ start.summary)
  Run.print (← Run.orStop (endings.mapM fun ending => do
    let label ← subject.label ending.state
    return endingLine label ending))
  return (start, endings)

/-! ## Output -/

def save (experiment : Experiment) (conditions : Conditions) (subject : Subject)
    (findings : Findings) : Run Unit := do
  let results ← Run.orStop (findings.results subject.model subject.label)
  let rows ← Run.orStop
    (utilityRows experiment.name findings.report findings.estimates subject.label)
  let files ← Run.orStop (resultFiles experiment.resultsPath conditions.surroundings
    experiment.fields results (rows.map UtilityRow.fields))
  Run.leave files
  Run.print (files.map fun file => s!"Saved {file.path}")

def draw (experiment : Experiment) (subject : Subject) (findings : Findings) : Run Unit := do
  let model := subject.model
  let solution := findings.solution
  if experiment.figuresPath.isEmpty then
    Run.orStop (.error (.badPath (.nothingThere experiment.figuresPath)))
  let pairs ← Run.orStop (model.states.mapM fun state => do
    let label ← subject.label state
    return (state, label))
  let labels : Table Ident String := .ofPairs pairs
  let into (name : String) : Chart.Delivery :=
    ⟨some (Text.Path.join experiment.figuresPath name), false⟩
  Run.keepPlot (← Run.orStop (Chart.utilityHistory solution.history (some model.openStates) labels
    (into "utility_history.png")))
  Run.keepPlot (Chart.convergence solution.deltas
    (some (stoppingThreshold experiment.epsilon model.discount)) (into "convergence.png"))
  Run.keepPlot (← Run.orStop (Chart.utilityComparison solution.utility findings.estimates labels
    (into "utility_comparison.png")))
  let analytic ← Run.orStop (solution.utility.demand model.initial)
  let name ← Run.orStop (subject.label model.initial)
  Run.keepPlot (Chart.returnDistribution findings.start (some analytic) s!"Returns from {name}"
    (into "start_returns.png"))

/-- The stages up to the output: load the model, solve it in both ways, and walk. -/
def findOut (experiment : Experiment) (conditions : Conditions) : Run (Subject × Findings) := do
  let subject ← experiment.load
  let solution ← experiment.solve conditions subject
  let (policy, rounds, gap) ← experiment.compareSolvers conditions subject solution
  let (estimates, report) ← experiment.crossCheck subject solution
  let (start, endings) ← experiment.countEndings subject solution
  return (subject, ⟨solution, policy, rounds, gap, estimates, report, start, endings⟩)

/-- Run an experiment from its first line to its last. -/
def run (experiment : Experiment) (conditions : Conditions) : Run Unit := do
  let (subject, findings) ← experiment.findOut conditions
  experiment.save conditions subject findings
  Run.print ["", "Generating figures..."]
  experiment.draw subject findings
  Run.print ("" :: s!"Total experiment time: {fixed 1 (conditions.seconds .whole)}s" ::
    framed ["EXPERIMENT COMPLETE"])

end MarkovDecision.Experiment
