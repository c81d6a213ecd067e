import MarkovDecision.Experiment.Settings

/-!
# The catalog of experiments

Experiments are named by paths of parts with dots between them. The catalog is a tree of folders and
entries; an entry may hold an experiment, and a folder never does.
-/

set_option autoImplicit false

namespace MarkovDecision

def chainExperiment : Experiment where
  name := "chain"
  study := .chain none
  epsilon := 0.001
  sweepsPerEvaluation := 20
  seed := some 7
  trials := 1000
  maxSteps := 500
  limitMode := "discard"
  resultsPath := "./data/prelim/chain_results.json"
  figuresPath := "./data/prelim/chain_figures"
  tolerance := Experiment.standardTolerance

def gridExperiment : Experiment where
  name := "gridworld"
  study := .grid none
  epsilon := 0.001
  sweepsPerEvaluation := 20
  seed := some 42
  trials := 10000
  maxSteps := 1000
  limitMode := "raise"
  resultsPath := "./data/gridworld/gridworld_results.json"
  figuresPath := "./data/gridworld/figures"
  tolerance := Experiment.standardTolerance

/-- A place in the catalog. -/
inductive CatalogEntry where
  | folder (entries : List (String × CatalogEntry))
  | leaf (experiment : Option Experiment)

/-- Why a name gives no experiment: there is nothing under a path, perhaps because the path before
it leads to no folder; or the path leads to a place without an experiment; or the name leaves the
catalog upwards. -/
inductive CatalogMiss where
  | nothingAt (path : String) (notFolder : Option String)
  | noExperiment (path : String)
  | aboveRoot

def CatalogMiss.message : CatalogMiss → String
  | .nothingAt path none => s!"No module named '{path}'"
  | .nothingAt path (some parent) => s!"No module named '{path}'; '{parent}' is not a package"
  | .noExperiment path => s!"module '{path}' has no attribute 'config'"
  | .aboveRoot => "attempted relative import beyond top-level package"

namespace CatalogEntry

/-- The experiment at the end of the parts of a path, which starts at a place. -/
def find : CatalogEntry → (path : String) → (parts : List String) →
    Except CatalogMiss Experiment
  | .leaf (some experiment), _, [] => .ok experiment
  | .leaf none, path, [] | .folder _, path, [] => .error (.noExperiment path)
  | .leaf _, path, part :: _ => .error (.nothingAt (path ++ "." ++ part) (some path))
  | .folder entries, path, part :: rest =>
    match entries.lookup part with
    | some entry => find entry (path ++ "." ++ part) rest
    | none => .error (.nothingAt (path ++ "." ++ part) none)

end CatalogEntry

/-- The experiments that are there from the start, and the other names around them. -/
def catalog : CatalogEntry :=
  .folder
    [("experiments", .folder
      [("configs", .folder
        [("base_config", .leaf none), ("chain_prelim", .leaf (some chainExperiment)),
          ("gridworld_textbook", .leaf (some gridExperiment))]),
        ("experiment_io", .leaf none), ("run_solver_experiment", .leaf none)])]

def catalogRoot : String := "mdp_planning"

def catalogHome : List String := ["experiments"]

/-- The experiment of a name. Every dot in front of a name leads one folder up, and a name without
characters is the folder itself. -/
def findExperiment (name : String) : Except CatalogMiss Experiment :=
  let dots := name.toList.takeWhile (· == '.')
  let rest := String.ofList (name.toList.dropWhile (· == '.'))
  if catalogHome.length < dots.length then .error .aboveRoot
  else
    catalog.find catalogRoot (catalogHome.take (catalogHome.length - dots.length) ++
      (if rest.isEmpty then [] else rest.splitOn "."))

end MarkovDecision
