import MarkovDecision.Document.Json.Writer
import MarkovDecision.Experiment.CaseStudy

/-!
# Settings of experiments

An experiment is a case study with the settings of the solvers, of the simulation and of the output.
In documents its settings are a record of named fields, some of which may be left out.
-/

set_option autoImplicit false

namespace MarkovDecision

/-- The settings of an experiment. -/
structure Experiment where
  name : String
  study : CaseStudy
  epsilon : Float
  sweepsPerEvaluation : Int
  seed : Option Int
  trials : Int
  maxSteps : Int
  limitMode : String
  resultsPath : String
  figuresPath : String
  tolerance : Float

namespace Experiment

/-- The slack between computed and estimated utilities if none is given. -/
def standardTolerance : Float := 0.05

def builderField : String := "build_mdp_fn"

def parametersField : String := "mdp_kwargs"

/-- The fields of the settings in order, with their values where they may be left out. -/
def fieldNames : List (String × Option Datum) :=
  [("case_study_name", none), (builderField, none), ("epsilon", none), ("sweeps_per_eval", none),
    ("seed", none), ("num_trials", none), ("max_steps", none), ("on_max_steps", none),
    ("results_path", none), ("figures_dir", none),
    ("mc_tolerance", some (.real standardTolerance)), (parametersField, some .blank)]

/-- The value of a field; blank parameters stand for no parameters. -/
def settled (name : String) (value : Datum) : Datum :=
  match value with
  | .blank => if name == parametersField then .mapping [] else .blank
  | other => other

/-- The fields of the settings from the given ones, in order. It is a fault if a field is given that
settings do not have, or one is missing that may not be left out. -/
def arrange (given : Table String Datum) : Except (Fault Float) (List (String × Datum)) :=
  if given.keys.all fun name => fieldNames.any fun field => field.1 == name then
    fieldNames.mapM fun field =>
      match (given.get? field.1).or field.2 with
      | some value => .ok (field.1, settled field.1 value)
      | none => .error .wrongType
  else .error .wrongType

def fields (experiment : Experiment) : List (String × Datum) :=
  [("case_study_name", .text experiment.name), (builderField, .procedure experiment.study.builder),
    ("epsilon", .real experiment.epsilon),
    ("sweeps_per_eval", .whole experiment.sweepsPerEvaluation),
    ("seed", experiment.seed.elim .blank .whole), ("num_trials", .whole experiment.trials),
    ("max_steps", .whole experiment.maxSteps), ("on_max_steps", .text experiment.limitMode),
    ("results_path", .text experiment.resultsPath), ("figures_dir", .text experiment.figuresPath),
    ("mc_tolerance", .real experiment.tolerance), (parametersField, experiment.study.parameters)]

def readText : Datum → Except (Fault Float) String
  | .text value => .ok value
  | _ => .error .wrongType

/-- Read a number. -/
def readReal : Datum → Except (Fault Float) Float
  | .real value => .ok value
  | .whole value => .ok (Float.ofInt value)
  | _ => .error .wrongType

def readWhole : Datum → Except (Fault Float) Int
  | .whole value => .ok value
  | _ => .error .wrongType

def readSeed : Datum → Except (Fault Float) (Option Int)
  | .blank => .ok none
  | value => do
    let seed ← readWhole value
    return some seed

/-- The experiment on a case study with the given settings. The case study itself gives the builder
and its parameters. -/
def ofFields (study : CaseStudy) (given : Table String Datum) :
    Except (Fault Float) Experiment := do
  let complete ← arrange ((given.insert builderField (.procedure study.builder)).insert
    parametersField study.parameters)
  let field (name : String) : Except (Fault Float) Datum :=
    match complete.find? fun entry => entry.1 == name with
    | some (_, value) => .ok value
    | none => .error .wrongType
  return {
    name := ← field "case_study_name" >>= readText
    study
    epsilon := ← field "epsilon" >>= readReal
    sweepsPerEvaluation := ← field "sweeps_per_eval" >>= readWhole
    seed := ← field "seed" >>= readSeed
    trials := ← field "num_trials" >>= readWhole
    maxSteps := ← field "max_steps" >>= readWhole
    limitMode := ← field "on_max_steps" >>= readText
    resultsPath := ← field "results_path" >>= readText
    figuresPath := ← field "figures_dir" >>= readText
    tolerance := ← field "mc_tolerance" >>= readReal }

/-- The experiment with some fields of its settings replaced. -/
def replace (experiment : Experiment) (changed : Table String Datum) :
    Except (Fault Float) Experiment :=
  ofFields experiment.study ((Table.ofPairs experiment.fields).insertAll changed.entries)

end Experiment

def recordJson (fields : List (String × Datum)) : Json := .object (Datum.toJsonFields fields)

end MarkovDecision
