import MarkovDecision.Experiment.Outcomes
import MarkovDecision.Experiment.Settings
import MarkovDecision.Experiment.UtilityRows
import MarkovDecision.Grid.Label
import MarkovDecision.Solve.PolicyIteration
import MarkovDecision.Solve.ValueIteration
import MarkovDecision.Text.Path

/-!
# Results of experiments

An experiment leaves a JSON document with its provenance and results and, if states were
cross-checked, a sheet beside it. In the document every state is known by its label.
-/

set_option autoImplicit false

namespace MarkovDecision

/-! ## The results -/

/-- What an experiment finds out. -/
structure Findings where
  solution : Solution Float
  policy : Policy
  rounds : Nat
  gap : Float
  estimates : Estimates Float
  report : Report Float
  start : Estimate Float
  endings : List (EndingRate Float)

def labelled {Value : Type} (label : Ident → Except (Fault Float) String)
    (items : List (Ident × Value)) (write : Value → Datum) : Except (Fault Float) Datum := do
  let pairs ← items.mapM fun item => do
    let name ← label item.1
    return (name, write item.2)
  return .mapping ((Table.ofPairs pairs).entries.map fun entry => (.text entry.1, entry.2))

def Model.valuesIn {Value : Type} (model : Model Float) (table : Table Ident Value) :
    Except (Fault Float) (List (Ident × Value)) :=
  model.states.mapM fun state => do
    let value ← table.demand state
    return (state, value)

def textMapping (entries : List (String × Datum)) : Datum :=
  .mapping (entries.map fun entry => (.text entry.1, entry.2))

def EndingRate.datum (ending : EndingRate Float) : Datum :=
  textMapping [("rate", .real ending.rate), ("ci_low", .real ending.low),
    ("ci_high", .real ending.high)]

/-- The part of the results that is about value iteration. -/
def Findings.solutionPart (findings : Findings) (model : Model Float)
    (label : Ident → Except (Fault Float) String) : Except (Fault Float) Datum := do
  let utility ← labelled label (← model.valuesIn findings.solution.utility) .real
  let policy ← labelled label (← model.valuesIn findings.solution.policy) .ofIdent
  return textMapping [("iterations", .whole findings.solution.iterations),
    ("deltas", .list (findings.solution.deltas.map .real)), ("utility", utility),
    ("policy", policy)]

/-- The part of the results that is about policy iteration. -/
def Findings.policyPart (findings : Findings) (model : Model Float)
    (label : Ident → Except (Fault Float) String) : Except (Fault Float) Datum := do
  let policy ← labelled label (← model.valuesIn findings.policy) .ofIdent
  return textMapping [("rounds", .whole findings.rounds), ("max_norm_gap", .real findings.gap),
    ("policy", policy)]

def Findings.walkPart (findings : Findings) (model : Model Float)
    (label : Ident → Except (Fault Float) String) : Except (Fault Float) Datum := do
  let start ← label model.initial
  let endings ← labelled label (findings.endings.map fun ending => (ending.state, ending))
    EndingRate.datum
  return textMapping [("start_state", .text start), ("start_mean", .real findings.start.mean),
    ("start_ci", .list [.real findings.start.low, .real findings.start.high]),
    ("discarded", .whole findings.start.discarded), ("terminal_outcomes", endings)]

def Findings.results (findings : Findings) (model : Model Float)
    (label : Ident → Except (Fault Float) String) : Except (Fault Float) Datum := do
  let solution ← findings.solutionPart model label
  let policy ← findings.policyPart model label
  let walks ← findings.walkPart model label
  return textMapping [("value_iteration", solution), ("policy_iteration", policy),
    ("monte_carlo", walks)]

/-! ## Provenance -/

/-- What is known of the surroundings of a run. -/
structure Surroundings where
  timestamp : Option String
  revision : Option String
  host : Option String
  platform : Option String
  interpreter : Option String
  arithmetic : Option String

def Surroundings.unknown : Surroundings := ⟨none, none, none, none, none, none⟩

def documentVersion : String := "0.1.0"

def provenance (surroundings : Surroundings) (settings : List (String × Datum)) : Json :=
  let known (value : Option String) : Json := value.elim .null .text
  .object [("timestamp", known surroundings.timestamp),
    ("git_revision", known surroundings.revision), ("host", known surroundings.host),
    ("platform", known surroundings.platform), ("python", known surroundings.interpreter),
    ("numpy", known surroundings.arithmetic), ("mdp_planning", .text documentVersion),
    ("config", recordJson settings)]

/-! ## Files -/

/-- What a file holds. -/
inductive FileContent where
  | document (value : Json)
  | sheet (columns : List String) (rows : List SheetRow)

def FileContent.text : FileContent → String
  | .document value => value.document
  | .sheet columns rows => Sheet.document columns rows

/-- A file that a run leaves behind. -/
structure WrittenFile where
  path : String
  content : FileContent

/-- Refuse a path at which no file can be written. -/
def checkFilePath (path : String) : Except (Fault Float) Unit :=
  if path.isEmpty then .error (.badPath (.nothingThere path))
  else if ["", ".", ".."].contains (Text.Path.fileName path) then
    .error (.badPath (.isFolder path))
  else .ok ()

def sheetPath (path : String) : String := Text.Path.withoutExtension path ++ "_utilities.csv"

def resultDocument (surroundings : Surroundings) (settings : List (String × Datum))
    (results : Datum) : Json :=
  .object [("provenance", provenance surroundings settings), ("results", results.toJson)]

/-- The document of a run and, if there are rows, the sheet beside it. -/
def filesOf (path : String) (document : Json) (rows : List SheetRow) : List WrittenFile :=
  ⟨path, .document document⟩ ::
    if rows.isEmpty then [] else [⟨sheetPath path, .sheet utilityColumns rows⟩]

/-- The files of a run, if they can be written. -/
def resultFiles (path : String) (surroundings : Surroundings)
    (settings : List (String × Datum)) (results : Datum) (rows : List SheetRow) :
    Except (Fault Float) (List WrittenFile) := do
  checkFilePath path
  rows.forM (Sheet.checkRow utilityColumns)
  return filesOf path (resultDocument surroundings settings results) rows

end MarkovDecision
