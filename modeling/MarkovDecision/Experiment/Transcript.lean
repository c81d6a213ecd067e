import MarkovDecision.Chart.Figure
import MarkovDecision.Experiment.Results
import MarkovDecision.Inquiry

/-!
# Transcripts of runs

A run prints lines, notes events, writes files and draws figures. Its transcript holds them in
order, also if the run is stopped: by a fault, or because a loop has used up its budget.
-/

set_option autoImplicit false

namespace MarkovDecision

/-- What a run has left behind so far. The events are listed in order, as are the lines. -/
structure Transcript where
  printed : List String
  events : List (Event Float)
  files : List WrittenFile
  figures : List Chart.Figure

def Transcript.empty : Transcript := ⟨[], [], [], []⟩

/-- Why a run stops before its end. -/
inductive Stop where
  | fault (fault : Fault Float)
  | exhausted

/-- The state of a run: its transcript, and the rows of its model that have passed their check. -/
structure RunState where
  transcript : Transcript
  checked : Inquiry.Checked

/-- A run that comes to an answer or is stopped. What it leaves behind is kept in both cases. -/
abbrev Run (Answer : Type) := ExceptT Stop (StateM RunState) Answer

namespace Run

variable {Answer : Type}

def record (change : Transcript → Transcript) : Run Unit :=
  modify fun state => { state with transcript := change state.transcript }

def print (lines : List String) : Run Unit :=
  record fun transcript => { transcript with printed := transcript.printed ++ lines }

def orStop : Except (Fault Float) Answer → Run Answer
  | .ok answer => pure answer
  | .error fault => throw (.fault fault)

/-- Stop if a loop has used up its budget. -/
def finished : Option Answer → Run Answer
  | some answer => pure answer
  | none => throw .exhausted

/-- Let a model answer an inquiry. Its rows are checked once in a run. -/
def inquire (model : Model Float) (inquiry : Inquiry Float Answer) : Run Answer := do
  let state ← get
  let (outcome, checked) := inquiry.resume model state.checked
  set { state with checked }
  record fun transcript => { transcript with events := transcript.events ++ outcome.events }
  orStop outcome.result

def leave (files : List WrittenFile) : Run Unit :=
  record fun transcript => { transcript with files := transcript.files ++ files }

def keepPlot (plot : Chart.Plot) : Run Unit := do
  print plot.printed
  record fun transcript =>
    { transcript with figures := transcript.figures ++ plot.figure.toList }

/-- Go on from a state: how the run ends, and the state in which it ends. -/
def resume (run : Run Answer) (state : RunState) : Except Stop Answer × RunState :=
  (ExceptT.run run).run state

/-- Run from the beginning: how the run ends, and its transcript. -/
def start (run : Run Answer) : Except Stop Answer × Transcript :=
  let (ending, state) := run.resume ⟨.empty, {}⟩
  (ending, state.transcript)

end Run

end MarkovDecision
