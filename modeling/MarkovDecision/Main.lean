import MarkovDecision.Chart.Script
import MarkovDecision.Event.Message
import MarkovDecision.Experiment.Command

/-!
# The command line

Runs the command on the arguments of the program, prints its lines, writes its files and ends with
its exit code. Events of a run go to the error output unless they are details. The script of a
figure is left where its picture belongs, for a renderer to draw.
-/

set_option autoImplicit false

open MarkovDecision

/-- The number of sweeps or rounds after which a loop is given up. -/
def loopBudget : Nat := 1000000000

def writeInFolder (path text : String) : IO Unit := do
  let folder := Text.Path.folder path
  if !folder.isEmpty then IO.FS.createDirAll folder
  IO.FS.writeFile path text

/-- Write the files of a run and the scripts of its figures. -/
def writeOut (transcript : Transcript) : IO Unit := do
  for file in transcript.files do
    writeInFolder file.path file.content.text
  for figure in transcript.figures do
    for stroke in figure.strokes do
      if let .save path := stroke then
        writeInFolder (Text.Path.withoutExtension path ++ ".json") figure.script.document

/-- Show the events of a run that are no details. -/
def showEvents (transcript : Transcript) : IO Unit := do
  for event in transcript.events do
    match event.level with
    | .debug => pure ()
    | level => IO.eprintln s!"{level.text} {event.channel}: {event.message}"

def main (arguments : List String) : IO UInt32 := do
  let conditions : Experiment.Conditions := ⟨fun _ => 0, .unknown, loopBudget⟩
  let (ending, transcript) := (runCommand arguments conditions .ok).start
  for line in transcript.printed do
    IO.println line
  showEvents transcript
  writeOut transcript
  match ending with
  | .ok code => return code.toUInt32
  | .error (.fault fault) =>
    IO.eprintln fault.message
    return 1
  | .error .exhausted =>
    IO.eprintln "the run was given up"
    return 1
