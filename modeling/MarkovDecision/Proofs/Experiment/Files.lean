import MarkovDecision.Proofs.Coverage
import MarkovDecision.Proofs.Results

/-!
# Files of experiments

Any stage of an experiment may stop its run, but only one leaves files, and it comes after everything has
been found out. So a run that is stopped before leaves none. Once the stages have come to their findings,
these cover the states, and nothing but the path of the results can keep the files from being written.
They hold what was found: the document lists the states, and the sheet repeats its utilities.
-/

set_option autoImplicit false

namespace MarkovDecision

/-! ## Runs that go on from a state -/

namespace Run

variable {Answer Result : Type}

private theorem resume_bind (first : Run Answer) (next : Answer → Run Result) (state : RunState) :
    resume (first >>= next) state =
      match first.resume state with
      | (.ok answer, later) => (next answer).resume later
      | (.error stop, later) => (.error stop, later) := by
  simp only [resume, ExceptT.run_bind, StateT.run_bind]
  rcases (ExceptT.run first).run state with ⟨_ | answer, later⟩ <;> rfl

private theorem resume_orStop (computation : Except (Fault Float) Answer) (state : RunState) :
    (orStop computation).resume state = (computation.mapError .fault, state) := by
  cases computation <;> rfl

private theorem resume_inquire (model : Model Float) (inquiry : Inquiry Float Answer)
    (state : RunState) :
    (inquire model inquiry).resume state =
      ((inquiry.resume model state.checked).1.result.mapError .fault,
        ⟨{ state.transcript with
          events := state.transcript.events ++ (inquiry.resume model state.checked).1.events },
          (inquiry.resume model state.checked).2⟩) := by
  rw [inquire, resume_bind]
  change (orStop _).resume _ = _
  rw [resume_orStop]

private theorem mapError_eq_ok_iff {computation : Except (Fault Float) Answer} {answer : Answer} :
    computation.mapError Stop.fault = .ok answer ↔ computation = .ok answer := by
  cases computation <;> simp [Except.mapError]

/-- However the run ends, it keeps an invariant of its state, and its answer has a property. -/
def Keeps (run : Run Answer) (invariant : RunState → Prop) (holds : Answer → Prop) : Prop :=
  ∀ state, invariant state →
    invariant (run.resume state).2 ∧ ∀ answer, (run.resume state).1 = .ok answer → holds answer

variable {invariant : RunState → Prop} {holds : Answer → Prop}

theorem Keeps.pure {answer : Answer} (held : holds answer) :
    Keeps (Pure.pure answer) invariant holds := by
  rintro state kept
  refine ⟨kept, fun _ answered => ?_⟩
  cases answered
  exact held

theorem Keeps.bind {first : Run Answer} {next : Answer → Run Result} {later : Result → Prop}
    (keeps : first.Keeps invariant holds)
    (follows : ∀ answer, holds answer → (next answer).Keeps invariant later) :
    Keeps (first >>= next) invariant later := by
  intro state kept
  obtain ⟨still, answers⟩ := keeps state kept
  rw [resume_bind]
  generalize first.resume state = outcome at still answers
  obtain ⟨ending, after⟩ := outcome
  cases ending with
  | ok answer => exact follows answer (answers answer rfl) after still
  | error stop => exact ⟨still, fun _ answered => nomatch answered⟩

theorem Keeps.orStop (computation : Except (Fault Float) Answer) :
    (Run.orStop computation).Keeps invariant fun answer => computation = .ok answer := by
  intro state kept
  rw [resume_orStop]
  exact ⟨kept, fun _ answered => mapError_eq_ok_iff.mp answered⟩

theorem Keeps.finished (found : Option Answer) :
    (Run.finished found).Keeps invariant fun answer => found = some answer := by
  cases found with
  | some answer => exact Keeps.pure rfl
  | none => exact fun state kept => ⟨kept, fun _ answered => nomatch answered⟩

end Run

namespace Experiment

variable {experiment : Experiment} {conditions : Conditions} {subject : Subject}
  {findings : Findings} {files : List WrittenFile}

/-! ## Stages -/

/-- The run has left the given files so far, and the rows that it remembers have passed their check in
the model of the experiment. -/
structure HasLeft (experiment : Experiment) (files : List WrittenFile) (state : RunState) : Prop where
  files : state.transcript.files = files
  sound : ∀ model grid, experiment.study.build = .ok (model, grid) → state.checked.Sound model

private theorem keeps_print (lines : List String) :
    (Run.print lines).Keeps (experiment.HasLeft files) fun _ => True :=
  fun _ left => ⟨⟨left.files, left.sound⟩, fun _ _ => trivial⟩

private theorem keeps_keepPlot (plot : Chart.Plot) :
    (Run.keepPlot plot).Keeps (experiment.HasLeft files) fun _ => True :=
  fun _ left => ⟨⟨left.files, left.sound⟩, fun _ _ => trivial⟩

/-- The model answers as if it checked every row each time that it is asked for. -/
private theorem keeps_inquire {Answer : Type} {model : Model Float} {grid : Option (Grid Float)}
    (built : experiment.study.build = .ok (model, grid)) (inquiry : Inquiry Float Answer) :
    (Run.inquire model inquiry).Keeps (experiment.HasLeft files) fun answer =>
      inquiry.result model = .ok answer := by
  intro state left
  obtain ⟨same, sound⟩ := Inquiry.resume_eq_answer (left.sound _ _ built) inquiry
  rw [Run.resume_inquire, same]
  refine ⟨⟨left.files, fun _ _ also => ?_⟩, fun _ answered =>
    Run.mapError_eq_ok_iff.mp answered⟩
  cases built.symm.trans also
  exact sound

/-- What the stages of an experiment have found about its model. -/
structure Finds (experiment : Experiment) (conditions : Conditions) (subject : Subject)
    (findings : Findings) : Prop where
  built : experiment.study.build = .ok (subject.model, subject.grid)
  valid : subject.model.validate.result subject.model = .ok ()
  solved : (subject.model.valueIteration experiment.epsilon true conditions.budget).result
    subject.model = .ok (some findings.solution)
  improved : ∃ iteration, (subject.model.policyIteration experiment.sweepsPerEvaluation
      (.drawn (Generator.ofSeed experiment.seed) : StartingPolicy Float Generator)
      conditions.budget).result subject.model = .ok (some iteration) ∧
    findings.policy = iteration.policy ∧ findings.rounds = iteration.rounds.length
  gap : ∃ utility, (subject.model.evaluatePolicy findings.policy comparisonSweeps none).result
      subject.model = .ok utility ∧
    Utility.distance utility findings.solution.utility = .ok findings.gap
  estimated : (subject.model.evaluateByWalks Statistics.studentRules findings.solution.policy none
    experiment.batchSettings defaultSignificance (Generator.ofSeedAt experiment.seed)).result
      subject.model = .ok findings.estimates
  compared : compareEstimates findings.solution.utility findings.estimates experiment.tolerance =
    .ok findings.report
  counted : (subject.model.walkToEnds Statistics.studentRules
    (Statistics.rateInterval defaultSignificance) defaultSignificance findings.solution.policy
    experiment.batchSettings (Generator.ofSeed experiment.seed)).result subject.model =
      .ok (findings.start, findings.endings)

private theorem keeps_load : experiment.load.Keeps (experiment.HasLeft files) fun subject =>
    experiment.study.build = .ok (subject.model, subject.grid) ∧
      subject.model.validate.result subject.model = .ok () := by
  unfold load
  refine (keeps_print _).bind fun _ _ => (keeps_print _).bind fun _ _ => ?_
  refine (Run.Keeps.orStop _).bind fun (model, grid) built => ?_
  have keeps : (Run.inquire model model.validate).Keeps (experiment.HasLeft files) _ :=
    keeps_inquire built _
  exact keeps.bind fun _ valid => (keeps_print _).bind fun _ _ => .pure ⟨built, valid⟩

section Stages

variable (built : experiment.study.build = .ok (subject.model, subject.grid))
  (solution : Solution Float)

include built

private theorem keeps_solve :
    (experiment.solve conditions subject).Keeps (experiment.HasLeft files) fun solution =>
      (subject.model.valueIteration experiment.epsilon true conditions.budget).result
        subject.model = .ok (some solution) := by
  unfold solve
  refine (keeps_print _).bind fun _ _ => (keeps_inquire built _).bind fun found asked => ?_
  refine (Run.Keeps.finished found).bind fun solution done => (keeps_print _).bind fun _ _ => ?_
  refine (Run.Keeps.orStop _).bind fun _ _ => (keeps_print _).bind fun _ _ => ?_
  exact .pure (done ▸ asked)

private theorem keeps_compareSolvers :
    (experiment.compareSolvers conditions subject solution).Keeps (experiment.HasLeft files)
      fun found => ∃ iteration, (subject.model.policyIteration experiment.sweepsPerEvaluation
          (.drawn (Generator.ofSeed experiment.seed) : StartingPolicy Float Generator)
          conditions.budget).result subject.model = .ok (some iteration) ∧
        found.1 = iteration.policy ∧ found.2.1 = iteration.rounds.length ∧
        ∃ utility, (subject.model.evaluatePolicy found.1 comparisonSweeps none).result
            subject.model = .ok utility ∧
          Utility.distance utility solution.utility = .ok found.2.2 := by
  unfold compareSolvers
  refine (keeps_print _).bind fun _ _ => (keeps_inquire built _).bind fun found asked => ?_
  refine (Run.Keeps.finished found).bind fun iteration done => (keeps_print _).bind fun _ _ => ?_
  refine (Run.Keeps.orStop _).bind fun _ _ => (keeps_inquire built _).bind fun utility worth => ?_
  refine (Run.Keeps.orStop _).bind fun gap apart => (keeps_print _).bind fun _ _ => ?_
  refine (Run.Keeps.orStop _).bind fun _ _ => (keeps_print _).bind fun _ _ => ?_
  refine (keeps_print _).bind fun _ _ => .pure ?_
  exact ⟨iteration, done ▸ asked, rfl, rfl, utility, worth, apart⟩

private theorem keeps_crossCheck :
    (experiment.crossCheck subject solution).Keeps (experiment.HasLeft files) fun found =>
      (subject.model.evaluateByWalks Statistics.studentRules solution.policy none
        experiment.batchSettings defaultSignificance (Generator.ofSeedAt experiment.seed)).result
          subject.model = .ok found.1 ∧
      compareEstimates solution.utility found.1 experiment.tolerance = .ok found.2 := by
  unfold crossCheck
  refine (keeps_print _).bind fun _ _ => (keeps_inquire built _).bind fun estimates asked => ?_
  refine (Run.Keeps.orStop _).bind fun report compared => (keeps_print _).bind fun _ _ => ?_
  refine (Run.Keeps.orStop _).bind fun _ _ => (keeps_print _).bind fun _ _ => ?_
  exact .pure ⟨asked, compared⟩

private theorem keeps_countEndings :
    (experiment.countEndings subject solution).Keeps (experiment.HasLeft files) fun found =>
      (subject.model.walkToEnds Statistics.studentRules
        (Statistics.rateInterval defaultSignificance) defaultSignificance solution.policy
        experiment.batchSettings (Generator.ofSeed experiment.seed)).result subject.model =
          .ok found := by
  unfold countEndings
  refine (keeps_inquire built _).bind fun (start, endings) asked => ?_
  refine (Run.Keeps.orStop _).bind fun _ _ => (keeps_print _).bind fun _ _ => ?_
  refine (Run.Keeps.orStop _).bind fun _ _ => (keeps_print _).bind fun _ _ => ?_
  exact .pure asked

end Stages

theorem keeps_findOut (conditions : Conditions) :
    (experiment.findOut conditions).Keeps (experiment.HasLeft files) fun found =>
      experiment.Finds conditions found.1 found.2 := by
  unfold findOut
  refine keeps_load.bind fun subject ⟨built, valid⟩ => ?_
  refine (keeps_solve built).bind fun solution solved => ?_
  refine (keeps_compareSolvers built solution).bind fun (policy, rounds, gap) compared => ?_
  obtain ⟨iteration, improved, same, count, worth⟩ := compared
  refine (keeps_crossCheck built solution).bind fun (estimates, report) ⟨estimated, compared⟩ => ?_
  refine (keeps_countEndings built solution).bind fun (start, endings) counted => ?_
  exact .pure ⟨built, valid, solved, ⟨iteration, improved, same, count⟩, worth, estimated, compared,
    counted⟩

private theorem keeps_draw :
    (experiment.draw subject findings).Keeps (experiment.HasLeft files) fun _ => True := by
  unfold draw
  dsimp only
  split
  · exact (Run.Keeps.orStop _).bind fun _ absent => nomatch absent
  · refine (Run.Keeps.orStop _).bind fun _ _ => (Run.Keeps.orStop _).bind fun _ _ => ?_
    refine (keeps_keepPlot _).bind fun _ _ => (keeps_keepPlot _).bind fun _ _ => ?_
    refine (Run.Keeps.orStop _).bind fun _ _ => (keeps_keepPlot _).bind fun _ _ => ?_
    refine (Run.Keeps.orStop _).bind fun _ _ => (Run.Keeps.orStop _).bind fun _ _ => ?_
    exact keeps_keepPlot _

/-! ## Output -/

private theorem checkRow_fields (row : UtilityRow Float) :
    Sheet.checkRow (K := Float) utilityColumns row.fields = .ok () := rfl

/-- Every row fits the sheet, so only the path can be refused. -/
private theorem resultFiles_eq (path : String) (surroundings : Surroundings)
    (settings : List (String × Datum)) (results : Datum) (rows : List (UtilityRow Float)) :
    resultFiles path surroundings settings results (rows.map UtilityRow.fields) = (do
      checkFilePath path
      return filesOf path (resultDocument surroundings settings results)
        (rows.map UtilityRow.fields)) := by
  have checked : (rows.map UtilityRow.fields).forM (Sheet.checkRow (K := Float) utilityColumns) =
      .ok () := by
    refine forM_eq_ok_iff.mpr fun fields listed => ?_
    obtain ⟨row, -, rfl⟩ := List.mem_map.mp listed
    exact checkRow_fields row
  rw [resultFiles, checked]
  rfl

/-- The document that a run leaves. -/
def document (experiment : Experiment) (conditions : Conditions) (results : Datum) : Json :=
  resultDocument conditions.surroundings experiment.fields results

section Saving

variable {results : Datum} {rows : List (UtilityRow Float)} {state : RunState}
  (made : findings.results subject.model subject.label = .ok results)
  (listed : utilityRows experiment.name findings.report findings.estimates subject.label = .ok rows)

include made listed

private theorem save_refused {fault : Fault Float}
    (refused : checkFilePath experiment.resultsPath = .error fault) :
    (experiment.save conditions subject findings).resume state = (.error (.fault fault), state) := by
  unfold save
  rw [made, listed]
  simp only [Run.resume_bind, Run.resume_orStop, resultFiles_eq, refused]
  rfl

private theorem save_leaves (conditions : Conditions)
    (accepted : checkFilePath experiment.resultsPath = .ok ())
    (left : experiment.HasLeft [] state) :
    ∃ later, (experiment.save conditions subject findings).resume state = (.ok (), later) ∧
      experiment.HasLeft (filesOf experiment.resultsPath (experiment.document conditions results)
        (rows.map UtilityRow.fields)) later := by
  unfold save
  rw [made, listed]
  simp only [Run.resume_bind, Run.resume_orStop, resultFiles_eq, accepted]
  refine ⟨_, rfl, ?_, left.sound⟩
  change state.transcript.files ++ _ = _
  rw [left.files, List.nil_append, document]

end Saving

/-! ## Findings -/

/-- The findings of the stages cover the states, and no other states are solved. -/
theorem Finds.complete (finds : experiment.Finds conditions subject findings) :
    findings.Complete subject.model ∧
      ∀ state ∈ findings.solution.utility.keys, state ∈ subject.model.states := by
  obtain ⟨iteration, improved, same, -⟩ := finds.improved
  obtain ⟨batch, -, counted⟩ := Inquiry.result_bind_eq_ok_iff.mp finds.counted
  have endings : subject.model.endingRates (Statistics.rateInterval defaultSignificance)
      batch.rollouts = findings.endings := congrArg Prod.snd (Except.ok.inj counted)
  have covers := Model.keys_of_valueIteration finds.solved
  refine ⟨⟨fun state member => ?_, fun state member => ?_, fun state member => ?_,
    fun ending listed => ?_⟩, fun state => (covers state).1.mp⟩
  · exact (covers state).1.mpr member
  · exact (covers state).2.mpr member
  · exact same ▸ Model.keys_of_policyIteration improved member
  · rw [← endings] at listed
    obtain ⟨state, terminal, rfl⟩ := List.mem_map.mp listed
    exact (Table.mem_keys_ofKeys _ _ _).mp (List.mem_mergeSort.mp terminal)

/-- A document and rows tell the findings: the document lists the states with their utilities and with
the actions of both policies, and there is one row for each state of the cross-check, with the utility
that the document has under the label of the row. -/
structure Tells (subject : Subject) (findings : Findings) (document : Json)
    (rows : List (UtilityRow Float)) : Prop where
  utility : subject.model.ListedAt subject.label document ["results", "value_iteration", "utility"]
    findings.solution.utility .real
  policy : subject.model.ListedAt subject.label document ["results", "value_iteration", "policy"]
    findings.solution.policy .ofIdent
  improved : subject.model.ListedAt subject.label document ["results", "policy_iteration", "policy"]
    findings.policy .ofIdent
  distinct : (rows.map UtilityRow.label).Nodup
  rows : List.Forall₂ (fun state row => subject.label state = .ok row.label ∧
    document.at? ["results", "value_iteration", "utility", row.label] = some (.real row.analytic))
    findings.report.keys rows

/-- Findings of the stages can be written down. -/
theorem Finds.exists_tells (finds : experiment.Finds conditions subject findings) :
    ∃ results rows, findings.results subject.model subject.label = .ok results ∧
      utilityRows experiment.name findings.report findings.estimates subject.label = .ok rows ∧
      Tells subject findings (experiment.document conditions results) rows := by
  obtain ⟨complete, solved⟩ := finds.complete
  have known := Subject.known_of_build finds.built
  have apart := Subject.toldApart finds.built
  obtain ⟨results, made⟩ := complete.exists_results
    (fun state member => Subject.exists_label finds.built (.inl member))
    (Subject.exists_label finds.built known.1)
    fun state terminal => Subject.exists_label finds.built (known.2 state terminal)
  obtain ⟨utility, policy, improved⟩ := listedAt_of_results apart made
  obtain ⟨rows, listed, distinct, each⟩ :=
    exists_rows_of_results apart made solved finds.compared experiment.name
  exact ⟨results, rows, made, listed, utility, policy, improved, distinct, each⟩

/-- A run that is stopped before it has found everything out leaves no file, and neither does one whose
path is refused. Every other run leaves its document and its sheet, also if it is stopped later, and they
tell what its stages have found. -/
theorem run_files (experiment : Experiment) (conditions : Conditions) :
    (∀ stop, (experiment.findOut conditions).start.1 = .error stop →
      (experiment.run conditions).start.1 = .error stop ∧
      (experiment.run conditions).start.2.files = []) ∧
    ∀ subject findings, (experiment.findOut conditions).start.1 = .ok (subject, findings) →
      experiment.Finds conditions subject findings ∧
      (∀ fault, checkFilePath experiment.resultsPath = .error fault →
        (experiment.run conditions).start.1 = .error (.fault fault) ∧
        (experiment.run conditions).start.2.files = []) ∧
      (checkFilePath experiment.resultsPath = .ok () → ∃ results rows,
        (experiment.run conditions).start.2.files = filesOf experiment.resultsPath
          (experiment.document conditions results) (rows.map UtilityRow.fields) ∧
        Tells subject findings (experiment.document conditions results) rows) := by
  have begins : experiment.HasLeft [] ⟨.empty, {}⟩ :=
    ⟨rfl, fun model _ _ => Inquiry.Checked.sound_empty model⟩
  obtain ⟨left, finds⟩ := keeps_findOut conditions _ begins
  unfold run Run.start
  rw [Run.resume_bind]
  generalize (experiment.findOut conditions).resume ⟨.empty, {}⟩ = outcome at left finds ⊢
  obtain ⟨ending, state⟩ := outcome
  refine ⟨?_, ?_⟩
  · rintro stop rfl
    exact ⟨rfl, left.files⟩
  · rintro subject findings rfl
    have found : experiment.Finds conditions subject findings := finds _ rfl
    obtain ⟨results, rows, made, listed, tells⟩ := found.exists_tells
    refine ⟨found, fun fault refused => ?_, fun accepted => ?_⟩
    · dsimp only
      rw [Run.resume_bind, save_refused made listed refused]
      exact ⟨rfl, left.files⟩
    · obtain ⟨later, saved, holds⟩ := save_leaves made listed conditions accepted left
      dsimp only
      rw [Run.resume_bind, saved]
      refine ⟨results, rows, ?_, tells⟩
      -- What follows prints and draws, so whatever stops it, the files stay.
      exact ((keeps_print _).bind (fun _ _ => keeps_draw.bind fun _ _ => keeps_print _) _ holds).1.files

end Experiment

end MarkovDecision
