import MarkovDecision.Event.Message
import MarkovDecision.Proofs.Lookup
import MarkovDecision.Proofs.Validation
import MarkovDecision.Simulate.Batch

/-!
# Batches as sequences of rollouts

Nothing is assumed about the rows of the model, about arithmetic or about the source. A walk then
reaches a terminal state, is cut, or fails on a look-up, and how many uniforms it has taken follows
from how it ended. The trials of a batch are single rollouts, each of them fed by the source as the
one before has left it. What a batch returns, in either mode and for any smaller number of trials, is
read off that one list of trials.
-/

set_option autoImplicit false

namespace MarkovDecision

variable {K : Type} [Scalar K]

/-- The source once it has handed out a number of uniforms. -/
def skip {K Source : Type} [UniformSource Source K] (count : Nat) (source : Source) : Source :=
  (fun before => (UniformSource.uniform before).2)^[count] source

section Walking

variable {Source : Type} [UniformSource Source K] {model : Model K} {policy : Policy}
  {start : Ident} {limit : Int} {keep : Bool} {source later : Source}

/-! ## What a walk takes from its source -/

/-- How a walk ends that may make `allowed` steps after the first `before`: one that reaches a
terminal state has taken a uniform for each of its steps, and one that is cut a uniform for each step
that it was allowed. -/
def WalkEnd.Took (before allowed : Nat) (source : Source) : WalkEnd K × Source → Prop
  | (.absorbed position, later) =>
    ∃ made ≤ allowed, position.steps = before + made ∧ later = skip made source
  | (.cut _, later) => later = skip allowed source

private theorem Model.yields_walkFrom (model : Model K) (policy : Policy) (keep : Bool)
    (allowed : Nat) (position : Position K) (source : Source) :
    (model.walkFrom policy keep allowed position source).Yields model
      (WalkEnd.Took position.steps allowed source) := by
  induction allowed generalizing position source with
  | zero =>
      rw [Model.walkFrom]
      split
      · exact ⟨0, Nat.le_refl 0, rfl, rfl⟩
      · exact rfl
  | succ allowed ih =>
      rw [Model.walkFrom]
      split
      · exact ⟨0, Nat.zero_le _, rfl, rfl⟩
      · have demanded : (liftM (policy.demand position.state : Except (Fault K) Ident) :
            Inquiry K Ident).Yields model fun _ => True :=
          .of_except (fun _ _ => trivial) fun _ => Table.demand_fault
        refine demanded.bind fun action _ _ => ?_
        refine (model.yields_rowOf position.state action).bind fun row _ _ => ?_
        refine (ih _ _).mono fun answer _ took => ?_
        obtain ⟨ending, later⟩ := answer
        cases ending with
        | cut last => exact took
        | absorbed last =>
            obtain ⟨made, fits, counted, rest⟩ := took
            refine ⟨made + 1, Nat.succ_le_succ fits, counted.trans ?_, rest⟩
            simp only [Position.advance]
            omega

private theorem Model.walkFrom_silent (allowed : Nat) (position : Position K) (source : Source) :
    (model.walkFrom policy keep allowed position source).Silent model := by
  induction allowed generalizing position source with
  | zero =>
      rw [Model.walkFrom]
      split <;> exact .pure _
  | succ allowed ih =>
      rw [Model.walkFrom]
      split
      · exact .pure _
      · exact .bind (.liftM _) fun action => .bind (.rowOf _ _) fun row => ih _ _

private theorem Model.walk_cases (model : Model K) (policy : Policy) (start : Ident) (limit : Int)
    (keep : Bool) (source : Source) :
    (∃ position, (model.walk policy start limit keep source).result model =
        .ok (.absorbed position, skip position.steps source)) ∨
      (∃ last, (model.walk policy start limit keep source).result model =
        .ok (.cut last, skip limit.toNat source)) ∨
      ∃ fault, (model.walk policy start limit keep source).result model = .error fault ∧
        fault.OfLookup := by
  have yields := model.yields_walkFrom policy keep limit.toNat (.start start) source
  unfold Inquiry.Yields at yields
  cases run : (model.walk policy start limit keep source).result model with
  | error fault =>
      rw [← Model.walk, run] at yields
      exact .inr (.inr ⟨fault, rfl, yields⟩)
  | ok answer =>
      rw [← Model.walk, run] at yields
      obtain ⟨ending, later⟩ := answer
      cases ending with
      | absorbed position =>
          obtain ⟨made, -, counted, rfl⟩ := yields
          rw [Position.start, Nat.zero_add] at counted
          exact .inl ⟨position, by rw [counted]⟩
      | cut last => exact .inr (.inl ⟨last, by rw [show later = _ from yields]⟩)

/-! ## Single rollouts -/

theorem Model.result_rollout_eq_ok_iff {trial : Int} {rollout : Rollout K} :
    (model.rollout policy start trial limit keep source).result model = .ok (rollout, later) ↔
      ∃ position, (model.walk policy start limit keep source).result model =
        .ok (.absorbed position, later) ∧ rollout = position.rollout trial := by
  rw [Model.rollout, Inquiry.result_bind]
  constructor
  · intro run
    obtain ⟨⟨ending, left⟩, walked, run⟩ := bind_eq_ok_iff.mp run
    cases ending with
    | cut last => cases run
    | absorbed position =>
        cases run
        exact ⟨position, walked, rfl⟩
  · rintro ⟨position, walked, rfl⟩
    rw [walked]
    rfl

private theorem Model.result_rollout_of_cut {last : Ident} (trial : Int)
    (walked : (model.walk policy start limit keep source).result model = .ok (.cut last, later)) :
    (model.rollout policy start trial limit keep source).result model =
      .error (.walkCut trial limit last) := by
  rw [Model.rollout, Inquiry.result_bind, walked]
  rfl

private theorem Model.result_walk_of_fault {trial : Int} {fault : Fault K} (lookup : fault.OfLookup)
    (run : (model.rollout policy start trial limit keep source).result model = .error fault) :
    (model.walk policy start limit keep source).result model = .error fault := by
  rw [Model.rollout, Inquiry.result_bind] at run
  cases walked : (model.walk policy start limit keep source).result model with
  | error earlier =>
      rw [walked, error_bind] at run
      cases run
      rfl
  | ok answer =>
      obtain ⟨ending, left⟩ := answer
      rw [walked, ok_bind] at run
      cases ending with
      | absorbed position => cases run
      | cut last =>
          -- A walk that is cut has not failed on a look-up.
          cases run
          cases lookup

/-! ## Trials -/

/-- How a trial ended: with a finished walk, or with one that was cut in a state. -/
inductive Trial (K : Type) where
  | finished (rollout : Rollout K)
  | dropped (index : Nat) (last : Ident)

namespace Trial

def number : Trial K → Int
  | finished rollout => rollout.trial
  | dropped index _ => index

def rollout? : Trial K → Option (Rollout K)
  | finished rollout => some rollout
  | dropped _ _ => none

def cut? : Trial K → Option (Nat × Ident)
  | finished _ => none
  | dropped index last => some (index, last)

end Trial

/-- The trials that were cut, each with the state it was cut in. -/
def cuts (trials : List (Trial K)) : List (Nat × Ident) := trials.filterMap Trial.cut?

/-- The finished walks among some trials, and how many of the trials were cut. -/
def Batch.ofTrials (trials : List (Trial K)) : Batch K :=
  ⟨trials.filterMap Trial.rollout?, (cuts trials).length⟩

section Lists

variable {K : Type} (rollout : Rollout K) (index : Nat) (last : Ident) (trials : List (Trial K))

@[simp] theorem cuts_finished : cuts (.finished rollout :: trials) = cuts trials := rfl

@[simp] theorem cuts_dropped :
    cuts (.dropped index last :: trials) = (index, last) :: cuts trials := rfl

@[simp] theorem Batch.ofTrials_nil : Batch.ofTrials ([] : List (Trial K)) = ⟨[], 0⟩ := rfl

@[simp] theorem Batch.ofTrials_finished :
    Batch.ofTrials (.finished rollout :: trials) =
      ⟨rollout :: (Batch.ofTrials trials).rollouts, (Batch.ofTrials trials).discarded⟩ := rfl

@[simp] theorem Batch.ofTrials_dropped :
    Batch.ofTrials (.dropped index last :: trials) =
      ⟨(Batch.ofTrials trials).rollouts, 1 + (Batch.ofTrials trials).discarded⟩ := by
  simp only [Batch.ofTrials, cuts_dropped, List.length_cons, Nat.cast_succ, add_comm]
  rfl

/-- No trial is lost. -/
theorem Batch.length_add_discarded :
    ((Batch.ofTrials trials).rollouts.length : Int) + (Batch.ofTrials trials).discarded =
      trials.length := by
  induction trials with
  | nil => rfl
  | cons trial rest ih =>
      cases trial with
      | finished rollout =>
          simp only [Batch.ofTrials_finished, List.length_cons, Nat.cast_succ]
          omega
      | dropped index last =>
          simp only [Batch.ofTrials_dropped, List.length_cons, Nat.cast_succ]
          omega

private theorem cuts_take_isPrefix (fewer : Nat) :
    cuts (trials.take fewer) <+: cuts trials :=
  (List.take_prefix fewer trials).filterMap _

private theorem Batch.ofTrials_take_isPrefix (fewer : Nat) :
    (Batch.ofTrials (trials.take fewer)).rollouts <+: (Batch.ofTrials trials).rollouts :=
  (List.take_prefix fewer trials).filterMap _

end Lists

/-- The trials that a source feeds, from the number `index` on. Each is the single rollout of that
number and leaves the source to the next one: after as many uniforms as it made steps, or after as many
as it was allowed if it was cut. The list ends after `count` trials, or before a rollout that fails
on a look-up. -/
inductive Model.Trials (model : Model K) (policy : Policy) (start : Ident) (limit : Int)
    (keep : Bool) : Nat → Nat → Source → List (Trial K) → Option (Fault K) → Prop
  | done (index : Nat) (source : Source) :
      Trials model policy start limit keep index 0 source [] none
  | failed {index count : Nat} {source : Source} {fault : Fault K}
      (run : (model.rollout policy start index limit keep source).result model = .error fault)
      (lookup : fault.OfLookup) :
      Trials model policy start limit keep index (count + 1) source [] (some fault)
  | finished {index count : Nat} {source : Source} {rollout : Rollout K} {trials : List (Trial K)}
      {failure : Option (Fault K)}
      (run : (model.rollout policy start index limit keep source).result model =
        .ok (rollout, skip rollout.steps.toNat source))
      (rest : Trials model policy start limit keep (index + 1) count
        (skip rollout.steps.toNat source) trials failure) :
      Trials model policy start limit keep index (count + 1) source (.finished rollout :: trials)
        failure
  | dropped {index count : Nat} {source : Source} {last : Ident} {trials : List (Trial K)}
      {failure : Option (Fault K)}
      (run : (model.rollout policy start index limit keep source).result model =
        .error (.walkCut index limit last))
      (walked : (model.walk policy start limit keep source).result model =
        .ok (.cut last, skip limit.toNat source))
      (rest : Trials model policy start limit keep (index + 1) count (skip limit.toNat source)
        trials failure) :
      Trials model policy start limit keep index (count + 1) source (.dropped index last :: trials)
        failure

variable {index count : Nat} {trials : List (Trial K)} {failure : Option (Fault K)}

theorem Model.exists_trials (model : Model K) (policy : Policy) (start : Ident) (limit : Int)
    (keep : Bool) (index count : Nat) (source : Source) :
    ∃ trials failure, model.Trials policy start limit keep index count source trials failure := by
  induction count generalizing index source with
  | zero => exact ⟨[], none, .done index source⟩
  | succ count ih =>
      rcases model.walk_cases policy start limit keep source with
        ⟨position, walked⟩ | ⟨last, walked⟩ | ⟨fault, walked, lookup⟩
      · obtain ⟨trials, failure, rest⟩ := ih (index + 1) (skip position.steps source)
        have ran : (model.rollout policy start index limit keep source).result model =
            .ok (position.rollout index, skip (position.rollout index).steps.toNat source) :=
          Model.result_rollout_eq_ok_iff.mpr ⟨position, walked, rfl⟩
        exact ⟨_, failure, .finished ran rest⟩
      · obtain ⟨trials, failure, rest⟩ := ih (index + 1) (skip limit.toNat source)
        exact ⟨_, failure, .dropped (Model.result_rollout_of_cut index walked) walked rest⟩
      · refine ⟨[], some fault, .failed ?_ lookup⟩
        rw [Model.rollout, Inquiry.result_bind, walked, error_bind]

theorem Model.Trials.length_eq_of_none
    (run : model.Trials policy start limit keep index count source trials none) :
    trials.length = count := by
  generalize same : (none : Option (Fault K)) = failure at run
  induction run with
  | done => rfl
  | failed => cases same
  | finished _ _ ih => exact congrArg Nat.succ (ih same)
  | dropped _ _ _ ih => exact congrArg Nat.succ (ih same)

/-- Trials are numbered one after the other. -/
theorem Model.Trials.numbers
    (run : model.Trials policy start limit keep index count source trials failure) :
    trials.map Trial.number = (List.range' index trials.length).map Int.ofNat := by
  induction run with
  | done => rfl
  | failed => rfl
  | finished run _ ih =>
      obtain ⟨position, -, rfl⟩ := Model.result_rollout_eq_ok_iff.mp run
      rw [List.map_cons, ih]
      rfl
  | dropped _ _ _ ih =>
      rw [List.map_cons, ih]
      rfl

/-- The trials of a smaller batch are the first ones of a larger. -/
theorem Model.Trials.take
    (run : model.Trials policy start limit keep index count source trials failure) {fewer : Nat}
    (fits : fewer ≤ count) :
    model.Trials policy start limit keep index fewer source (trials.take fewer)
      (if trials.length < fewer then failure else none) := by
  induction run generalizing fewer with
  | done index source =>
      cases Nat.le_zero.mp fits
      exact .done index source
  | failed run lookup =>
      cases fewer with
      | zero => exact .done _ _
      | succ fewer => exact .failed run lookup
  | finished run rest ih =>
      cases fewer with
      | zero => exact .done _ _
      | succ fewer =>
          simp only [List.take_succ_cons, List.length_cons, Nat.add_lt_add_iff_right]
          exact .finished run (ih (Nat.le_of_succ_le_succ fits))
  | dropped run walked rest ih =>
      cases fewer with
      | zero => exact .done _ _
      | succ fewer =>
          simp only [List.take_succ_cons, List.length_cons, Nat.add_lt_add_iff_right]
          exact .dropped run walked (ih (Nat.le_of_succ_le_succ fits))

/-! ## What a batch returns -/

theorem Model.Trials.answer_discard
    (run : model.Trials policy start limit keep index count source trials failure)
    (done : Batch K) :
    (model.runTrials policy start limit .discard keep count index source done).answer model =
      ⟨failure.elim (.ok ⟨done.rollouts.reverse ++ (Batch.ofTrials trials).rollouts,
          done.discarded + (Batch.ofTrials trials).discarded⟩) .error,
        (cuts trials).map fun cut => .walkDropped cut.1 limit cut.2⟩ := by
  induction run generalizing done with
  | done index source =>
      simp only [Batch.ofTrials_nil, List.append_nil, add_zero]
      rfl
  | failed run lookup =>
      exact (Model.walkFrom_silent _ _ _).answer_bind_of_fault
        (Model.result_walk_of_fault lookup run)
  | finished run rest ih =>
      obtain ⟨position, walked, rfl⟩ := Model.result_rollout_eq_ok_iff.mp run
      refine ((Model.walkFrom_silent _ _ _).answer_bind walked).trans ((ih _).trans ?_)
      simp only [List.reverse_cons, List.append_assoc, List.singleton_append, cuts_finished,
        Batch.ofTrials_finished]
  | dropped run walked rest ih =>
      refine ((Model.walkFrom_silent _ _ _).answer_bind walked).trans ?_
      -- The report comes first and the rest of the batch after it.
      refine (congrArg (Inquiry.Outcome.after _) (ih _)).trans ?_
      simp only [Inquiry.Outcome.after, cuts_dropped, List.map_cons, Batch.ofTrials_dropped,
        add_assoc]

theorem Model.Trials.answer_refuse
    (run : model.Trials policy start limit keep index count source trials failure)
    (done : Batch K) :
    (model.runTrials policy start limit .refuse keep count index source done).answer model =
      ⟨match (cuts trials).head? with
        | some (index, last) => .error (.walkCut index limit last)
        | none => failure.elim (.ok ⟨done.rollouts.reverse ++ (Batch.ofTrials trials).rollouts,
            done.discarded⟩) .error, []⟩ := by
  induction run generalizing done with
  | done index source =>
      simp only [Batch.ofTrials_nil, List.append_nil]
      rfl
  | failed run lookup =>
      exact (Model.walkFrom_silent _ _ _).answer_bind_of_fault
        (Model.result_walk_of_fault lookup run)
  | finished run rest ih =>
      obtain ⟨position, walked, rfl⟩ := Model.result_rollout_eq_ok_iff.mp run
      refine ((Model.walkFrom_silent _ _ _).answer_bind walked).trans ((ih _).trans ?_)
      simp only [List.reverse_cons, List.append_assoc, List.singleton_append, cuts_finished,
        Batch.ofTrials_finished]
  | dropped run walked rest ih => exact (Model.walkFrom_silent _ _ _).answer_bind walked

/-! ## Stored trajectories -/

def Position.bare (position : Position K) : Position K := { position with kept := [] }

def WalkEnd.bare : WalkEnd K → WalkEnd K
  | .absorbed position => .absorbed position.bare
  | .cut last => .cut last

def Rollout.bare (rollout : Rollout K) : Rollout K := { rollout with trajectory := [] }

def Batch.bare (batch : Batch K) : Batch K := ⟨batch.rollouts.map Rollout.bare, batch.discarded⟩

/-- A walk that stores its steps asks the same questions and ends the same way. -/
private theorem Model.walkFrom_bare (allowed : Nat) (position : Position K) (source : Source) :
    Prod.map WalkEnd.bare id <$> model.walkFrom policy keep allowed position source =
      model.walkFrom policy false allowed position.bare source := by
  induction allowed generalizing position source with
  | zero =>
      rw [Model.walkFrom, Model.walkFrom, apply_ite (Functor.map (Prod.map WalkEnd.bare id))]
      rfl
  | succ allowed ih =>
      rw [Model.walkFrom, Model.walkFrom, apply_ite (Functor.map (Prod.map WalkEnd.bare id))]
      refine if_congr Iff.rfl rfl ?_
      simp only [map_bind, ih]
      rfl

private theorem Model.walk_bare (keep : Bool) (source : Source) :
    Prod.map WalkEnd.bare id <$> model.walk policy start limit keep source =
      model.walk policy start limit false source :=
  Model.walkFrom_bare limit.toNat (.start start) source

theorem Model.rollout_bare (trial : Int) (source : Source) :
    Prod.map Rollout.bare id <$> model.rollout policy start trial limit keep source =
      model.rollout policy start trial limit false source := by
  rw [Model.rollout, Model.rollout, ← Model.walk_bare keep, map_bind, bind_map_left]
  refine congrArg _ (funext fun answer => ?_)
  obtain ⟨ending, later⟩ := answer
  cases ending with
  | absorbed position => rfl
  | cut last => rfl

private theorem Model.runTrials_bare (mode : LimitMode) (remaining trial : Nat) (source : Source)
    (done : Batch K) :
    Batch.bare <$> model.runTrials policy start limit mode keep remaining trial source done =
      model.runTrials policy start limit mode false remaining trial source done.bare := by
  induction remaining generalizing trial source done with
  | zero =>
      rw [Model.runTrials, Model.runTrials, map_pure, Batch.bare, Batch.bare, List.map_reverse]
  | succ remaining ih =>
      rw [Model.runTrials, Model.runTrials, ← Model.walk_bare keep, map_bind, bind_map_left]
      refine congrArg _ (funext fun answer => ?_)
      obtain ⟨ending, later⟩ := answer
      cases ending with
      | absorbed position => exact ih _ _ _
      | cut last =>
          cases mode with
          | refuse => rfl
          | discard =>
              change Batch.bare <$> (Inquiry.report _ >>= fun _ => _) = _
              simp only [map_bind, ih]
              rfl

private theorem Model.runBatch_bare (count : Int) (mode : String)
    (source : Except (Fault K) Source) :
    Batch.bare <$> model.runBatch policy start ⟨count, limit, mode, keep⟩ source =
      model.runBatch policy start ⟨count, limit, mode, false⟩ source := by
  simp only [Model.runBatch, map_bind, Model.runTrials_bare]
  rfl

/-! ## The batch as a whole -/

private theorem Model.answer_runBatch (mode : LimitMode) {name : String}
    (named : LimitMode.ofName (K := K) name = .ok mode)
    (checked : model.checkPolicy policy = .ok ()) (chosen : start ≠ .blank) {count : Int}
    (positive : 1 ≤ count) (bounded : 1 ≤ limit) :
    (model.runBatch policy start ⟨count, limit, name, keep⟩ (.ok source)).answer model =
      (model.runTrials policy start limit mode keep count.toNat 0 source ⟨[], 0⟩).answer model := by
  have counted : checkCount (K := K) .trials count = .ok () := checkCount_eq_ok_iff.mpr positive
  have fits : checkCount (K := K) .maxSteps limit = .ok () := checkCount_eq_ok_iff.mpr bounded
  rw [Model.runBatch, counted, fits, named, checked, Model.startState, if_neg chosen]
  rfl

private theorem Model.Trials.pairwise_trial
    (run : model.Trials policy start limit keep index count source trials failure) :
    ((Batch.ofTrials trials).rollouts.map Rollout.trial).Pairwise (· < ·) := by
  have numbers : (trials.map Trial.number).Pairwise (· < ·) := by
    rw [run.numbers]
    exact List.pairwise_map.mpr ((List.pairwise_lt_range' ..).imp Int.ofNat_lt.mpr)
  refine List.pairwise_map.mpr ((List.pairwise_map.mp numbers).filterMap _ ?_)
  intro earlier later less first finished second ended
  cases earlier with
  | dropped index last => cases finished
  | finished rollout =>
      cases later with
      | dropped index last => cases ended
      | finished other =>
          cases finished
          cases ended
          exact less

section Whole

variable (checked : model.checkPolicy policy = .ok ()) (chosen : start ≠ .blank) {count : Int}
  (positive : 1 ≤ count) (bounded : 1 ≤ limit)
  (run : model.Trials policy start limit keep 0 count.toNat source trials failure)

include checked chosen positive bounded run

/-- What a batch comes to in either mode, by the list of its trials. -/
theorem Model.Trials.answer_runBatch :
    (model.runBatch policy start ⟨count, limit, "discard", keep⟩ (.ok source)).answer model =
        ⟨failure.elim (.ok (Batch.ofTrials trials)) .error,
          (cuts trials).map fun cut => .walkDropped cut.1 limit cut.2⟩ ∧
      (model.runBatch policy start ⟨count, limit, "raise", keep⟩ (.ok source)).answer model =
        ⟨match (cuts trials).head? with
          | some (index, last) => .error (.walkCut index limit last)
          | none => failure.elim (.ok ⟨(Batch.ofTrials trials).rollouts, 0⟩) .error, []⟩ := by
  constructor
  · rw [Model.answer_runBatch .discard rfl checked chosen positive bounded,
      run.answer_discard]
    simp only [List.reverse_nil, List.nil_append, zero_add]
  · rw [Model.answer_runBatch .refuse rfl checked chosen positive bounded,
      run.answer_refuse]
    simp only [List.reverse_nil, List.nil_append]

private theorem Model.Trials.of_returned {mode : String} (either : mode ∈ ["discard", "raise"])
    {batch : Batch K}
    (returned : (model.runBatch policy start ⟨count, limit, mode, keep⟩ (.ok source)).result model =
      .ok batch) :
    failure = none ∧ (mode = "raise" → cuts trials = []) ∧
      batch.rollouts = (Batch.ofTrials trials).rollouts := by
  obtain ⟨discards, refuses⟩ := run.answer_runBatch checked chosen positive bounded
  unfold Inquiry.result at returned
  simp only [List.mem_cons, List.not_mem_nil, or_false] at either
  rcases either with rfl | rfl
  · rw [discards] at returned
    cases failure with
    | some fault => cases returned
    | none =>
        cases returned
        exact ⟨rfl, fun other => absurd other (by decide), rfl⟩
  · rw [refuses] at returned
    cases cut : cuts trials with
    | cons first rest =>
        rw [cut] at returned
        cases returned
    | nil =>
        rw [cut] at returned
        cases failure with
        | some fault => cases returned
        | none =>
            cases returned
            exact ⟨rfl, fun _ => rfl, rfl⟩

private theorem Model.Trials.exists_shorter {mode : String} (either : mode ∈ ["discard", "raise"])
    {longer : Batch K}
    (returned : (model.runBatch policy start ⟨count, limit, mode, keep⟩ (.ok source)).result model =
      .ok longer) {fewer : Int} (atLeast : 1 ≤ fewer) (fits : fewer ≤ count) :
    ∃ shorter, (model.runBatch policy start ⟨fewer, limit, mode, keep⟩ (.ok source)).result model =
        .ok shorter ∧
      shorter.rollouts <+: longer.rollouts ∧
      ((model.runBatch policy start ⟨fewer, limit, mode, keep⟩ (.ok source)).answer model).events <+:
        ((model.runBatch policy start ⟨count, limit, mode, keep⟩ (.ok source)).answer model).events := by
  obtain ⟨rfl, uncut, same⟩ := run.of_returned checked chosen positive bounded either returned
  obtain ⟨noted, -⟩ := run.answer_runBatch checked chosen positive bounded
  obtain ⟨discards, refuses⟩ :=
    (run.take (Int.toNat_le_toNat fits)).answer_runBatch checked chosen atLeast bounded
  have begins : (Batch.ofTrials (trials.take fewer.toNat)).rollouts <+: longer.rollouts :=
    same ▸ Batch.ofTrials_take_isPrefix trials fewer.toNat
  have cutsBegin := cuts_take_isPrefix trials fewer.toNat
  simp only [ite_self, Option.elim_none] at discards refuses
  simp only [List.mem_cons, List.not_mem_nil, or_false] at either
  rcases either with rfl | rfl
  · rw [Inquiry.result, discards, noted]
    exact ⟨_, rfl, begins, cutsBegin.map _⟩
  · have firstUncut : cuts (trials.take fewer.toNat) = [] :=
      List.prefix_nil.mp (uncut rfl ▸ cutsBegin)
    rw [firstUncut] at refuses
    rw [Inquiry.result, refuses]
    exact ⟨_, rfl, begins, List.nil_prefix⟩

end Whole

/-- A batch is a sequence of single rollouts on one source. There is one list of trials such that

1. each trial is the rollout of its number, fed where the one before has stopped; it took as many
   uniforms as it made steps, or as many as it was allowed if it was cut; and the list holds as many
   trials as were asked for, unless a rollout has failed on a look-up;
2. no trial is lost, and the finished ones are in increasing order of their numbers;
3. a batch of that size, and any smaller one on the same source, is read off its first trials: in
   discarding mode it returns the finished ones, and each of the cut ones is noted once with a
   warning; in raising mode it returns the same if none was cut, and raises for the first cut one
   otherwise;
4. what a smaller batch returns is a prefix of what the batch returns;
5. to store trajectories changes the trajectories only. -/
theorem Model.runBatch_eq_rollouts (model : Model K) {policy : Policy}
    (checked : model.checkPolicy policy = .ok ()) {start : Ident} (chosen : start ≠ .blank)
    {count limit : Int} (positive : 1 ≤ count) (bounded : 1 ≤ limit) (keep : Bool)
    (source : Source) :
    let batch (count : Int) (mode : String) :=
      (model.runBatch policy start ⟨count, limit, mode, keep⟩ (.ok source)).answer model
    ∃ trials failure,
      (model.Trials policy start limit keep 0 count.toNat source trials failure ∧
        (failure = none → trials.length = count)) ∧
      ((Batch.ofTrials trials).rollouts.length + (Batch.ofTrials trials).discarded = trials.length ∧
        ((Batch.ofTrials trials).rollouts.map Rollout.trial).Pairwise (· < ·)) ∧
      (∀ fewer : Int, 1 ≤ fewer → fewer ≤ count →
        let seen := trials.take fewer.toNat
        let failed := if trials.length < fewer.toNat then failure else none
        batch fewer "discard" = ⟨failed.elim (.ok (Batch.ofTrials seen)) .error,
            (cuts seen).map fun cut => .walkDropped cut.1 limit cut.2⟩ ∧
          (batch fewer "discard").events.map Event.level =
            List.replicate (Batch.ofTrials seen).discarded.toNat .warning ∧
          batch fewer "raise" = ⟨match (cuts seen).head? with
            | some (index, last) => .error (.walkCut index limit last)
            | none => failed.elim (.ok ⟨(Batch.ofTrials seen).rollouts, 0⟩) .error, []⟩) ∧
      (∀ mode ∈ ["discard", "raise"], ∀ longer, (batch count mode).result = .ok longer →
        ∀ fewer : Int, 1 ≤ fewer → fewer ≤ count →
          ∃ shorter, (batch fewer mode).result = .ok shorter ∧
            shorter.rollouts <+: longer.rollouts ∧
            (batch fewer mode).events <+: (batch count mode).events) ∧
      ∀ mode : String,
        Batch.bare <$> model.runBatch policy start ⟨count, limit, mode, true⟩ (.ok source) =
          model.runBatch policy start ⟨count, limit, mode, false⟩ (.ok source) := by
  intro batch
  obtain ⟨trials, failure, run⟩ :=
    model.exists_trials policy start limit keep 0 count.toNat source
  refine ⟨trials, failure, ⟨run, fun unfailing => ?_⟩,
    ⟨Batch.length_add_discarded trials, run.pairwise_trial⟩, fun fewer atLeast fits => ?_,
    fun mode either longer returned fewer atLeast fits =>
      run.exists_shorter checked chosen positive bounded either returned atLeast fits,
    fun mode => Model.runBatch_bare count mode (.ok source)⟩
  · subst unfailing
    rw [run.length_eq_of_none, Int.toNat_of_nonneg (by omega)]
  · obtain ⟨discards, refuses⟩ :=
      (run.take (Int.toNat_le_toNat fits)).answer_runBatch checked chosen atLeast bounded
    refine ⟨discards, ?_, refuses⟩
    rw [show batch fewer "discard" = _ from discards, List.map_map]
    exact List.map_const'

end Walking

/-! ## Two trials of a trip -/

def tour : Policy :=
  .ofPairs [(.int 0, .text "go"), (.int 1, .text "go"), (.int 2, .blank)]

/-- With one step allowed, the first of these uniforms leads to the place before the end and the
second one to the end. -/
def tourDraws : Draws (Extended ℚ) := ⟨[.finite (1 / 4), .finite (3 / 4)], .finite 0, 0⟩

theorem Model.runBatch_eq_rollouts_trip :
    (trip.extended.checkPolicy tour = .ok () ∧ Ident.int 0 ≠ .blank ∧ (1 : Int) ≤ 2 ∧ (1 : Int) ≤ 1) ∧
    ∃ trials failure,
      trip.extended.Trials tour (.int 0) 1 true 0 2 tourDraws trials failure ∧
        (failure = none → trials.length = (2 : Int)) ∧
        (trip.extended.runBatch tour (.int 0) ⟨2, 1, "discard", true⟩ (.ok tourDraws)).answer
            trip.extended =
          ⟨(if trials.length < 2 then failure else none).elim
              (.ok (Batch.ofTrials (trials.take 2))) .error,
            (cuts (trials.take 2)).map fun cut => .walkDropped cut.1 1 cut.2⟩ := by
  have checked : trip.extended.checkPolicy tour = .ok () :=
    Model.checkPolicy_eq_ok_iff.mpr (by decide +kernel)
  have chosen : Ident.int 0 ≠ .blank := by decide
  have positive : (1 : Int) ≤ 2 := by decide
  have bounded : (1 : Int) ≤ 1 := by decide
  obtain ⟨trials, failure, ⟨run, complete⟩, -, parts, -⟩ :=
    trip.extended.runBatch_eq_rollouts checked chosen positive bounded true tourDraws
  exact ⟨⟨checked, chosen, positive, bounded⟩, trials, failure, run, complete,
    (parts 2 (by decide) (by decide)).1⟩

/-- The first trial is dropped, and the second one is finished. -/
example :
    ((trip.extended.runBatch tour (.int 0) ⟨2, 1, "discard", true⟩ (.ok tourDraws)).result
      trip.extended).toOption.map (fun batch => (batch.rollouts.map Rollout.trial, batch.discarded)) =
        some ([1], 1) := by
  decide +kernel

end MarkovDecision
