import MarkovDecision.CrossCheck
import MarkovDecision.Proofs.Walk.Batch
import MarkovDecision.Random.Generator
import MarkovDecision.Statistics.Interval

/-!
# Estimates of several states

A cross-check estimates the states of a list one after the other, each from a batch of its own on a
generator of its own, whose seed is the base seed plus the place of the state. A batch takes the blank
name for the initial state. So a state that bears the blank name without being the initial state is
not estimated from where it stands, and every other state is.
-/

set_option autoImplicit false

namespace MarkovDecision

variable {K : Type}

private theorem LimitMode.refuse_iff {name : String} {mode : LimitMode}
    (named : LimitMode.ofName (K := K) name = .ok mode) : mode = .refuse ↔ name = "raise" := by
  unfold LimitMode.ofName at named
  split at named
  · next raising =>
      cases named
      simp [raising]
  · next other =>
      split at named
      · cases named
        simp [other]
      · cases named

private theorem Model.startState_eq_iff {model : Model K} {state : Ident} :
    model.startState state = state ↔ (state = .blank → model.initial = .blank) := by
  unfold Model.startState
  split
  · next blank => simp [blank]
  · next named => simp [named]

theorem Estimate.samples_ofRollouts [Scalar K] (rules : SpreadRules K) (significance : K)
    (discarded : Int) (rollouts : List (Rollout K)) :
    (Estimate.ofRollouts rules significance discarded rollouts).samples =
      rollouts.map (·.total) := by
  rcases rollouts with _ | ⟨single, _ | ⟨second, others⟩⟩ <;> rfl

section Walking

variable [Scalar K] {Source : Type} [UniformSource Source K] {model : Model K} {policy : Policy}
  {settings : BatchSettings}

/-- An estimate that sums up a batch: all trials walk from one start state, fed by one source, none of
them fails, and none is cut where that stops the batch. -/
def Model.EstimatedFrom (model : Model K) (rules : SpreadRules K) (policy : Policy)
    (settings : BatchSettings) (significance : K) (start : Ident) (source : Source)
    (estimate : Estimate K) : Prop :=
  ∃ trials, model.Trials policy start settings.maxSteps false 0 settings.trials.toNat source trials
      none ∧
    (settings.limitMode = "raise" → cuts trials = []) ∧
    estimate = .ofRollouts rules significance (Batch.ofTrials trials).discarded
      (Batch.ofTrials trials).rollouts

/-! ## One batch -/

/-- A batch that returns is read off its trials, all of which start where the name of its start state
stands. -/
theorem Model.exists_trials_of_runBatch {start : Ident} {source : Except (Fault K) Source}
    {batch : Batch K}
    (run : (model.runBatch policy start settings source).result model = .ok batch) :
    ∃ ready trials, source = .ok ready ∧
      model.Trials policy (model.startState start) settings.maxSteps settings.keepTrajectories 0
        settings.trials.toNat ready trials none ∧
      (settings.limitMode = "raise" → cuts trials = []) ∧ batch = Batch.ofTrials trials := by
  simp only [Model.runBatch, Inquiry.result_bind, Inquiry.result_liftM, bind_eq_ok_iff] at run
  obtain ⟨_, -, _, -, mode, named, _, -, ready, fed, run⟩ := run
  obtain ⟨trials, failure, walks⟩ := model.exists_trials policy (model.startState start)
    settings.maxSteps settings.keepTrajectories 0 settings.trials.toNat ready
  cases mode with
  | discard =>
      have kept : settings.limitMode ≠ "raise" := fun raising =>
        LimitMode.noConfusion ((LimitMode.refuse_iff named).mpr raising)
      rw [Inquiry.result, walks.answer_discard] at run
      cases failure with
      | some fault => cases run
      | none =>
          cases run
          exact ⟨ready, trials, fed, walks, fun raising => absurd raising kept, by simp⟩
  | refuse =>
      rw [Inquiry.result, walks.answer_refuse] at run
      cases cut : cuts trials with
      | cons first rest =>
          rw [cut] at run
          cases run
      | nil =>
          rw [cut] at run
          cases failure with
          | some fault => cases run
          | none =>
              cases run
              exact ⟨ready, trials, fed, walks, fun _ => cut, by simp [Batch.ofTrials, cut]⟩

/-! ## One state after the other -/

/-- The states are estimated in turn, each from a batch on the source of its place, and nothing that
was there before is lost. -/
theorem Model.estimates_of_estimateEach {rules : SpreadRules K} {significance : K}
    {source : Nat → Except (Fault K) Source} {states : List Ident} {index : Nat}
    {before after : Estimates K} (distinct : states.Nodup)
    (fresh : ∀ state ∈ states, state ∉ before.keys)
    (run : (model.estimateEach rules policy settings significance source states index before).result
      model = .ok after) :
    after.keys = before.keys ++ states ∧
      (∀ state, state ∉ states → after.get? state = before.get? state) ∧
      ∀ (place : Nat) (state : Ident), states[place]? = some state → ∃ batch,
        (model.runBatch policy state settings (source (index + place))).result model = .ok batch ∧
        after.get? state = some (.ofRollouts rules significance batch.discarded batch.rollouts) := by
  induction states generalizing index before with
  | nil =>
      cases run
      exact ⟨(List.append_nil _).symm, fun _ _ => rfl, fun place state listed => by simp at listed⟩
  | cons first rest ih =>
      obtain ⟨away, others⟩ := List.nodup_cons.mp distinct
      rw [Model.estimateEach] at run
      obtain ⟨batch, made, run⟩ := Inquiry.result_bind_eq_ok_iff.mp run
      rw [Inquiry.result_bind, Inquiry.result_report, ok_bind] at run
      have unseen : first ∉ before.keys := fresh first List.mem_cons_self
      have freshNext : ∀ state ∈ rest, state ∉ (before.insert first
          (.ofRollouts rules significance batch.discarded batch.rollouts)).keys := by
        intro state listed present
        rcases (Table.mem_keys_insert _ _ _ _).mp present with same | held
        · exact away (same ▸ listed)
        · exact fresh state (List.mem_cons_of_mem _ listed) held
      obtain ⟨keys, kept, estimated⟩ := ih others freshNext run
      refine ⟨?_, fun state absent => ?_, fun place state listed => ?_⟩
      · rw [keys, Table.keys_insert, if_neg unseen, List.append_assoc, List.singleton_append]
      · rw [List.mem_cons, not_or] at absent
        rw [kept state absent.2, Table.get?_insert, if_neg (Ne.symm absent.1)]
      · cases place with
        | zero =>
            cases listed
            exact ⟨batch, made, by rw [kept first away, Table.get?_insert, if_pos rfl]⟩
        | succ place =>
            obtain ⟨other, ran, held⟩ := estimated place state listed
            exact ⟨other, by rwa [Nat.add_assoc, Nat.add_comm 1] at ran, held⟩

/-- A cross-check of distinct states that returns has an estimate for each of them, in their order, and
the one at a place sums up a batch on the source of that place. -/
theorem Model.estimates_of_evaluateByWalks {rules : SpreadRules K} {significance : K}
    {source : Nat → Except (Fault K) Source} {states : Option (List Ident)} {estimates : Estimates K}
    (distinct : (states.getD model.openStates).Nodup)
    (run : (model.evaluateByWalks rules policy states settings significance source).result model =
      .ok estimates) :
    estimates.keys = states.getD model.openStates ∧
    ∀ (place : Nat) (state : Ident), (states.getD model.openStates)[place]? = some state →
      ∃ ready estimate, source place = .ok ready ∧ estimates.get? state = some estimate ∧
        model.EstimatedFrom rules policy settings significance (model.startState state) ready
          estimate := by
  obtain ⟨_, -, run⟩ := Inquiry.result_bind_eq_ok_iff.mp run
  obtain ⟨keys, -, estimated⟩ := Model.estimates_of_estimateEach distinct (by simp) run
  refine ⟨keys, fun place state listed => ?_⟩
  obtain ⟨batch, ran, held⟩ := estimated place state listed
  obtain ⟨ready, trials, fed, walks, uncut, rfl⟩ := Model.exists_trials_of_runBatch ran
  rw [Nat.zero_add] at fed
  exact ⟨ready, _, fed, held, trials, walks, uncut, rfl⟩

end Walking

/-! ## Cross-checks on seeded generators -/

/-- Whenever a cross-check of distinct states returns, it has an estimate for each of them, in their
order. The estimate of the state at a place sums up a batch of walks on the generator whose seed is the
base seed plus the place. They all start in that state, unless it bears the blank name and is not the
initial state: then they all start in the initial state. -/
theorem Model.evaluateByWalks_startStates (model : Model Float) (rules : SpreadRules Float)
    (policy : Policy) (states : Option (List Ident)) (settings : BatchSettings)
    (significance : Float) (seed : Int) (distinct : (states.getD model.openStates).Nodup)
    (estimates : Estimates Float)
    (run : (model.evaluateByWalks rules policy states settings significance
      (Generator.ofSeedAt (some seed))).result model = .ok estimates) :
    estimates.keys = states.getD model.openStates ∧
    ∀ (place : Nat) (state : Ident), (states.getD model.openStates)[place]? = some state →
      ∃ (generator : Generator) (estimate : Estimate Float),
        Generator.ofSeed (K := Float) (some (seed + place)) = .ok generator ∧
        estimates.get? state = some estimate ∧
        model.EstimatedFrom rules policy settings significance (model.startState state) generator
          estimate ∧
        (model.startState state = state ↔ (state = .blank → model.initial = .blank)) := by
  obtain ⟨keys, estimated⟩ := Model.estimates_of_evaluateByWalks distinct run
  refine ⟨keys, fun place state listed => ?_⟩
  obtain ⟨generator, estimate, seeded, held, sums⟩ := estimated place state listed
  exact ⟨generator, estimate, seeded, held, sums, Model.startState_eq_iff⟩

/-- An errand from a place with the blank name to its end. It earns one on arrival, and the walk counts
as begun at the end. -/
def errand : Model Float where
  states := [.int 0, .blank]
  actionTable := .ofPairs [(.blank, [.text "go"]), (.int 0, [.text "stay"])]
  rowTable := .ofPairs [((.blank, .text "go"), .ofPairs [(.int 0, 1)]),
    ((.int 0, .text "stay"), .ofPairs [(.int 0, 1)])]
  reward state _ _ := if state = .blank then 1 else 0
  discount := 0.5
  initial := .int 0
  terminals := [.int 0]
  noop := .text "stay"

def errandPolicy : Policy := .ofPairs [(.int 0, .text "stay"), (.blank, .text "go")]

/-- What the cross-check of the errand comes to on both places, with one walk for each. -/
def errandEstimates : Except (Fault Float) (Estimates Float) :=
  (errand.evaluateByWalks Statistics.studentRules errandPolicy (some [.int 0, .blank])
    ⟨1, 1000, "raise", false⟩ defaultSignificance (Generator.ofSeedAt (some 0))).result errand

private theorem errandEstimates_returns : ∃ estimates, errandEstimates = .ok estimates := by
  have returned : errandEstimates.toOption.isSome = true := by decide +kernel
  cases run : errandEstimates with
  | ok estimates => exact ⟨estimates, rfl⟩
  | error fault =>
      rw [run] at returned
      cases returned

theorem Model.evaluateByWalks_startStates_errand :
    ∃ estimates,
      ([Ident.int 0, .blank].Nodup ∧
        (errand.evaluateByWalks Statistics.studentRules errandPolicy (some [.int 0, .blank])
          ⟨1, 1000, "raise", false⟩ defaultSignificance (Generator.ofSeedAt (some 0))).result errand =
            .ok estimates) ∧
      estimates.keys = [.int 0, .blank] ∧
      ∀ (place : Nat) (state : Ident), [Ident.int 0, .blank][place]? = some state →
        ∃ (generator : Generator) (estimate : Estimate Float),
          Generator.ofSeed (K := Float) (some (0 + place)) = .ok generator ∧
          estimates.get? state = some estimate ∧
          errand.EstimatedFrom Statistics.studentRules errandPolicy ⟨1, 1000, "raise", false⟩
            defaultSignificance (errand.startState state) generator estimate ∧
          (errand.startState state = state ↔ (state = .blank → errand.initial = .blank)) := by
  obtain ⟨estimates, run⟩ := errandEstimates_returns
  have distinct : [Ident.int 0, .blank].Nodup := by decide
  exact ⟨estimates, ⟨distinct, run⟩,
    errand.evaluateByWalks_startStates Statistics.studentRules errandPolicy
      (some [.int 0, .blank]) ⟨1, 1000, "raise", false⟩ defaultSignificance 0 distinct estimates run⟩

private theorem errand_earns {trials : List (Trial Float)}
    (walks : errand.Trials errandPolicy .blank 1000 false 0 1 (Generator.ofNatSeed 1) trials none) :
    (Batch.ofTrials trials).rollouts.map (·.total) = [1] := by
  have earned : ((errand.runTrials errandPolicy .blank 1000 .discard false 1 0 (Generator.ofNatSeed 1)
      ⟨[], 0⟩).answer errand).result.toOption.map (fun batch => batch.rollouts.map (·.total)) =
        some [1] := by
    decide +kernel
  rw [walks.answer_discard] at earned
  exact Option.some.inj earned

/-- Walks from the place with the blank name earn one, but its estimate is the nothing that is earned
at the end. -/
theorem Model.evaluateByWalks_misplaces_blank :
    ¬ ∀ (model : Model Float) (rules : SpreadRules Float) (policy : Policy) (states : List Ident)
      (settings : BatchSettings) (significance : Float) (seed : Int) (estimates : Estimates Float),
      states.Nodup → (∀ state ∈ states, state ∈ model.states) →
      (model.evaluateByWalks rules policy (some states) settings significance
        (Generator.ofSeedAt (some seed))).result model = .ok estimates →
      ∀ (place : Nat) (state : Ident), states[place]? = some state →
        ∃ (generator : Generator) (estimate : Estimate Float),
          Generator.ofSeed (K := Float) (some (seed + place)) = .ok generator ∧
          estimates.get? state = some estimate ∧
          model.EstimatedFrom rules policy settings significance state generator estimate := by
  intro law
  obtain ⟨estimates, run⟩ := errandEstimates_returns
  obtain ⟨generator, estimate, seeded, held, trials, walks, -, rfl⟩ := law errand
    Statistics.studentRules errandPolicy [.int 0, .blank] ⟨1, 1000, "raise", false⟩
    defaultSignificance 0 estimates (by decide) (by decide) run 1 .blank rfl
  obtain rfl : Generator.ofNatSeed 1 = generator := Except.ok.inj seeded
  have reported : errandEstimates.toOption.bind (fun found => (found.get? .blank).map (·.samples)) =
      some [0] := by
    decide +kernel
  rw [run] at reported
  change (estimates.get? .blank).map (·.samples) = some [0] at reported
  rw [held, Option.map_some, Estimate.samples_ofRollouts] at reported
  rw [errand_earns walks] at reported
  exact absurd reported (by decide +kernel)

end MarkovDecision
