import MarkovDecision.Proofs.Walk.Batch
import MarkovDecision.Proofs.Walk.Expectation

/-!
# The states that a rollout visits

A policy and a stream of uniforms lead from one state to the next, whether or not a walk stops there.
A rollout is read off the states visited so: it ends at the first terminal one within its bound, and
is cut in the last one it may reach if there is none.
-/

set_option autoImplicit false

namespace MarkovDecision

variable {F : Type} [Field F] [LinearOrder F] {Source : Type} [UniformSource Source (Extended F)]

/-! ## Visited states -/

/-- One step from a state with a source: where it leads, and the source after it. -/
def Model.hop (model : Model F) (policy : Policy) (place : Ident × Source) : Ident × Source :=
  Row.sample (model.rowAt place.1 (policy.choice place.1)).extended place.2

/-- The state after a number of steps, terminal states notwithstanding. -/
def Model.visited (model : Model F) (policy : Policy) (start : Ident) (source : Source)
    (count : Nat) : Ident :=
  ((model.hop policy)^[count] (start, source)).1

/-- The steps between the first visited states. -/
def Model.path (model : Model F) (policy : Policy) (start : Ident) (source : Source) (count : Nat) :
    List (Step (Extended F)) :=
  (List.range count).map fun place =>
    model.extended.stepTo (model.visited policy start source place)
      (policy.choice (model.visited policy start source place))
      (model.visited policy start source (place + 1))

/-- Until a terminal state is visited, the policy has an action for every visited state, and the row
of the two passes its check. -/
def Model.Guides (model : Model F) (policy : Policy) (start : Ident) (source : Source)
    (bound : Nat) : Prop :=
  ∀ place < bound,
    (∀ earlier ≤ place, model.isTerminal (model.visited policy start source earlier) = false) →
      ∃ action row, policy.get? (model.visited policy start source place) = some action ∧
        model.extended.row (model.visited policy start source place) action = .ok row

variable {model : Model F} {policy : Policy} {start : Ident} {source : Source} {count bound : Nat}
  {keep : Bool}

private theorem Model.path_succ :
    model.path policy start source (count + 1) =
      model.extended.stepTo start (policy.choice start) (model.hop policy (start, source)).1 ::
        model.path policy (model.hop policy (start, source)).1 (UniformSource.uniform source).2
          count := by
  rw [Model.path, List.range_succ_eq_map, List.map_cons, List.map_map]
  rfl

@[simp] theorem Model.length_path : (model.path policy start source count).length = count := by
  simp [Model.path]

private theorem Model.earned_path :
    model.earned policy start ((model.path policy start source count).map Step.successor) =
      ∑ place ∈ Finset.range count, model.discount ^ place *
        model.reward (model.visited policy start source place)
          (policy.choice (model.visited policy start source place))
          (model.visited policy start source (place + 1)) := by
  induction count generalizing start source with
  | zero => rfl
  | succ count ih =>
      have arrived : (model.extended.stepTo start (policy.choice start)
          (model.hop policy (start, source)).1).successor = (model.hop policy (start, source)).1 := rfl
      rw [Model.path_succ, List.map_cons, Model.earned, arrived, ih, Finset.sum_range_succ',
        Finset.mul_sum, pow_zero, one_mul, add_comm]
      refine congrArg₂ _ (Finset.sum_congr rfl fun place _ => ?_) rfl
      rw [pow_succ', mul_assoc]
      rfl

theorem Model.Guides.mono (guides : model.Guides policy start source bound) (fits : count ≤ bound) :
    model.Guides policy start source count :=
  fun place within => guides place (within.trans_le fits)

theorem Model.Guides.tail (guides : model.Guides policy start source (count + 1))
    (running : model.isTerminal start = false) :
    model.Guides policy (model.hop policy (start, source)).1 (UniformSource.uniform source).2
      count := by
  intro place within others
  refine guides (place + 1) (Nat.succ_lt_succ within) fun earlier before => ?_
  cases earlier with
  | zero => exact running
  | succ earlier => exact others earlier (Nat.le_of_succ_le_succ before)

/-! ## Walks through visited states -/

section Walks

variable [IsStrictOrderedRing F]

/-- A row that passes its check has a positive entry, so a hop takes one. -/
private theorem Model.hop_drawn (place : Ident × Source) {action : Ident} {row : Row (Extended F)}
    (chosen : policy.get? place.1 = some action)
    (looked : model.extended.row place.1 action = .ok row) :
    row.draw? (UniformSource.uniform place.2).1 = some (model.hop policy place).1 ∧
      0 < (model.rowAt place.1 (policy.choice place.1)).probability (model.hop policy place).1 := by
  obtain ⟨plain, listed, checked, rfl⟩ := Model.row_extended_eq_ok_iff.mp looked
  have accepted := (checkRow_extended_iff plain place.1 action model.knows).mp checked
  obtain ⟨successor, -, drawn⟩ := accepted.usable.exists_draw (UniformSource.uniform place.2).1
  obtain ⟨entry, member, rfl, positive⟩ := Row.draw?_extended_mem drawn
  rw [Model.hop, Policy.choice_of_get? chosen, Model.rowAt_of_get? listed,
    Row.sample_of_draw? drawn, Row.probability_of_mem member]
  exact ⟨drawn, positive⟩

/-- No look-up fails on an accepted model when the policy is legal. -/
private theorem Model.Accepted.guides (accepted : model.Accepted) (legal : model.LegalPolicy policy)
    (member : start ∈ model.states) (source : Source) (bound : Nat) :
    model.Guides policy start source bound := by
  have looks : ∀ place : Ident × Source, place.1 ∈ model.states → ∃ action row,
      policy.get? place.1 = some action ∧ model.extended.row place.1 action = .ok row ∧
        (model.hop policy place).1 ∈ model.states := by
    intro place listed
    obtain ⟨action, row, successor, chosen, looked, drawn, known⟩ :=
      accepted.ready.exists_step legal listed (UniformSource.uniform place.2).1
    obtain ⟨taken, -⟩ := Model.hop_drawn place chosen looked
    cases drawn.symm.trans taken
    exact ⟨action, row, chosen, looked, known⟩
  have stays : ∀ place, model.visited policy start source place ∈ model.states := by
    intro place
    induction place with
    | zero => exact member
    | succ place ih =>
        obtain ⟨_, _, _, _, known⟩ := looks ((model.hop policy)^[place] (start, source)) ih
        rwa [← Function.iterate_succ_apply' (model.hop policy)] at known
  intro place _ _
  obtain ⟨action, row, chosen, looked, -⟩ :=
    looks ((model.hop policy)^[place] (start, source)) (stays place)
  exact ⟨action, row, chosen, looked⟩

theorem Model.Guides.exists_walks (keep : Bool) (position : Position (Extended F))
    (guides : model.Guides policy position.state source count)
    (running : ∀ place < count,
      model.isTerminal (model.visited policy position.state source place) = false) :
    ∃ last, model.extended.Walks policy keep position source
      (model.path policy position.state source count) last (skip count source) := by
  induction count generalizing position source with
  | zero => exact ⟨position, .stand position source⟩
  | succ count ih =>
      have goes := running 0 (Nat.succ_pos count)
      obtain ⟨action, row, chosen, looked⟩ := guides 0 (Nat.succ_pos count) fun earlier before =>
        running earlier (Nat.lt_succ_of_le (before.trans (Nat.zero_le count)))
      obtain ⟨drawn, -⟩ := Model.hop_drawn (position.state, source) chosen looked
      have choice_eq : policy.choice position.state = action := Policy.choice_of_get? chosen
      obtain ⟨last, walks⟩ := ih (position.advance model.extended.discount keep
        (model.extended.stepTo position.state action (model.hop policy (position.state, source)).1))
        (guides.tail goes) fun place within => running (place + 1) (Nat.succ_lt_succ within)
      refine ⟨last, ?_⟩
      rw [Model.path_succ, choice_eq]
      exact .step goes chosen looked drawn walks

omit [IsStrictOrderedRing F] in
private theorem Model.state_path :
    ((model.path policy start source count).map Step.successor).getLastD start =
    model.visited policy start source count := by
  cases count with
  | zero => rfl
  | succ count =>
      rw [Model.path, List.range_succ, List.map_append, List.map_append]
      exact List.getLastD_concat ..

end Walks

/-! ## Rollouts -/

/-- A finished rollout of so many steps: it stands on the first visited state that is terminal, each of
its steps takes the action of the policy and goes to a successor of positive probability, and it has
collected the rewards of its steps, each discounted as often as steps were made before. -/
structure Model.Completes (model : Model F) (policy : Policy) (start : Ident) (source : Source)
    (count : Nat) (rollout : Rollout (Extended F)) : Prop where
  steps_eq : rollout.steps = count
  final_eq : rollout.final = model.visited policy start source count
  terminated : rollout.terminated = true
  absorbed : model.isTerminal (model.visited policy start source count) = true
  running : ∀ place < count, model.isTerminal (model.visited policy start source place) = false
  chosen : ∀ place < count, policy.get? (model.visited policy start source place) =
    some (policy.choice (model.visited policy start source place))
  likely : ∀ place < count, 0 < (model.rowAt (model.visited policy start source place)
    (policy.choice (model.visited policy start source place))).probability
      (model.visited policy start source (place + 1))
  trajectory_eq : rollout.trajectory = model.path policy start source count
  total_eq : rollout.total = .finite (∑ place ∈ Finset.range count, model.discount ^ place *
    model.reward (model.visited policy start source place)
      (policy.choice (model.visited policy start source place))
      (model.visited policy start source (place + 1)))

theorem Model.Completes.unique {other : Nat} {left right : Rollout (Extended F)}
    (first : model.Completes policy start source count left)
    (second : model.Completes policy start source other right) :
    count = other ∧ (left.trial = right.trial → left = right) := by
  have same : count = other := by
    rcases Nat.lt_trichotomy count other with less | same | greater
    · exact absurd (first.absorbed.symm.trans (second.running count less)) Bool.noConfusion
    · exact same
    · exact absurd (second.absorbed.symm.trans (first.running other greater)) Bool.noConfusion
  subst same
  refine ⟨rfl, fun numbered => ?_⟩
  obtain ⟨trial, total, steps, terminated, final, trajectory⟩ := left
  obtain ⟨_, _, _, _, _, _⟩ := right
  cases numbered
  cases first.total_eq.trans second.total_eq.symm
  cases first.steps_eq.trans second.steps_eq.symm
  cases first.terminated.trans second.terminated.symm
  cases first.final_eq.trans second.final_eq.symm
  cases first.trajectory_eq.trans second.trajectory_eq.symm
  rfl

variable (model policy start source) in
private theorem Model.exists_stop (bound : Nat) :
    ∃ count ≤ bound,
      (∀ place < count, model.isTerminal (model.visited policy start source place) = false) ∧
      (model.isTerminal (model.visited policy start source count) = true ∨ count = bound) := by
  induction bound with
  | zero => exact ⟨0, le_rfl, fun _ below => absurd below (Nat.not_lt_zero _), Or.inr rfl⟩
  | succ bound ih =>
      obtain ⟨count, within, running, absorbed | rfl⟩ := ih
      · exact ⟨count, within.trans (Nat.le_succ bound), running, Or.inl absorbed⟩
      · cases terminal : model.isTerminal (model.visited policy start source count) with
        | true => exact ⟨count, Nat.le_succ count, running, Or.inl terminal⟩
        | false =>
            refine ⟨count + 1, le_rfl, fun place before => ?_, Or.inr rfl⟩
            rcases Nat.lt_succ_iff_lt_or_eq.mp before with earlier | rfl
            · exact running place earlier
            · exact terminal

variable [IsStrictOrderedRing F] {limit : Int}

theorem Model.Guides.chosen (guides : model.Guides policy start source count)
    (running : ∀ place < count, model.isTerminal (model.visited policy start source place) = false)
    {place : Nat} (before : place < count) :
    policy.get? (model.visited policy start source place) =
        some (policy.choice (model.visited policy start source place)) ∧
      0 < (model.rowAt (model.visited policy start source place)
        (policy.choice (model.visited policy start source place))).probability
          (model.visited policy start source (place + 1)) := by
  obtain ⟨action, row, chosen, looked⟩ := guides place before fun earlier fits =>
    running earlier (fits.trans_lt before)
  obtain ⟨-, likely⟩ :=
    Model.hop_drawn ((model.hop policy)^[place] (start, source)) chosen looked
  rw [← Function.iterate_succ_apply' (model.hop policy)] at likely
  exact ⟨chosen.trans (congrArg some (Policy.choice_of_get? chosen).symm), likely⟩

theorem Model.Guides.result_rollout (trial : Int) (guides : model.Guides policy start source limit.toNat)
    (within : count ≤ limit.toNat)
    (running : ∀ place < count, model.isTerminal (model.visited policy start source place) = false)
    (stops : model.isTerminal (model.visited policy start source count) = true ∨
      count = limit.toNat) :
    ∃ rollout, (model.isTerminal (model.visited policy start source count) = true →
        model.Completes policy start source count rollout ∧ rollout.trial = trial) ∧
      (model.extended.rollout policy start trial limit true source).result model.extended =
        if model.isTerminal (model.visited policy start source count) then
          .ok (rollout, skip count source)
        else .error (.walkCut trial limit (model.visited policy start source count)) := by
  obtain ⟨last, walks⟩ :=
    Model.Guides.exists_walks true (.start start) (guides.mono within) running
  have state : last.state = model.visited policy start source count :=
    walks.state_eq.trans Model.state_path
  have halts : model.extended.Stops limit.toNat (model.path policy start source count) last := by
    refine ⟨Model.length_path.trans_le within, ?_⟩
    rw [state, Model.length_path]
    exact stops
  refine ⟨last.rollout trial, fun absorbed => ⟨?_, rfl⟩, ?_⟩
  · have steps := walks.steps_eq
    have total := walks.total_eq Extended.zero_eq Extended.one_eq
    rw [Model.length_path] at steps
    rw [zero_add, one_mul, Model.earned_path] at total
    exact {
      steps_eq := congrArg Int.ofNat (steps.trans (Nat.zero_add count))
      final_eq := state
      terminated := rfl
      absorbed := absorbed
      running := running
      chosen := fun place before => ((guides.mono within).chosen running before).1
      likely := fun place before => ((guides.mono within).chosen running before).2
      trajectory_eq := walks.kept_eq
      total_eq := total }
  · rw [walks.result_rollout halts trial, state]
    rfl

/-- A rollout is the maximal walk of its policy, if no look-up fails on its way. Its bound is
`limit.toNat`, which is zero for negative limits.

1. It fails exactly if none of the states visited up to the bound is terminal, and then it names the
   last of them.
2. It returns exactly the completed rollout of at most that many steps, having taken one uniform for
   each.
3. To store the steps changes the trajectory only. -/
theorem Model.rollout_maximal (model : Model F) (policy : Policy) (start : Ident) (source : Source)
    (trial limit : Int) (guides : model.Guides policy start source limit.toNat) :
    let run := (model.extended.rollout policy start trial limit true source).result model.extended
    (∀ fault, run = .error fault ↔
      fault = .walkCut trial limit (model.visited policy start source limit.toNat) ∧
        ∀ place ≤ limit.toNat,
          model.isTerminal (model.visited policy start source place) = false) ∧
    (∀ rollout later, run = .ok (rollout, later) ↔
      ∃ count ≤ limit.toNat, model.Completes policy start source count rollout ∧
        rollout.trial = trial ∧ later = skip count source) ∧
    Prod.map Rollout.bare id <$> model.extended.rollout policy start trial limit true source =
      model.extended.rollout policy start trial limit false source := by
  intro run
  obtain ⟨count, within, running, stops⟩ :=
    model.exists_stop policy start source limit.toNat
  obtain ⟨finished, completes, result⟩ := guides.result_rollout trial within running stops
  cases terminal : model.isTerminal (model.visited policy start source count) with
  | true =>
      obtain ⟨complete, numbered⟩ := completes terminal
      have returned : run = .ok (finished, skip count source) := result.trans (if_pos terminal)
      refine ⟨fun fault => ?_, fun rollout later => ?_, Model.rollout_bare ..⟩
      · rw [returned]
        refine iff_of_false nofun fun ⟨_, runs⟩ => ?_
        exact absurd (terminal.symm.trans (runs count within)) Bool.noConfusion
      · rw [returned]
        constructor
        · intro same
          cases same
          exact ⟨count, within, complete, numbered, rfl⟩
        · rintro ⟨other, _, again, renumbered, rfl⟩
          obtain ⟨rfl, equal⟩ := complete.unique again
          rw [equal (numbered.trans renumbered.symm)]
  | false =>
      obtain rfl : count = limit.toNat :=
        stops.resolve_left fun absorbed => Bool.noConfusion (absorbed.symm.trans terminal)
      have runs : ∀ place ≤ limit.toNat,
          model.isTerminal (model.visited policy start source place) = false := by
        intro place fits
        rcases Nat.lt_or_eq_of_le fits with before | rfl
        · exact running place before
        · exact terminal
      have refused : run = .error (.walkCut trial limit
          (model.visited policy start source limit.toNat)) :=
        result.trans (if_neg (Bool.not_eq_true _ ▸ terminal))
      refine ⟨fun fault => ?_, fun rollout later => ?_, Model.rollout_bare ..⟩
      · rw [refused, Except.error.injEq, eq_comm, and_iff_left runs]
      · rw [refused]
        refine iff_of_false nofun fun ⟨other, fits, complete, _⟩ => ?_
        exact absurd (complete.absorbed.symm.trans (runs other fits)) Bool.noConfusion

/-- With the uniforms of the tour two steps lead to the end, and one does not. -/
theorem Model.rollout_maximal_trip :
    (trip.Guides tour (.int 0) tourDraws 2 ∧ trip.Guides tour (.int 0) tourDraws 1) ∧
      (∃ rollout, trip.Completes tour (.int 0) tourDraws 2 rollout ∧
        (trip.extended.rollout tour (.int 0) 0 2 true tourDraws).result trip.extended =
          .ok (rollout, skip 2 tourDraws)) ∧
      (trip.extended.rollout tour (.int 0) 0 1 true tourDraws).result trip.extended =
        .error (.walkCut 0 1 (.int 1)) := by
  have legal : trip.LegalPolicy tour := by decide +kernel
  have guides : ∀ bound, trip.Guides tour (.int 0) tourDraws bound :=
    trip_valid.accepted.guides legal (by decide +kernel) tourDraws
  have begun : trip.isTerminal (trip.visited tour (.int 0) tourDraws 0) = false := by decide +kernel
  have goes : trip.isTerminal (trip.visited tour (.int 0) tourDraws 1) = false := by decide +kernel
  have ends : trip.isTerminal (trip.visited tour (.int 0) tourDraws 2) = true := by decide +kernel
  have second : trip.visited tour (.int 0) tourDraws 1 = .int 1 := by decide +kernel
  obtain ⟨fails, returns, -⟩ := trip.rollout_maximal tour (.int 0) tourDraws 0 2 (guides 2)
  obtain ⟨cut, -, -⟩ := trip.rollout_maximal tour (.int 0) tourDraws 0 1 (guides 1)
  refine ⟨⟨guides 2, guides 1⟩, ?_, (cut _).mpr ⟨congrArg _ second.symm, fun place fits => ?_⟩⟩
  · cases run : (trip.extended.rollout tour (.int 0) 0 2 true tourDraws).result trip.extended with
    | error fault =>
        exact absurd (ends.symm.trans (((fails fault).mp run).2 2 (by decide))) Bool.noConfusion
    | ok answer =>
        obtain ⟨rollout, later⟩ := answer
        obtain ⟨count, fits, complete, -, rfl⟩ := (returns rollout later).mp run
        change count ≤ 2 at fits
        have absorbed := complete.absorbed
        obtain rfl | rfl | rfl : count = 0 ∨ count = 1 ∨ count = 2 := by omega
        · exact absurd (absorbed.symm.trans begun) Bool.noConfusion
        · exact absurd (absorbed.symm.trans goes) Bool.noConfusion
        · exact ⟨rollout, complete, rfl⟩
  · change place ≤ 1 at fits
    obtain rfl | rfl : place = 0 ∨ place = 1 := by omega
    · exact begun
    · exact goes

/-- A walk that starts in a terminal state returns, though a negative bound allows no visit. -/
theorem Model.rollout_returns_negativeBound : ¬ ∀ (start : Ident) (limit : Int),
    trip.Guides tour start tourDraws limit.toNat →
      ((∃ fault, (trip.extended.rollout tour start 0 limit true tourDraws).result trip.extended =
          .error fault) ↔
        ∀ place : Nat, (place : Int) < limit + 1 →
          trip.isTerminal (trip.visited tour start tourDraws place) = false) := by
  intro claimed
  have guides : trip.Guides tour (.int 2) tourDraws (-1 : Int).toNat :=
    fun place below => absurd below (Nat.not_lt_zero place)
  obtain ⟨fault, refused⟩ := (claimed (.int 2) (-1) guides).mpr fun place below => by omega
  have stands : trip.extended.Walks tour true (.start (.int 2)) tourDraws []
      (.start (.int 2)) tourDraws := .stand _ _
  have ends : trip.isTerminal (.int 2) = true := by decide +kernel
  have halts : trip.extended.Stops (-1 : Int).toNat [] (.start (.int 2)) :=
    ⟨Nat.zero_le _, Or.inl ends⟩
  have returned := stands.result_rollout halts 0
  rw [refused] at returned
  cases returned.trans (if_pos ends)

end MarkovDecision
