import MarkovDecision.Proofs.Validated
import MarkovDecision.Proofs.Walk.Draw
import MarkovDecision.Proofs.Walk.Outcomes

/-!
# Walks and policy evaluation agree

A walk collects its rewards forwards, with a weight that shrinks by the discount, and ends at the
first terminal state. A sweep sums them up backwards and goes on at terminal states. Along the
successors that a walk makes both are the same sum. Walks make outcomes of positive chance, and every
such outcome for some uniforms, so policy evaluation by as many sweeps as a walk may make steps
computes the mean of what walks collect.
-/

set_option autoImplicit false

namespace MarkovDecision

variable {F : Type} [Field F] [LinearOrder F]

theorem Model.exists_drawn_entry {model : Model F} {state action successor : Ident}
    {row : Row (Extended F)} {uniform : Extended F}
    (looked : model.extended.row state action = .ok row)
    (drawn : row.draw? uniform = some successor) :
    ∃ entry ∈ (model.rowAt state action).entries, entry.1 = successor ∧ 0 < entry.2 := by
  obtain ⟨here, listed, -, rfl⟩ := Model.row_extended_eq_ok_iff.mp looked
  rw [Model.rowAt_of_get? listed]
  exact Row.draw?_extended_mem drawn

/-! ## Walks make outcomes -/

variable {model : Model F} {policy : Policy} {keep : Bool}

/-- A walk of at most `allowed` steps that goes through the given successors, and where it ends. -/
def Model.Makes {K : Type} [Scalar K] {Source : Type} [UniformSource Source K] (model : Model K)
    (policy : Policy) (keep : Bool) (allowed : Nat) (position : Position K) (source : Source)
    (outcome : List Ident) (last : Position K) (later : Source) : Prop :=
  ∃ steps, model.Walks policy keep position source steps last later ∧
    model.Stops allowed steps last ∧ steps.map Step.successor = outcome

section Walks

variable {Source : Type} [UniformSource Source (Extended F)]
  {position last : Position (Extended F)} {source later : Source} {steps : List (Step (Extended F))}

/-- What a walk adds to its total is what its successors earn, at the weight it started with. -/
theorem Model.Walks.total_eq
    (walks : model.extended.Walks policy keep position source steps last later) {total weight : F}
    (collected : position.total = .finite total) (weighs : position.weight = .finite weight) :
    last.total = .finite
      (total + weight * model.earned policy position.state (steps.map Step.successor)) := by
  -- Each step changes the total and the weight, so the induction is over walks from any position.
  induction walks generalizing total weight with
  | stand position source => rw [List.map_nil, Model.earned, mul_zero, add_zero, collected]
  | @step position last source later action successor row steps running chosen looked drawn rest ih =>
      have reward : (model.extended.stepTo position.state action successor).reward =
          .finite (model.reward position.state action successor) := rfl
      have discount : model.extended.discount = .finite model.discount := rfl
      have arrived : (model.extended.stepTo position.state action successor).successor = successor :=
        rfl
      have after := @ih (total + weight * model.reward position.state action successor)
        (weight * model.discount)
        (by rw [Position.advance, reward, collected, weighs, Extended.finite_mul, Extended.finite_add])
        (by rw [Position.advance, discount, weighs, Extended.finite_mul])
      rw [after, List.map_cons, Model.earned, Policy.choice_of_get? chosen, Position.advance, arrived,
        mul_add, add_assoc, mul_assoc]

theorem Model.Walks.state_eq {K : Type} [Scalar K] {model : Model K} {Source : Type}
    [UniformSource Source K] {position last : Position K} {source later : Source}
    {steps : List (Step K)} (walks : model.Walks policy keep position source steps last later) :
    last.state = (steps.map Step.successor).getLastD position.state := by
  induction walks with
  | stand position source => rfl
  | step running chosen looked drawn rest ih => rw [ih, List.map_cons, List.getLastD_cons]; rfl

variable [IsStrictOrderedRing F]

/-- A walk draws only successors of positive probability, so it makes an outcome of positive
chance. -/
private theorem Model.Walks.mem_outcomes
    (walks : model.extended.Walks policy keep position source steps last later) {allowed : Nat}
    (stops : model.extended.Stops allowed steps last) :
    steps.map Step.successor ∈ model.outcomes policy allowed position.state ∧
      0 < model.chance policy position.state (steps.map Step.successor) := by
  induction walks generalizing allowed with
  | stand position source =>
      have stands : allowed = 0 ∨ model.isTerminal position.state = true :=
        stops.2.symm.imp_left Eq.symm
      rw [List.map_nil, Model.outcomes_stand stands]
      exact ⟨List.mem_singleton_self _, zero_lt_one⟩
  | @step position last source later action successor row steps running chosen looked drawn rest ih =>
      obtain ⟨fewer, rfl, fits⟩ := stops.exists_fewer
      obtain ⟨found, likely⟩ := ih fits
      obtain ⟨entry, member, rfl, positive⟩ := Model.exists_drawn_entry looked drawn
      have goes : model.isTerminal position.state = false := running
      rw [Model.mem_outcomes_succ goes, List.map_cons, Model.chance, Policy.choice_of_get? chosen]
      refine ⟨⟨entry.1, List.mem_map.mpr ⟨entry, member, rfl⟩, _, found, rfl⟩, ?_⟩
      rw [show (model.extended.stepTo position.state action entry.1).successor = entry.1 from rfl,
        Row.probability_of_mem member]
      exact mul_pos positive likely

end Walks

/-! ## Chances are volumes -/

/-- Half-open intervals of uniforms, one for each step of a walk. -/
abbrev Box (F : Type) := List (F × F)

def Box.Inside (box : Box F) : Prop := ∀ side ∈ box, 0 ≤ side.1 ∧ side.1 < side.2 ∧ side.2 ≤ 1

def Box.volume (box : Box F) : F := (box.map fun side => side.2 - side.1).prod

def Box.Holds (box : Box F) (uniforms : List F) : Prop :=
  List.Forall₂ (fun side uniform => side.1 ≤ uniform ∧ uniform < side.2) box uniforms

/-- A box whose volume is the chance of an outcome, and whose uniforms all make it. -/
structure Model.BoxOf (model : Model F) (policy : Policy) (keep : Bool) (count : Nat)
    (position : Position (Extended F)) (outcome : List Ident) (box : Box F) : Prop where
  inside : box.Inside
  volume_eq : box.volume = model.chance policy position.state outcome
  makes : ∀ uniforms, box.Holds uniforms → ∀ rest used, ∃ last later,
    model.extended.Makes policy keep count position
      (⟨uniforms.map .finite, rest, used⟩ : Draws (Extended F)) outcome last later

/-- A walk that stands draws nothing: its box has no sides. -/
private theorem Model.boxOf_nil {count : Nat} {position : Position (Extended F)}
    (stands : count = 0 ∨ model.isTerminal position.state = true) :
    model.BoxOf policy keep count position [] [] where
  inside := List.forall_mem_nil _
  volume_eq := List.prod_nil
  makes _ _ _ _ :=
    ⟨position, _, [], .stand _ _, ⟨Nat.zero_le _, stands.symm.imp_right Eq.symm⟩, List.map_nil⟩

variable [IsStrictOrderedRing F]

private theorem Model.exists_box (stochastic : model.Stochastic) (legal : model.LegalPolicy policy)
    {count : Nat} {outcome : List Ident} (position : Position (Extended F))
    (member : position.state ∈ model.states)
    (listed : outcome ∈ model.outcomes policy count position.state)
    (likely : 0 < model.chance policy position.state outcome) :
    ∃ box, model.BoxOf policy keep count position outcome box := by
  induction count generalizing position outcome with
  | zero =>
      cases List.mem_singleton.mp listed
      exact ⟨[], Model.boxOf_nil (Or.inl rfl)⟩
  | succ count ih =>
      cases running : model.isTerminal position.state with
      | true =>
          rw [Model.outcomes_stand (Or.inr running)] at listed
          cases List.mem_singleton.mp listed
          exact ⟨[], Model.boxOf_nil (Or.inr running)⟩
      | false =>
          obtain ⟨successor, known, others, found, rfl⟩ := (Model.mem_outcomes_succ running).mp listed
          obtain ⟨entry, here, rfl⟩ := List.mem_map.mp known
          obtain ⟨action, allowed, chosen⟩ := legal position.state member
          have fine := stochastic.row member (legal.legalChoice position.state member)
          have probability := Row.probability_of_mem here
          rw [Model.chance, probability] at likely
          have positive : 0 < entry.2 := by
            refine (fine.nonneg entry here).lt_of_ne' fun zero => ?_
            rw [zero, zero_mul] at likely
            exact lt_irrefl _ likely
          obtain ⟨low, start, stop, draws⟩ := fine.exists_interval here
          have looked : model.extended.row position.state action =
              .ok (model.rowAt position.state (policy.choice position.state)).extended := by
            rw [Policy.choice_of_get? chosen]
            exact (stochastic.accepted legal.active).row_eq_ok member allowed
          obtain ⟨box, inside, volume, makes⟩ := @ih others
            (position.advance model.extended.discount keep
              (model.extended.stepTo position.state action entry.1))
            (fine.known entry here positive) found ((mul_pos_iff_of_pos_left positive).mp likely)
          refine ⟨(low, low + entry.2) :: box, List.forall_mem_cons.mpr
            ⟨⟨start, lt_add_of_pos_right low positive, stop⟩, inside⟩, ?_, ?_⟩
          · rw [Model.chance, probability, Box.volume, List.map_cons, List.prod_cons,
              add_sub_cancel_left]
            exact congrArg _ volume
          · intro uniforms holds rest used
            obtain ⟨uniform, later, ⟨reached, exceeded⟩, others, rfl⟩ :=
              List.forall₂_cons_left_iff.mp holds
            obtain ⟨last, left, steps, walks, stops, same⟩ := makes later others rest (used + 1)
            exact ⟨last, left, _,
              .step running chosen looked (draws uniform reached exceeded) walks, stops.cons,
              congrArg (List.cons entry.1) same⟩

/-! ## Means of what walks collect -/

/-- The outcomes are those of walks, each listed once. Every walk makes exactly one, which has a
positive chance, and has then collected what it earns. Chances are probabilities: they add up to one,
and each is the volume of a box of uniforms that make the outcome. -/
structure Model.OutcomesOfWalks (model : Model F) (policy : Policy) (count : Nat) (start : Ident) :
    Prop where
  distinct : (model.outcomes policy count start).Nodup
  chances : ((model.outcomes policy count start).map (model.chance policy start)).sum = 1
  made : ∀ {Source : Type} [UniformSource Source (Extended F)] (source : Source) (keep : Bool),
    ∃ outcome ∈ model.outcomes policy count start, 0 < model.chance policy start outcome ∧
      ∃ last later, model.extended.Makes policy keep count (.start start) source outcome last later ∧
        last.total = .finite (model.earned policy start outcome) ∧
        (model.extended.walk policy start count keep source).result model.extended =
          .ok (model.extended.ending last, later)
  unique : ∀ {Source : Type} [UniformSource Source (Extended F)] (source : Source) (keep : Bool)
    (outcome other : List Ident) (last final : Position (Extended F)) (later left : Source),
    model.extended.Makes policy keep count (.start start) source outcome last later →
      model.extended.Makes policy keep count (.start start) source other final left →
        outcome = other
  volume : ∀ outcome ∈ model.outcomes policy count start, 0 < model.chance policy start outcome →
    ∀ keep, ∃ box, model.BoxOf policy keep count (.start start) outcome box

section Agreement

variable {start : Ident} (stochastic : model.Stochastic) (legal : model.LegalPolicy policy)
  (member : start ∈ model.states)

include stochastic legal member

theorem Model.exists_outcome {Source : Type} [UniformSource Source (Extended F)] (source : Source)
    (keep : Bool) (count : Nat) :
    ∃ outcome ∈ model.outcomes policy count start, 0 < model.chance policy start outcome ∧
      ∃ last later, model.extended.Makes policy keep count (.start start) source outcome last later ∧
        last.total = .finite (model.earned policy start outcome) ∧
        last.state = outcome.getLastD start := by
  have ready := (stochastic.accepted legal.active).ready
  have lawful : model.extended.LegalPolicy policy := legal
  have stands : (Position.start start : Position (Extended F)).state ∈ model.extended.states := member
  obtain ⟨steps, last, later, walks, stops⟩ :=
    @Model.Ready.exists_walks _ _ _ _ _ _ keep _ ready lawful stands count source
  obtain ⟨listed, likely⟩ := walks.mem_outcomes stops
  have total := walks.total_eq Extended.zero_eq Extended.one_eq
  rw [zero_add, one_mul] at total
  exact ⟨_, listed, likely, last, later, ⟨steps, walks, stops, rfl⟩, total, walks.state_eq⟩

private theorem Model.outcomesOfWalks (count : Nat) : model.OutcomesOfWalks policy count start where
  distinct := model.outcomes_nodup policy count start
  chances := by
    have whole := Model.expectation_const stochastic legal member count 1
    simpa only [Model.expectation, mul_one] using whole
  made source keep := by
    obtain ⟨outcome, listed, likely, last, later, ⟨steps, walks, stops, same⟩, total, -⟩ :=
      Model.exists_outcome stochastic legal member source keep count
    exact ⟨outcome, listed, likely, last, later, ⟨steps, walks, stops, same⟩, total,
      walks.result_walkFrom stops⟩
  unique source keep outcome other last final later left := by
    rintro ⟨steps, walks, stops, rfl⟩ ⟨others, again, halts, rfl⟩
    rw [walks.unique stops again halts]
  volume outcome listed likely keep :=
    Model.exists_box stochastic legal (.start start) member listed likely

end Agreement

/-- On a stochastic model whose terminal states absorb, the mean of what walks of at most `count`
steps collect is the utility that as many sweeps of policy evaluation compute from zero. If every
outcome of positive chance ends in a terminal state, every rollout returns what its outcome earns, so
the mean is that of the returned totals. -/
theorem Model.evaluatePolicy_eq_expectation (model : Model F) (stochastic : model.Stochastic)
    (absorbs : ∀ state ∈ model.states, model.isTerminal state = true → model.Absorbs state)
    (policy : Policy) (legal : model.LegalPolicy policy) (start : Ident)
    (member : start ∈ model.states) (count : Nat) (positive : 1 ≤ count) :
    (∃ utility,
      (model.extended.evaluatePolicy policy count none).result model.extended = (do
        model.extended.checkDiscount
        return utility) ∧
      utility.get? start =
        some (.finite (model.expectation policy count start (model.earned policy start)))) ∧
    model.OutcomesOfWalks policy count start ∧
    ((∀ outcome ∈ model.outcomes policy count start, 0 < model.chance policy start outcome →
        model.isTerminal (outcome.getLastD start) = true) →
      ∀ {Source : Type} [UniformSource Source (Extended F)] (source : Source) (trial : Int)
        (keep : Bool), ∃ outcome ∈ model.outcomes policy count start,
          0 < model.chance policy start outcome ∧ ∃ last later,
            model.extended.Makes policy keep count (.start start) source outcome last later ∧
            (model.extended.rollout policy start trial count keep source).result model.extended =
              .ok (last.rollout trial, later) ∧
            (last.rollout trial).total = .finite (model.earned policy start outcome)) := by
  refine ⟨?_, Model.outcomesOfWalks stochastic legal member count, ?_⟩
  · refine ⟨_, Model.result_evaluatePolicy_of_sweeps (stochastic.accepted legal.active) legal.takes
      legal.legalChoice (Int.natCast_pos.mpr positive) none model.zeroUtility_reads, ?_⟩
    rw [model.tabled_reads _ _ member, Model.expectation_earned stochastic legal absorbs member,
      Int.toNat_natCast]
  · intro absorbed _ _ source trial keep
    obtain ⟨outcome, listed, likely, last, later, ⟨steps, walks, stops, same⟩, total, ends⟩ :=
      Model.exists_outcome stochastic legal member source keep count
    have terminal : model.extended.isTerminal last.state = true :=
      ends ▸ absorbed outcome listed likely
    have within : model.extended.Stops (count : Int).toNat steps last := stops
    refine ⟨outcome, listed, likely, last, later, ⟨steps, walks, stops, same⟩, ?_, total⟩
    rw [walks.result_rollout within, if_pos terminal]

/-- On the trip every walk is over after two steps, and the mean is `5 / 4`. -/
theorem Model.evaluatePolicy_eq_expectation_trip :
    let policy : Policy := .ofPairs
      [(.int 0, .text "go"), (.int 1, .text "go"), (.int 2, .blank)]
    (trip.Stochastic ∧
      (∀ state ∈ trip.states, trip.isTerminal state = true → trip.Absorbs state) ∧
      trip.LegalPolicy policy ∧ Ident.int 0 ∈ trip.states ∧ 1 ≤ 2 ∧
      ∀ outcome ∈ trip.outcomes policy 2 (.int 0), 0 < trip.chance policy (.int 0) outcome →
        trip.isTerminal (outcome.getLastD (.int 0)) = true) ∧
    trip.expectation policy 2 (.int 0) (trip.earned policy (.int 0)) = 5 / 4 ∧
    (∃ utility, (trip.extended.evaluatePolicy policy 2 none).result trip.extended = .ok utility ∧
      utility.get? (.int 0) = some (.finite (5 / 4))) ∧
    ∀ {Source : Type} [UniformSource Source (Extended ℚ)] (source : Source) (trial : Int)
      (keep : Bool), ∃ outcome ∈ trip.outcomes policy 2 (.int 0),
        0 < trip.chance policy (.int 0) outcome ∧ ∃ last later,
          trip.extended.Makes policy keep 2 (.start (.int 0)) source outcome last later ∧
          (trip.extended.rollout policy (.int 0) trial 2 keep source).result trip.extended =
            .ok (last.rollout trial, later) ∧
          (last.rollout trial).total = .finite (trip.earned policy (.int 0) outcome) := by
  intro policy
  have stochastic : trip.Stochastic := by decide +kernel
  have absorbs : ∀ state ∈ trip.states, trip.isTerminal state = true → trip.Absorbs state := by
    intro state member terminal
    have last : state = .int 2 := by simpa [Model.isTerminal, trip] using terminal
    subst last
    exact ⟨by decide +kernel, rfl, by decide +kernel⟩
  have legal : trip.LegalPolicy policy := by decide +kernel
  have member : Ident.int 0 ∈ trip.states := by decide +kernel
  have absorbed : ∀ outcome ∈ trip.outcomes policy 2 (.int 0),
      0 < trip.chance policy (.int 0) outcome →
        trip.isTerminal (outcome.getLastD (.int 0)) = true := by decide +kernel
  have mean : trip.expectation policy 2 (.int 0) (trip.earned policy (.int 0)) = 5 / 4 := by
    decide +kernel
  have discount : trip.extended.checkDiscount = .ok () :=
    Model.checkDiscount_extended_iff.mpr (by decide +kernel)
  obtain ⟨⟨utility, run, found⟩, -, returns⟩ := Model.evaluatePolicy_eq_expectation trip stochastic
    absorbs policy legal (.int 0) member 2 one_le_two
  rw [discount, ok_bind] at run
  rw [mean] at found
  exact ⟨⟨stochastic, absorbs, legal, member, one_le_two, absorbed⟩, mean, ⟨utility, run, found⟩,
    returns absorbed⟩

end MarkovDecision
