import Mathlib.Data.List.Chain
import MarkovDecision.Proofs.PolicyIteration.Optimality
import MarkovDecision.Proofs.PolicyIteration.Trace

/-!
# When rounds improve the policy

A round compares actions by computed values. Measured by these, one more backup of the new policy is
nowhere below that of the old one. Measured by the exact values of the two policies the same holds if
the computed values were close enough to the exact ones of the old policy, and otherwise something may
be lost, but no more than a share of the error. With enough sweeps for the model every round is close
enough, and then no policy comes again.
-/

set_option autoImplicit false

namespace MarkovDecision

variable {F : Type} [Field F] [LinearOrder F] {model : Model F}

/-! ## Comparing policies -/

/-- The exact utility of the second policy is nowhere below that of the first and somewhere above it.
Both exist. -/
structure Model.Betters (model : Model F) (before after : Policy) : Prop where
  evaluated : ∃ exact, model.EvaluationFixes before exact
  reevaluated : ∃ exact, model.EvaluationFixes after exact
  rises : ∀ lower upper, model.EvaluationFixes before lower → model.EvaluationFixes after upper →
    ∀ state ∈ model.states, ∃ low high, lower.get? state = some low ∧
      upper.get? state = some high ∧ low ≤ high
  lifts : ∀ lower upper, model.EvaluationFixes before lower → model.EvaluationFixes after upper →
    ∃ state ∈ model.states, ∃ low high, lower.get? state = some low ∧
      upper.get? state = some high ∧ low < high

theorem Model.Betters.trans {first second third : Policy} (sooner : model.Betters first second)
    (later : model.Betters second third) : model.Betters first third := by
  obtain ⟨between, fixed⟩ := sooner.reevaluated
  refine ⟨sooner.evaluated, later.reevaluated, fun lower upper low high state member => ?_,
    fun lower upper low high => ?_⟩
  · obtain ⟨start, middle, found, held, rise⟩ := sooner.rises lower between low fixed state member
    obtain ⟨again, final, same, ends, more⟩ := later.rises between upper fixed high state member
    rw [held] at same
    cases same
    exact ⟨start, final, found, ends, rise.trans more⟩
  · obtain ⟨state, member, start, middle, found, held, lift⟩ := sooner.lifts lower between low fixed
    obtain ⟨again, final, same, ends, more⟩ := later.rises between upper fixed high state member
    rw [held] at same
    cases same
    exact ⟨state, member, start, final, found, ends, lift.trans_le more⟩

instance : IsTrans Policy model.Betters := ⟨fun _ _ _ => Model.Betters.trans⟩

/-- Two policies that choose differently in some of the states. -/
def Policy.DiffersOn (states : List Ident) (first second : Policy) : Prop :=
  ∃ state ∈ states, first.get? state ≠ second.get? state

variable {K : Type}

/-- The given policy, and the policy after each round that replaced an action. -/
def PolicyIteration.course (result : PolicyIteration K) (policy : Policy) : List Policy :=
  policy :: (result.rounds.filter Round.changed).map Round.policy

private theorem enteringPolicy_cons {begun : Policy} {first round : Round K} {rest : List (Round K)}
    {place : Nat} (listed : rest[place]? = some round) :
    enteringPolicy begun (first :: rest) (place + 1) = enteringPolicy first.policy rest place := by
  cases place with
  | zero => rfl
  | succ place =>
      have within := (List.getElem?_eq_some_iff.mp listed).1
      have earlier : rest[place]? = some rest[place] := List.getElem?_eq_getElem (by omega)
      simp only [enteringPolicy, previousRound, List.getElem?_cons_succ, earlier, Option.map_some,
        Option.getD_some]

private theorem isChain_policies {related : Policy → Policy → Prop} {begun : Policy}
    {rounds : List (Round K)}
    (each : ∀ (place : Nat) (round : Round K), rounds[place]? = some round →
      related (enteringPolicy begun rounds place) round.policy) :
    (begun :: rounds.map Round.policy).IsChain related := by
  induction rounds generalizing begun with
  | nil => exact .singleton _
  | cons first rest ih =>
      refine .cons_cons (each 0 first rfl) (ih fun place round listed => ?_)
      have here := each (place + 1) round listed
      rwa [enteringPolicy_cons listed] at here

/-! ## One improvement -/

variable [IsStrictOrderedRing F]

section Exact

variable {choice : Ident → Ident} {computed exact next : Ident → F} {above below : F}
  (stochastic : model.Stochastic) (active : ∀ state ∈ model.states, model.legal state ≠ [])
  (discount : 0 ≤ model.discount ∧ model.discount < 1) (legal : model.LegalChoice choice)
  (stays : ∀ state ∈ model.states, model.follow choice exact state = exact state)
  (high : ∀ state ∈ model.states, computed state - exact state ≤ above)
  (low : ∀ state ∈ model.states, exact state - computed state ≤ below)

include stochastic active discount legal stays high low

private theorem Model.Improvable.add_lt_follow {state : Ident} (member : state ∈ model.states)
    (better : model.Improvable choice computed state) :
    exact state + margin - model.discount * (above + below) <
      model.follow (model.improved choice computed) exact state := by
  have lowered : model.follow choice exact state - model.follow choice computed state ≤
      model.discount * below :=
    stochastic.backup_sub_le discount.1 member (legal state member) low
  have raised : model.follow (model.improved choice computed) computed state -
      model.follow (model.improved choice computed) exact state ≤ model.discount * above :=
    stochastic.backup_sub_le discount.1 member
      (Model.improved_legal active legal state member) high
  have gained : model.follow choice computed state + margin <
      model.follow (model.improved choice computed) computed state := by
    have greedy : model.improved choice computed state = model.greedy computed state := if_pos better
    rw [Model.follow_eq_best greedy]
    exact better
  rw [stays state member] at lowered
  linarith

variable (settles : ∀ state ∈ model.states,
  model.follow (model.improved choice computed) next state = next state)

include settles

private theorem Model.exact_sub_le_of_improved :
    ∀ state ∈ model.states, exact state - next state ≤
      max (model.discount * (above + below) - margin) 0 / (1 - model.discount) := by
  have lawful : model.LegalChoice (model.improved choice computed) :=
    Model.improved_legal active legal
  have contracts := stochastic.follow_contracts discount.1 lawful
  refine contracts.sub_le discount.2 (le_max_right _ _) fun state member => ?_
  rw [settles state member]
  by_cases better : model.Improvable choice computed state
  · have gained := better.add_lt_follow stochastic active discount legal stays high low member
    have lost := le_max_left (model.discount * (above + below) - margin) 0
    linarith
  · have kept : model.improved choice computed state = choice state := if_neg better
    have same : model.follow (model.improved choice computed) exact state = exact state :=
      (Model.follow_congr kept exact).trans (stays state member)
    have free := le_max_right (model.discount * (above + below) - margin) 0
    linarith

theorem Model.exact_le_of_improved (close : model.discount * (above + below) ≤ margin) :
    ∀ state ∈ model.states, exact state ≤ next state := by
  intro state member
  have lost := Model.exact_sub_le_of_improved stochastic active discount legal stays high low settles
    state member
  rwa [max_eq_right (sub_nonpos.mpr close), zero_div, sub_nonpos] at lost

theorem Model.Improvable.add_lt_exact (close : model.discount * (above + below) ≤ margin)
    {state : Ident} (member : state ∈ model.states)
    (better : model.Improvable choice computed state) :
    exact state + margin - model.discount * (above + below) < next state := by
  have lawful : model.LegalChoice (model.improved choice computed) :=
    Model.improved_legal active legal
  have contracts := stochastic.follow_contracts discount.1 lawful
  have rises := Model.exact_le_of_improved stochastic active discount legal stays high low settles
    close
  calc exact state + margin - model.discount * (above + below)
      < model.follow (model.improved choice computed) exact state :=
        better.add_lt_follow stochastic active discount legal stays high low member
    _ ≤ model.follow (model.improved choice computed) next state := contracts.mono rises state member
    _ = next state := settles state member

private theorem Model.Improvable.exact_lt (close : model.discount * (above + below) ≤ margin)
    {state : Ident}
    (member : state ∈ model.states) (better : model.Improvable choice computed state) :
    exact state < next state := by
  have gained := better.add_lt_exact stochastic active discount legal stays high low settles close
    member
  linarith

end Exact

/-! ## Rounds -/

/-- What a round does to the policy that enters it. By one more evaluation from the utility of the
round, the policy after it is nowhere worse, and better by more than the margin somewhere if an action
was replaced. By exact utilities something may be lost if the utility of the round is above and below
the exact one of the policy that enters. -/
structure Round.Improves (round : Round (Extended F)) (model : Model F) (before : Policy) : Prop where
  swept : ∃ kept lifted,
    (model.extended.evaluatePolicy before 1 (some round.utility)).result model.extended = .ok kept ∧
    (model.extended.evaluatePolicy round.policy 1 (some round.utility)).result model.extended =
      .ok lifted ∧
    Utility.ExceedsAtMost kept lifted model.states 0 ∧
    (round.changed = true → ∃ state ∈ model.states, ∃ low high : F,
      kept.get? state = some (.finite low) ∧ lifted.get? state = some (.finite high) ∧
      low + margin < high)
  exact : ∀ (lower upper : Utility F) (above below : F), model.EvaluationFixes before lower →
    model.EvaluationFixes round.policy upper →
    Utility.ExceedsAtMost round.utility lower.extended model.states above →
    Utility.ExceedsAtMost lower.extended round.utility model.states below →
    Utility.ExceedsAtMost lower.extended upper.extended model.states
      (max (model.discount * (above + below) - margin) 0 / (1 - model.discount)) ∧
    (model.discount * (above + below) ≤ margin → round.changed = true →
      ∃ state ∈ model.states, ∃ low high, lower.get? state = some low ∧
        upper.get? state = some high ∧ low < high)

section Rounds

variable {round : Round (Extended F)} {before : Policy} (stochastic : model.Stochastic)
  (discount : 0 ≤ model.discount ∧ model.discount < 1)

include stochastic discount

theorem Round.Made.improves {sweeps : Nat} {standing : Standing F}
    (active : ∀ state ∈ model.states, model.legal state ≠ []) (made : round.Made model sweeps standing)
    (takes : before.Takes model.states standing.choice) (legal : model.LegalChoice standing.choice) :
    round.Improves model before := by
  have accepted := stochastic.accepted active
  have next : model.LegalChoice (model.advance sweeps standing).choice :=
    Model.improved_legal active legal
  have reads := model.tabled_reads (model.evaluated sweeps standing)
  have utility := made.utility
  constructor
  · have start : Utility.Reads ((some round.utility).getD model.extended.zeroUtility) model.states
        (model.evaluated sweeps standing) := by
      rwa [Option.getD_some, utility]
    refine ⟨_, _, Model.result_evaluatePolicy accepted takes legal discount one_pos _ start,
      Model.result_evaluatePolicy accepted made.policy next discount one_pos _ start, ?_, ?_⟩
    · refine (Utility.exceedsAtMost_iff (model.tabled_reads _) (model.tabled_reads _) _).mpr
        fun state _ => ?_
      rw [add_zero]
      exact Model.follow_le_follow_improved state
    · intro changed
      obtain ⟨state, member, better⟩ := made.changed.mp changed
      refine ⟨state, member, _, _, model.tabled_reads _ state member,
        model.tabled_reads _ state member, ?_⟩
      have greedy : (model.advance sweeps standing).choice state =
          model.greedy (model.evaluated sweeps standing) state := if_pos better
      exact better.trans_eq (Model.follow_eq_best greedy).symm
  · intro lower upper above below evaluated reevaluated high low
    obtain ⟨value, covered, stays⟩ := takes.exists_value accepted evaluated
    obtain ⟨after, found, settles⟩ := made.policy.exists_value accepted reevaluated
    have readsLower := Utility.extended_reads covered
    rw [utility, Utility.exceedsAtMost_iff reads readsLower] at high
    rw [utility, Utility.exceedsAtMost_iff readsLower reads] at low
    have fromAbove : ∀ state ∈ model.states,
        model.evaluated sweeps standing state - value state ≤ above :=
      fun state member => sub_le_iff_le_add'.mpr (high state member)
    have fromBelow : ∀ state ∈ model.states,
        value state - model.evaluated sweeps standing state ≤ below :=
      fun state member => sub_le_iff_le_add'.mpr (low state member)
    constructor
    · rw [Utility.exceedsAtMost_iff readsLower (Utility.extended_reads found)]
      intro state member
      exact sub_le_iff_le_add'.mp (Model.exact_sub_le_of_improved stochastic active discount legal
        stays fromAbove fromBelow settles state member)
    · intro close changed
      obtain ⟨state, member, better⟩ := made.changed.mp changed
      exact ⟨state, member, _, _, covered state member, found state member,
        better.exact_lt stochastic active discount legal stays fromAbove fromBelow settles close
          member⟩

private theorem Round.Improves.betters (improves : round.Improves model before)
    (legal : model.LegalPolicy before) (lawful : model.LegalPolicy round.policy)
    (changed : round.changed = true)
    (close : ∀ lower, model.EvaluationFixes before lower → ∃ above below,
      Utility.ExceedsAtMost round.utility lower.extended model.states above ∧
      Utility.ExceedsAtMost lower.extended round.utility model.states below ∧
      model.discount * (above + below) ≤ margin) : model.Betters before round.policy := by
  refine ⟨stochastic.exists_evaluationFixes discount legal,
    stochastic.exists_evaluationFixes discount lawful, fun lower upper evaluated reevaluated => ?_,
    fun lower upper evaluated reevaluated => ?_⟩
  · obtain ⟨above, below, high, low, small⟩ := close lower evaluated
    have lost := (improves.exact lower upper above below evaluated reevaluated high low).1
    rw [max_eq_right (sub_nonpos.mpr small), zero_div] at lost
    intro state member
    obtain ⟨worse, better, found, held, rise⟩ := lost state member
    rw [Table.get?_extended, Option.map_eq_some_iff] at found held
    obtain ⟨_, found, same⟩ := found
    cases same
    obtain ⟨_, held, same⟩ := held
    cases same
    exact ⟨_, _, found, held, by rwa [add_zero] at rise⟩
  · obtain ⟨above, below, high, low, small⟩ := close lower evaluated
    exact (improves.exact lower upper above below evaluated reevaluated high low).2 small changed

end Rounds

/-! ## Runs -/

/-- What is left of the values after these sweeps is less than the margin, if rewards of one step are
at most `1 - discount` times a ceiling. -/
def Model.EnoughSweeps (model : Model F) (sweeps : Nat) : Prop :=
  ∃ ceiling, model.Ceiling model.discount ceiling ∧
    model.discount ^ sweeps * (2 * (ceiling + ceiling)) ≤ margin

private theorem Model.exists_enoughSweeps [Archimedean F]
    (discount : 0 ≤ model.discount ∧ model.discount < 1) :
    ∃ enough, ∀ sweeps, enough ≤ sweeps → model.EnoughSweeps sweeps := by
  obtain ⟨ceiling, capped⟩ := model.exists_ceiling discount.2
  have nonneg : 0 ≤ 2 * (ceiling + ceiling) :=
    mul_nonneg zero_le_two (add_nonneg capped.nonneg capped.nonneg)
  obtain ⟨enough, small⟩ := exists_pow_mul_lt discount.1 discount.2 nonneg margin_pos
  exact ⟨enough, fun sweeps many => ⟨ceiling, capped, (small sweeps many).le⟩⟩

section Runs

variable {sweeps rounds : Nat} {policy : Policy} {result : PolicyIteration (Extended F)}
  (ended : result.Ended model sweeps policy.choice rounds)

include ended

omit [IsStrictOrderedRing F] in
private theorem PolicyIteration.Ended.place_le {place : Nat} {round : Round (Extended F)}
    (listed : result.rounds[place]? = some round) : place ≤ rounds := by
  have within := (List.getElem?_eq_some_iff.mp listed).1
  rw [ended.length_eq] at within
  omega

omit [IsStrictOrderedRing F] in
private theorem PolicyIteration.Ended.entering_takes (legal : model.LegalPolicy policy)
    {place : Nat} (within : place ≤ rounds) :
    (enteringPolicy policy result.rounds place).Takes model.states
      (model.standing sweeps policy.choice place).choice := by
  cases place with
  | zero => exact legal.takes
  | succ place =>
      have bound : place < result.rounds.length := by
        rw [ended.length_eq]
        omega
      have listed := List.getElem?_eq_getElem bound
      have made := (ended.traced place _ listed).2
      rw [Model.standing_succ, enteringPolicy, previousRound, listed]
      exact made.policy

omit [IsStrictOrderedRing F] in
/-- Every round but the last has replaced an action. -/
theorem PolicyIteration.Ended.exists_earlier :
    ∃ earlier last, result.rounds = earlier ++ [last] ∧ earlier.length = rounds ∧
      result.course policy = policy :: earlier.map Round.policy ∧
      ∀ round ∈ earlier, round.changed = true := by
  obtain ⟨last, latest, -, still, -⟩ := ended.last
  obtain ⟨earlier, split⟩ := List.getLast?_eq_some_iff.mp latest
  have length : earlier.length = rounds := by
    have total := ended.length_eq
    rw [split, List.length_append, List.length_singleton] at total
    omega
  have moved : ∀ round ∈ earlier, round.changed = true := by
    intro round member
    obtain ⟨place, within, same⟩ := List.getElem_of_mem member
    have listed : result.rounds[place]? = some round := by
      rw [split, List.getElem?_append_left within, List.getElem?_eq_getElem within, same]
    have restless := ended.ends.earliest place (by omega)
    simp only [Model.Quiet, not_forall, not_not] at restless
    obtain ⟨state, known, better⟩ := restless
    exact (ended.traced place round listed).2.changed.mpr ⟨state, known, better⟩
  refine ⟨earlier, last, split, length, ?_, moved⟩
  rw [PolicyIteration.course, split, List.filter_append, List.filter_eq_self.mpr moved]
  simp [still]

theorem PolicyIteration.Ended.improves (stochastic : model.Stochastic)
    (discount : 0 ≤ model.discount ∧ model.discount < 1) (legal : model.LegalPolicy policy)
    (place : Nat) (round : Round (Extended F)) (listed : result.rounds[place]? = some round) :
    round.Improves model (enteringPolicy policy result.rounds place) :=
  (ended.traced place round listed).2.improves stochastic discount legal.active
    (ended.entering_takes legal (ended.place_le listed))
    (Model.standing_legal legal.active legal.legalChoice sweeps place)

/-- The sweeps of a round start under the ceiling, so its utility is near the exact one of the policy
that enters. -/
theorem PolicyIteration.Ended.near_exact (stochastic : model.Stochastic)
    (discount : 0 ≤ model.discount ∧ model.discount < 1) (legal : model.LegalPolicy policy)
    {ceiling : F} (capped : model.Ceiling model.discount ceiling) {place : Nat}
    {round : Round (Extended F)} (listed : result.rounds[place]? = some round) {exact : Utility F}
    (evaluated : model.EvaluationFixes (enteringPolicy policy result.rounds place) exact) :
    Utility.ExceedsAtMost round.utility exact.extended model.states
        (model.discount ^ sweeps * (ceiling + ceiling)) ∧
      Utility.ExceedsAtMost exact.extended round.utility model.states
        (model.discount ^ sweeps * (ceiling + ceiling)) := by
  have active := legal.active
  have contracts : ∀ choice, model.LegalChoice choice →
      Contracts model.states model.discount (model.follow choice) := fun _ =>
    stochastic.follow_contracts discount.1
  have takes := ended.entering_takes legal (ended.place_le listed)
  have lawful := Model.standing_legal active legal.legalChoice sweeps place
  obtain ⟨value, covered, stays⟩ := takes.exists_value (stochastic.accepted active) evaluated
  have near := capped.abs_iterate_sub_fixed_le lawful (contracts _ lawful) discount.1 discount.2
    (capped.abs_standing_le active contracts legal.legalChoice sweeps place) stays sweeps
  have reads := model.tabled_reads (model.evaluated sweeps (model.standing sweeps policy.choice place))
  have readsExact := Utility.extended_reads covered
  rw [(ended.traced place round listed).2.utility, Utility.exceedsAtMost_iff reads readsExact,
    Utility.exceedsAtMost_iff readsExact reads]
  exact ⟨fun state member => sub_le_iff_le_add'.mp (abs_sub_le_iff.mp (near state member)).1,
    fun state member => sub_le_iff_le_add'.mp (abs_sub_le_iff.mp (near state member)).2⟩

private theorem PolicyIteration.Ended.pairwise_betters (stochastic : model.Stochastic)
    (discount : 0 ≤ model.discount ∧ model.discount < 1) (legal : model.LegalPolicy policy)
    (enough : model.EnoughSweeps sweeps) : (result.course policy).Pairwise model.Betters := by
  obtain ⟨ceiling, capped, close⟩ := enough
  have active := legal.active
  obtain ⟨earlier, last, split, -, course, moved⟩ := ended.exists_earlier
  rw [course, ← List.isChain_iff_pairwise]
  refine isChain_policies fun place round found => ?_
  have bound := (List.getElem?_eq_some_iff.mp found).1
  have listed : result.rounds[place]? = some round := by
    rw [split, List.getElem?_append_left bound, found]
  have entering : enteringPolicy policy earlier place = enteringPolicy policy result.rounds place := by
    rw [enteringPolicy, enteringPolicy, split, previousRound_append bound.le]
  have lawful := Model.standing_legal active legal.legalChoice sweeps place
  have before := (ended.entering_takes legal (ended.place_le listed)).legalPolicy lawful
  have after := (ended.traced place round listed).2.policy.legalPolicy
    (Model.improved_legal active lawful)
  rw [entering]
  refine (ended.improves stochastic discount legal place round listed).betters stochastic discount
    before after (moved round (List.mem_of_getElem? found)) fun lower evaluated => ?_
  obtain ⟨high, low⟩ := ended.near_exact stochastic discount legal capped listed evaluated
  refine ⟨_, _, high, low, ?_⟩
  let error := model.discount ^ sweeps * (ceiling + ceiling)
  have error_nonneg : 0 ≤ error :=
    mul_nonneg (pow_nonneg discount.1 _) (add_nonneg capped.nonneg capped.nonneg)
  calc model.discount * (error + error)
      ≤ error + error := mul_le_of_le_one_left (add_nonneg error_nonneg error_nonneg) discount.2.le
    _ = model.discount ^ sweeps * (2 * (ceiling + ceiling)) := by ring
    _ ≤ margin := close

end Runs

/-- Policies that agree on the states have the same exact utility, so neither betters the other. -/
private theorem Model.Betters.differsOn (stochastic : model.Stochastic)
    (discount : 0 ≤ model.discount ∧ model.discount < 1) {before after : Policy}
    (betters : model.Betters before after) : Policy.DiffersOn model.states before after := by
  by_contra same
  simp only [Policy.DiffersOn, not_exists, not_and, not_not] at same
  obtain ⟨exact, evaluated⟩ := betters.evaluated
  obtain ⟨_, reevaluated⟩ := betters.reevaluated
  have legal := evaluated.legal
  have accepted := stochastic.accepted legal.active
  obtain ⟨value, -, stays⟩ := evaluated.exists_value accepted legal
  have restays : ∀ state ∈ model.states, model.follow after.choice value state = value state := by
    intro state member
    have agrees : after.choice state = before.choice state := by
      rw [Policy.choice, Policy.choice, same state member]
    exact (Model.follow_congr agrees value).trans (stays state member)
  obtain ⟨state, member, low, high, found, held, lift⟩ := betters.lifts _ _
    (Model.evaluationFixes_of_follow_eq accepted legal discount stays)
    (Model.evaluationFixes_of_follow_eq accepted reevaluated.legal discount restays)
  rw [found] at held
  cases held
  exact absurd lift (lt_irrefl _)

/-- From every legal policy a run ends, and each of its rounds improves the policy that enters it as
far as the utility of the round can tell. With enough sweeps, which every model has, every policy of
the course is better than those before it and differs from them. -/
theorem Model.policyIteration_improves [Archimedean F] (Source : Type) [IndexSource Source]
    (model : Model F) (stochastic : model.Stochastic)
    (active : ∀ state ∈ model.states, model.legal state ≠ [])
    (discount : 0 ≤ model.discount ∧ model.discount < 1) :
    (∃ enough, ∀ sweeps, enough ≤ sweeps → model.EnoughSweeps sweeps) ∧
    ∀ sweeps : Int, 1 ≤ sweeps → ∀ policy, model.LegalPolicy policy →
      ∃ result : PolicyIteration (Extended F),
        (∀ budget, result.rounds.length ≤ budget →
          (model.extended.policyIteration sweeps
            (.given policy : StartingPolicy (Extended F) Source) budget).result model.extended =
              .ok (some result)) ∧
        (∀ (place : Nat) (round : Round (Extended F)), result.rounds[place]? = some round →
          round.Improves model (enteringPolicy policy result.rounds place)) ∧
        (model.EnoughSweeps sweeps.toNat → (result.course policy).Pairwise fun before after =>
          model.Betters before after ∧ Policy.DiffersOn model.states before after) := by
  refine ⟨Model.exists_enoughSweeps discount, fun sweeps positive policy legal => ?_⟩
  obtain ⟨result, rounds, runs, ended⟩ :=
    Model.exists_ended Source stochastic active discount positive legal
  refine ⟨result, runs, ended.improves stochastic discount legal, fun enough => ?_⟩
  exact (ended.pairwise_betters stochastic discount legal enough).imp fun betters =>
    ⟨betters, betters.differsOn stochastic discount⟩

/-- On the outing 43 sweeps are enough. -/
theorem Model.policyIteration_improves_outing :
    let model := outing 0
    let policy : Policy := .ofKeys model.states fun _ => .text "stay"
    (model.Stochastic ∧ (∀ state ∈ model.states, model.legal state ≠ []) ∧
      (0 ≤ model.discount ∧ model.discount < 1) ∧ (1 : Int) ≤ 43 ∧ model.LegalPolicy policy ∧
      model.EnoughSweeps 43) ∧
    (∃ enough, ∀ sweeps, enough ≤ sweeps → model.EnoughSweeps sweeps) ∧
    ∃ result : PolicyIteration (Extended ℚ),
      (∀ budget, result.rounds.length ≤ budget →
        (model.extended.policyIteration 43
          (.given policy : StartingPolicy (Extended ℚ) Generator) budget).result model.extended =
            .ok (some result)) ∧
      (∀ (place : Nat) (round : Round (Extended ℚ)), result.rounds[place]? = some round →
        round.Improves model (enteringPolicy policy result.rounds place)) ∧
      (result.course policy).Pairwise fun before after =>
        model.Betters before after ∧ Policy.DiffersOn model.states before after := by
  intro model policy
  have active : ∀ state ∈ model.states, model.legal state ≠ [] := by decide +kernel
  have discount : 0 ≤ model.discount ∧ model.discount < 1 := by decide +kernel
  have legal : model.LegalPolicy policy := by decide +kernel
  have enough : model.EnoughSweeps 43 :=
    ⟨2, ⟨zero_le_two, by decide +kernel⟩, by norm_num [model, outing, margin]⟩
  obtain ⟨every, law⟩ := Model.policyIteration_improves Generator model outing_stochastic active
    discount
  obtain ⟨result, runs, improves, better⟩ := law 43 (by norm_num) policy legal
  exact ⟨⟨outing_stochastic, active, discount, by norm_num, legal, enough⟩, every, result, runs,
    improves, better enough⟩

end MarkovDecision
