import MarkovDecision.Proofs.Lookup
import MarkovDecision.Proofs.PolicyIteration.Run
import MarkovDecision.Random.Generator

/-!
# Traces of policy iteration

Whatever the model and however its numbers behave, each round of policy iteration follows from the
round before it by one evaluation and by one decision in each state. The decision of a state depends on
the policy that enters the round in this state alone, so it does not matter in which order states are
visited nor how often. Legality of the policy is the invariant that carries the loop: it keeps the
entry checks of the evaluations from failing, and it survives because the blank incumbent of a best
action, at minus infinity, is better than nothing.
-/

set_option autoImplicit false

namespace MarkovDecision

variable {K : Type} [Scalar K] {model : Model K} {utility : Utility K} {policy begun : Policy}
  {state current : Ident}

/-! ## Keys of policies -/

def Policy.IsOver (policy : Policy) (states : List Ident) : Prop :=
  ∀ state, state ∈ policy.keys ↔ state ∈ states

theorem Policy.IsOver.insert {states : List Ident} (covers : policy.IsOver states)
    (member : state ∈ states) (action : Ident) :
    Policy.IsOver (Table.insert policy state action) states := by
  intro other
  rw [Table.mem_keys_insert, covers other]
  constructor
  · rintro (rfl | listed)
    · exact member
    · exact listed
  · exact Or.inr

omit [Scalar K] in
private theorem Model.drawActions_keys {Source : Type} [IndexSource Source] {states : List Ident}
    {source : Source} {start drawn : Policy}
    (run : model.drawActions states source start = .ok drawn) (other : Ident) :
    other ∈ drawn.keys ↔ other ∈ start.keys ∨ other ∈ states := by
  induction states generalizing source start with
  | nil =>
      cases run
      simp
  | cons first rest ih =>
      obtain ⟨actions, -, run⟩ := bind_eq_ok_iff.mp run
      dsimp only at run
      split at run
      · cases run
      · rw [ih run, Table.mem_keys_insert, List.mem_cons, or_assoc, or_left_comm]

omit [Scalar K] in
theorem Model.startPolicy_isOver {Source : Type} [IndexSource Source]
    {start : StartingPolicy K Source} (run : model.startPolicy start = .ok begun) :
    begun.IsOver model.states := by
  intro other
  cases start with
  | given candidate =>
      obtain ⟨_, checked, -⟩ := bind_eq_ok_iff.mp run
      rw [Model.startPolicy_given (Model.checkPolicy_eq_ok_iff.mp checked)] at run
      cases run
      exact Table.mem_keys_ofKeys _ _ other
  | drawn source =>
      obtain ⟨ready, -, run⟩ := bind_eq_ok_iff.mp run
      rw [Model.drawActions_keys run, Table.keys_empty]
      simp

/-! ## Decisions -/

/-- The best action of a state beats an action if its value is above that of the action by more than
the margin. -/
def Model.Beaten (model : Model K) (utility : Utility K) (state current : Ident) : Prop :=
  ∃ best bestValue value,
    (model.bestAction utility state).result model = .ok (best, bestValue) ∧
    (model.expectedValue utility state current).result model = .ok value ∧
    Scalar.below (value + improvementMargin) bestValue = true

/-- The action of a state after an improvement, given the one before: the best action if that beats the
one before, which is kept otherwise. -/
def Model.Decides (model : Model K) (utility : Utility K) (state current chosen : Ident) : Prop :=
  ∃ best bestValue value,
    (model.bestAction utility state).result model = .ok (best, bestValue) ∧
    (model.expectedValue utility state current).result model = .ok value ∧
    chosen = if Scalar.below (value + improvementMargin) bestValue then best else current

/-- What an improvement over some states makes of a policy and of the number of actions that were
replaced before. -/
structure Model.Improvement (model : Model K) (utility : Utility K) (todo : List Ident)
    (before after : Policy) (replaced count : Nat) : Prop where
  legal : model.LegalPolicy after
  isOver : after.IsOver model.states
  decided : ∀ state ∈ todo, ∃ current chosen, before.get? state = some current ∧
    after.get? state = some chosen ∧ model.Decides utility state current chosen
  kept : ∀ state, state ∉ todo → after.get? state = before.get? state
  grown : replaced ≤ count
  counted : replaced < count ↔
    ∃ state ∈ todo, ∃ current, before.get? state = some current ∧ model.Beaten utility state current

section Improvement

variable {rest : List Ident} {before after : Policy} {replaced count : Nat} {first best : Ident}
  {bestValue value : K}
  (bestRun : (model.bestAction utility first).result model = .ok (best, bestValue))
  (held : before.get? first = some current)
  (valueRun : (model.expectedValue utility first current).result model = .ok value)

include bestRun held valueRun

/-- A state whose action has just been replaced may be visited again. Then its new action is the best
one, and to keep it or to replace it by the best one is the same. -/
private theorem Model.Improvement.cons_replaced
    (better : Scalar.below (value + improvementMargin) bestValue = true)
    (later : model.Improvement utility rest (before.insert first best) after (replaced + 1) count) :
    model.Improvement utility (first :: rest) before after replaced count := by
  refine ⟨later.legal, later.isOver, fun state member => ?_, fun state away => ?_,
    by have := later.grown; omega, ?_⟩
  · by_cases here : first = state
    · subst here
      refine ⟨current, best, held, ?_, best, bestValue, value, bestRun, valueRun, (if_pos better).symm⟩
      by_cases again : first ∈ rest
      · obtain ⟨chosen, final, entered, left, next, _, _, run, -, same⟩ := later.decided first again
        rw [Table.get?_insert, if_pos rfl] at entered
        rw [bestRun] at run
        cases entered
        cases run
        rw [left, same, ite_self]
      · rw [later.kept first again, Table.get?_insert, if_pos rfl]
    · have listed := (List.mem_cons.mp member).resolve_left (Ne.symm here)
      obtain ⟨chosen, final, entered, rest⟩ := later.decided state listed
      rw [Table.get?_insert, if_neg here] at entered
      exact ⟨chosen, final, entered, rest⟩
  · rw [List.mem_cons, not_or] at away
    rw [later.kept state away.2, Table.get?_insert, if_neg (Ne.symm away.1)]
  · have more := later.grown
    exact ⟨fun _ => ⟨first, List.mem_cons_self, current, held, best, bestValue, value, bestRun,
      valueRun, better⟩, fun _ => by omega⟩

private theorem Model.Improvement.cons_kept
    (worse : ¬ Scalar.below (value + improvementMargin) bestValue = true)
    (later : model.Improvement utility rest before after replaced count) :
    model.Improvement utility (first :: rest) before after replaced count := by
  refine ⟨later.legal, later.isOver, fun state member => ?_, fun state away => ?_, later.grown, ?_⟩
  · by_cases listed : state ∈ rest
    · exact later.decided state listed
    · have here := (List.mem_cons.mp member).resolve_right listed
      subst here
      exact ⟨current, current, held, (later.kept state listed).trans held, best, bestValue, value,
        bestRun, valueRun, (if_neg worse).symm⟩
  · exact later.kept state fun listed => away (List.mem_cons_of_mem _ listed)
  · rw [later.counted]
    constructor
    · rintro ⟨state, listed, beaten⟩
      exact ⟨state, List.mem_cons_of_mem _ listed, beaten⟩
    · rintro ⟨state, member, action, entered, beaten⟩
      rcases List.mem_cons.mp member with rfl | listed
      · obtain ⟨_, _, _, run, valued, better⟩ := beaten
        rw [held] at entered
        cases entered
        rw [bestRun] at run
        cases run
        rw [valueRun] at valued
        cases valued
        exact absurd better worse
      · exact ⟨state, listed, action, entered, beaten⟩

end Improvement

private theorem Model.yields_improvePolicy
    (bottom : ∀ value : K, Scalar.below value Scalar.negInf = false)
    {todo : List Ident} (subset : ∀ state ∈ todo, state ∈ model.states)
    (legal : model.LegalPolicy policy) (covers : policy.IsOver model.states) (replaced : Nat) :
    (model.improvePolicy utility todo (policy, replaced)).Yields model fun improved =>
      model.Improvement utility todo policy improved.1 replaced improved.2 := by
  induction todo generalizing policy replaced with
  | nil => exact ⟨legal, covers, by simp, fun _ _ => rfl, le_rfl, by simp⟩
  | cons first rest ih =>
      have member := subset first List.mem_cons_self
      have others : ∀ state ∈ rest, state ∈ model.states := fun state listed =>
        subset state (List.mem_cons_of_mem _ listed)
      obtain ⟨current, -, held⟩ := legal first member
      refine (model.yields_bestAction utility first).bind fun best bestRun chosen => ?_
      refine Inquiry.Yields.of_ok_bind (Table.demand_eq_ok held) ?_
      refine (model.yields_expectedValue utility first current).bind fun value valueRun _ => ?_
      split
      · next better =>
          have lawful : best.1 ∈ model.legal first := by
            rcases chosen with blank | lawful
            · rw [blank, bottom] at better
              cases better
            · exact lawful
          have legalNext : model.LegalPolicy (policy.insert first best.1) := by
            intro state listed
            rw [Table.get?_insert]
            split
            · next here => exact ⟨best.1, here ▸ lawful, rfl⟩
            · exact legal state listed
          exact (ih others legalNext (covers.insert member _) (replaced + 1)).mono fun _ _ later =>
            later.cons_replaced bestRun held valueRun better
      · next worse =>
          exact (ih others legal covers replaced).mono fun _ _ later =>
            later.cons_kept bestRun held valueRun worse

/-! ## Rounds -/

/-- The round before a place, if there is one. -/
def previousRound (rounds : List (Round K)) : Nat → Option (Round K)
  | 0 => none
  | place + 1 => rounds[place]?

/-- The policy that enters the round at a place: the starting policy or that of the round before. -/
def enteringPolicy (begun : Policy) (rounds : List (Round K)) (place : Nat) : Policy :=
  ((previousRound rounds place).map Round.policy).getD begun

/-- The utility from which the round at a place evaluates: none or that of the round before. -/
def enteringUtility (rounds : List (Round K)) (place : Nat) : Option (Utility K) :=
  (previousRound rounds place).map Round.utility

/-- A round that follows from the policy and the utility that enter it. -/
structure Round.Follows (round : Round K) (model : Model K) (sweeps : Int) (index : Nat)
    (before : Policy) (start : Option (Utility K)) : Prop where
  index_eq : round.index = index
  evaluated : (model.evaluatePolicy before sweeps start).result model = .ok round.utility
  legal : model.LegalPolicy round.policy
  isOver : round.policy.IsOver model.states
  decided : ∀ state ∈ model.states, ∃ current chosen, before.get? state = some current ∧
    round.policy.get? state = some chosen ∧ model.Decides round.utility state current chosen
  changed : round.changed = true ↔ ∃ state ∈ model.states, ∃ current,
    before.get? state = some current ∧ model.Beaten round.utility state current

/-- Rounds in order, each of which follows from the one before it. -/
def Model.Trace (model : Model K) (sweeps : Int) (begun : Policy) (rounds : List (Round K)) : Prop :=
  ∀ (place : Nat) (round : Round K), rounds[place]? = some round →
    round.Follows model sweeps (place + 1) (enteringPolicy begun rounds place)
      (enteringUtility rounds place)

variable {rounds : List (Round K)} {round : Round K} {sweeps : Int}

omit [Scalar K] in
private theorem previousRound_length (rounds : List (Round K)) :
    previousRound rounds rounds.length = rounds.getLast? := by
  cases rounds with
  | nil => rfl
  | cons first rest => rw [List.getLast?_eq_getElem?]; rfl

omit [Scalar K] in
theorem previousRound_append {place : Nat} (within : place ≤ rounds.length) (round : Round K) :
    previousRound (rounds ++ [round]) place = previousRound rounds place := by
  cases place with
  | zero => rfl
  | succ place => exact List.getElem?_append_left within

theorem Model.Trace.append (trace : model.Trace sweeps begun rounds)
    (follows : round.Follows model sweeps (rounds.length + 1)
      (enteringPolicy begun rounds rounds.length) (enteringUtility rounds rounds.length)) :
    model.Trace sweeps begun (rounds ++ [round]) := by
  intro place found listed
  have within : place ≤ rounds.length := by
    have inside := (List.getElem?_eq_some_iff.mp listed).1
    rw [List.length_append, List.length_singleton] at inside
    omega
  rw [enteringPolicy, enteringUtility, previousRound_append within]
  rcases within.lt_or_eq with before | here
  · rw [List.getElem?_append_left before] at listed
    exact trace place found listed
  · subst here
    rw [List.getElem?_concat_length] at listed
    cases listed
    exact follows

section Loop

variable (bottom : ∀ value : K, Scalar.below value Scalar.negInf = false)
  (discount : model.checkDiscount = .ok ()) (positive : 0 < sweeps)

include bottom discount positive

private theorem Model.yields_policyRound (index : Nat) (legal : model.LegalPolicy policy)
    (covers : policy.IsOver model.states) (start : Option (Utility K)) :
    (model.policyRound sweeps index policy start).Yields model fun round =>
      round.Follows model sweeps index policy start := by
  refine (Model.yields_evaluatePolicy legal discount positive start).bind
    fun utility evaluated _ => ?_
  refine (Model.yields_improvePolicy bottom (fun _ member => member) legal covers 0).bind
    fun improved _ improvement => ?_
  refine ⟨rfl, evaluated, improvement.legal, improvement.isOver, improvement.decided, ?_⟩
  rw [← improvement.counted]
  simp [Round.changed]

end Loop

/-! ## The loop -/

/-- How a run with some budget comes out that has reported some rounds. It returns the last of them,
the only one that replaces nothing; or its budget is used up; or the next round fails on a look-up. -/
inductive Model.Concludes (model : Model K) (sweeps : Int) (begun : Policy) (budget : Nat)
    (rounds : List (Round K)) : Except (Fault K) (Option (PolicyIteration K)) → Prop
  | returned {earlier : List (Round K)} {last : Round K} (rounds_eq : rounds = earlier ++ [last])
      (moved : ∀ round ∈ earlier, round.changed = true) (still : last.changed = false) :
      Concludes model sweeps begun budget rounds (.ok (some ⟨last.policy, rounds⟩))
  | exhausted (length : rounds.length = budget) (moved : ∀ round ∈ rounds, round.changed = true) :
      Concludes model sweeps begun budget rounds (.ok none)
  | failed {fault : Fault K} (within : rounds.length < budget)
      (moved : ∀ round ∈ rounds, round.changed = true)
      (stuck : (model.policyRound sweeps (rounds.length + 1)
        (enteringPolicy begun rounds rounds.length)
        (enteringUtility rounds rounds.length)).result model = .error fault)
      (lookup : fault.OfLookup) :
      Concludes model sweeps begun budget rounds (.error fault)

/-- Where the loop stands before a round. -/
structure Model.AtRound (model : Model K) (sweeps : Int) (begun policy : Policy)
    (start : Option (Utility K)) (before : List (Round K)) : Prop where
  trace : model.Trace sweeps begun before.reverse
  moved : ∀ round ∈ before, round.changed = true
  policy_eq : enteringPolicy begun before.reverse before.reverse.length = policy
  start_eq : enteringUtility before.reverse before.reverse.length = start
  legal : model.LegalPolicy policy
  isOver : policy.IsOver model.states

private theorem Model.atRound_start (legal : model.LegalPolicy begun)
    (covers : begun.IsOver model.states) :
    model.AtRound sweeps begun begun none [] :=
  ⟨fun place round listed => by simp at listed, by simp, rfl, rfl, legal, covers⟩

theorem Model.AtRound.next {start : Option (Utility K)} {before : List (Round K)}
    (stands : model.AtRound sweeps begun policy start before)
    (follows : round.Follows model sweeps (before.length + 1) policy start)
    (moved : round.changed = true) :
    model.AtRound sweeps begun round.policy (some round.utility) (round :: before) := by
  have last : previousRound (round :: before).reverse (round :: before).reverse.length =
      some round := by
    rw [previousRound_length, List.getLast?_reverse, List.head?_cons]
  refine ⟨?_, ?_, by rw [enteringPolicy, last]; rfl, by rw [enteringUtility, last]; rfl,
    follows.legal, follows.isOver⟩
  · rw [List.reverse_cons]
    refine stands.trace.append ?_
    rwa [stands.policy_eq, stands.start_eq, List.length_reverse]
  · exact List.forall_mem_cons.mpr ⟨moved, stands.moved⟩

section Run

variable (bottom : ∀ value : K, Scalar.below value Scalar.negInf = false)
  (discount : model.checkDiscount = .ok ()) (positive : 0 < sweeps)

include bottom discount positive

private theorem Model.AtRound.exists_concludes {start : Option (Utility K)}
    {before : List (Round K)}
    (stands : model.AtRound sweeps begun policy start before) (budget : Nat) :
    ∃ rounds, model.Trace sweeps begun rounds ∧
      model.Concludes sweeps begun (before.length + budget) rounds
        ((model.policyRounds sweeps budget policy start before).result model >>= fun made =>
          .ok (PolicyIteration.ofRounds made)) := by
  have moved : ∀ round ∈ before.reverse, round.changed = true := fun round listed =>
    stands.moved round (List.mem_reverse.mp listed)
  induction budget generalizing policy start before with
  | zero => exact ⟨before.reverse, stands.trace, .exhausted List.length_reverse moved⟩
  | succ budget ih =>
      have yields := Model.yields_policyRound bottom discount positive (before.length + 1)
        stands.legal stands.isOver start
      rw [Model.policyRounds, Inquiry.result_bind]
      unfold Inquiry.Yields at yields
      cases run : (model.policyRound sweeps (before.length + 1) policy start).result model with
      | error fault =>
          rw [run] at yields
          refine ⟨before.reverse, stands.trace, .failed ?_ moved ?_ yields⟩
          · rw [List.length_reverse]
            omega
          · rw [stands.policy_eq, stands.start_eq, List.length_reverse, run]
      | ok round =>
          rw [run] at yields
          rw [ok_bind]
          split
          · next changed =>
              have next := stands.next yields changed
              have place : before.length + (budget + 1) = (round :: before).length + budget := by
                rw [List.length_cons]
                omega
              rw [place]
              exact ih next fun other listed => next.moved other (List.mem_reverse.mp listed)
          · next still =>
              refine ⟨before.reverse ++ [round], stands.trace.append ?_, ?_⟩
              · rwa [stands.policy_eq, stands.start_eq, List.length_reverse]
              · rw [Inquiry.result_pure, ok_bind, PolicyIteration.ofRounds, List.reverse_cons]
                exact .returned rfl moved (Bool.not_eq_true _ ▸ still)

end Run

/-- Once the entry checks have passed, the rounds that a run reports form a trace, whatever its budget
and however it comes out, and each policy in it is legal and is over exactly the states. Nothing is
assumed about arithmetic but that no value is below minus infinity. -/
theorem Model.policyIteration_traced (model : Model K)
    (bottom : ∀ value : K, Scalar.below value Scalar.negInf = false)
    (discount : model.checkDiscount = .ok ()) (sweeps : Int) (positive : 1 ≤ sweeps)
    {Source : Type} [IndexSource Source] (start : StartingPolicy K Source) (begun : Policy)
    (started : model.startPolicy start = .ok begun) (budget : Nat) :
    model.LegalPolicy begun ∧ begun.IsOver model.states ∧
      (∀ given, start = .given given →
        ∀ state ∈ model.states, begun.get? state = given.get? state) ∧
      ∃ rounds, model.Trace sweeps begun rounds ∧
        model.Concludes sweeps begun budget rounds
          ((model.policyIteration sweeps start budget).result model) := by
  have legal := Model.startPolicy_legal started
  have covers := Model.startPolicy_isOver started
  refine ⟨legal, covers, ?_, ?_⟩
  · rintro given rfl state member
    obtain ⟨_, checked, -⟩ := bind_eq_ok_iff.mp started
    have lawful := Model.checkPolicy_eq_ok_iff.mp checked
    obtain ⟨action, -, held⟩ := lawful state member
    rw [Model.startPolicy_given lawful] at started
    cases started
    simp [member, held]
  · have concluded := (Model.atRound_start legal covers).exists_concludes bottom discount positive budget
    rwa [List.length_nil, Nat.zero_add,
      ← Model.result_policyIteration_of_start discount positive started] at concluded

/-- The outing with its first place listed twice and an undefined reward for arrivals at the second. -/
def haze : Model (Extended ℚ) :=
  { (outing 0).extended with
    states := [.int 0, .int 1, .int 0]
    reward := fun _ _ successor => if successor = .int 1 then .undefined else .finite 0 }

theorem Model.policyIteration_traced_haze :
    let policy : Policy := .ofKeys [.int 1, .int 0] fun _ => .text "stay"
    let start : StartingPolicy (Extended ℚ) Generator := .given policy
    ∃ begun,
      ((∀ value : Extended ℚ, Scalar.below value Scalar.negInf = false) ∧
        haze.checkDiscount = .ok () ∧ (1 : Int) ≤ 2 ∧ haze.startPolicy start = .ok begun) ∧
      haze.LegalPolicy begun ∧ begun.IsOver haze.states ∧
        (∀ given, start = .given given →
          ∀ state ∈ haze.states, begun.get? state = given.get? state) ∧
        ∃ rounds, haze.Trace 2 begun rounds ∧
          haze.Concludes 2 begun 3 rounds ((haze.policyIteration 2 start 3).result haze) := by
  intro policy start
  have legal : haze.LegalPolicy policy := by decide +kernel
  have inRange : (outing 0).extended.checkDiscount = .ok () :=
    Model.checkDiscount_extended_iff.mpr (by decide +kernel)
  have discount : haze.checkDiscount = .ok () := inRange
  have started : haze.startPolicy start = _ := Model.startPolicy_given legal
  exact ⟨_, ⟨Extended.below_negInf, discount, by norm_num, started⟩,
    Model.policyIteration_traced haze Extended.below_negInf discount 2 (by norm_num) start _ started 3⟩

end MarkovDecision
