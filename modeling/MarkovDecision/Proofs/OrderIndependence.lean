import Mathlib.Data.List.Forall2
import MarkovDecision.Proofs.Locality
import MarkovDecision.Proofs.PolicyIteration.Trace
import MarkovDecision.Proofs.Reordering
import MarkovDecision.Proofs.ValueIteration.Run

/-!
# Independence of the order of declaration

On reordered models the solvers succeed together, with the same results as mappings. A run that
succeeds has looked at every row, so the exact accounts of runs apply on both sides: the sweeps of
value iteration are those of one optimal backup, and the rounds of policy iteration go abreast, from
one standing to the next. On shuffled models ties may fall differently, which the utilities of value
iteration do not show.
-/

set_option autoImplicit false

namespace MarkovDecision

/-! ## Runs that have looked at every row -/

section Rows

variable {K : Type} [Scalar K] {model : Model K} {utility : Utility K} {state : Ident}

private theorem Model.exists_row_of_bestAction {best : Ident × K}
    (run : (model.bestAction utility state).result model = .ok best) :
    model.legal state ≠ [] ∧ ∀ action ∈ model.legal state, ∃ row, model.row state action = .ok row := by
  obtain ⟨active, values⟩ := Model.exists_expectedValue_of_bestAction run
  refine ⟨active, fun action legal => ?_⟩
  obtain ⟨value, valued⟩ := values action legal
  exact Model.exists_row_of_expectedValue valued

private theorem Model.exists_bestAction_of_improvePolicy {todo : List Ident}
    {before after : Policy × Nat}
    (run : (model.improvePolicy utility todo before).result model = .ok after) :
    ∀ state ∈ todo, ∃ best, (model.bestAction utility state).result model = .ok best := by
  induction todo generalizing before with
  | nil => simp
  | cons first rest ih =>
      rw [Model.improvePolicy] at run
      obtain ⟨best, found, run⟩ := Inquiry.result_bind_eq_ok_iff.mp run
      obtain ⟨current, -, run⟩ := Inquiry.result_bind_eq_ok_iff.mp run
      obtain ⟨value, -, run⟩ := Inquiry.result_bind_eq_ok_iff.mp run
      refine List.forall_mem_cons.mpr ⟨⟨best, found⟩, ?_⟩
      split at run <;> exact ih run

end Rows

variable {F : Type} [Field F] [LinearOrder F] {left right : Model F}

private theorem Model.accepted_of_bestActions {model : Model F} {utility : Utility (Extended F)}
    (each : ∀ state ∈ model.states, ∃ best,
      (model.extended.bestAction utility state).result model.extended = .ok best) :
    model.Accepted := by
  refine Model.accepted_iff.mpr fun state member => ?_
  obtain ⟨best, run⟩ := each state member
  exact Model.exists_row_of_bestAction run

private theorem Model.accepted_of_sweep {model : Model F} {utility next : Utility (Extended F)}
    (run : (model.extended.sweep utility).result model.extended = .ok next) : model.Accepted := by
  have each : ∀ state ∈ model.states, ∃ best,
      (model.extended.bestAction utility state).result model.extended = .ok best := by
    intro state member
    obtain ⟨-, value, computed⟩ := exists_result_of_tabulate run state member
    rw [Model.stateValue] at computed
    obtain ⟨best, found, -⟩ := Inquiry.result_bind_eq_ok_iff.mp computed
    exact ⟨best, found⟩
  exact Model.accepted_of_bestActions each

private theorem Model.accepted_of_policyRounds {model : Model F} {sweeps : Int} {budget : Nat}
    {policy : Policy} {start : Option (Utility (Extended F))} {before : List (Round (Extended F))}
    {outcome : Option (List (Round (Extended F)))}
    (run : (model.extended.policyRounds sweeps (budget + 1) policy start before).result
      model.extended = .ok outcome) : model.Accepted := by
  rw [Model.policyRounds] at run
  obtain ⟨round, made, -⟩ := Inquiry.result_bind_eq_ok_iff.mp run
  rw [Model.policyRound] at made
  obtain ⟨utility, -, made⟩ := Inquiry.result_bind_eq_ok_iff.mp made
  obtain ⟨improved, improve, -⟩ := Inquiry.result_bind_eq_ok_iff.mp made
  exact Model.accepted_of_bestActions (Model.exists_bestAction_of_improvePolicy improve)

/-! ## Succeeding together -/

/-- Each of two computations succeeds if the other does, and then with related results. -/
def SucceedTogether {Error Other Value Result : Type} (related : Value → Result → Prop)
    (first : Except Error Value) (second : Except Other Result) : Prop :=
  (∀ value, first = .ok value → ∃ result, second = .ok result ∧ related value result) ∧
    ∀ result, second = .ok result → ∃ value, first = .ok value ∧ related value result

theorem SucceedTogether.of_forth {Error Other Value Result : Type} {related : Value → Result → Prop}
    {first : Except Error Value} {second : Except Other Result}
    (forth : ∀ value, first = .ok value → ∃ result, second = .ok result ∧ related value result)
    (back : ∀ result, second = .ok result → ∃ value, first = .ok value) :
    SucceedTogether related first second := by
  refine ⟨forth, fun result run => ?_⟩
  obtain ⟨value, origin⟩ := back result run
  obtain ⟨same, again, kept⟩ := forth value origin
  rw [run] at again
  cases again
  exact ⟨value, origin, kept⟩

theorem SucceedTogether.exists_some {Error Other Value Result : Type}
    {related : Value → Result → Prop} {first : Except Error (Option Value)}
    {second : Except Other (Option Result)} {value : Value}
    (together : SucceedTogether (Option.Rel related) first second) (run : first = .ok (some value)) :
    ∃ result, second = .ok (some result) ∧ related value result := by
  obtain ⟨outcome, rerun, kept⟩ := together.1 _ run
  cases kept with
  | some kept => exact ⟨_, rerun, kept⟩

/-! ## Value iteration -/

/-- The same but for the policy. -/
structure Solution.Matches {K : Type} (first second : Solution K) : Prop where
  utility : first.utility.SameMap second.utility
  iterations : first.iterations = second.iterations
  deltas : first.deltas = second.deltas
  history : List.Forall₂ Table.SameMap first.history second.history

/-- The policy takes in every state a legal action than which no legal action has a greater value. -/
def Model.Attains (model : Model F) (utility : Utility (Extended F)) (policy : Policy) : Prop :=
  ∀ state ∈ model.states, ∃ chosen ∈ model.legal state, policy.get? state = some chosen ∧
    ∃ top : F, (model.extended.actionValue utility state chosen).result model.extended =
        .ok (.finite top) ∧
      ∀ action ∈ model.legal state, ∃ value : F,
        (model.extended.actionValue utility state action).result model.extended =
          .ok (.finite value) ∧ value ≤ top

section Backups

variable (shuffled : left.Shuffled right)

include shuffled

omit [Field F] [LinearOrder F] in
theorem Model.Shuffled.tabled (value : Ident → F) : (left.tabled value).SameMap (right.tabled value) :=
  .ofKeys shuffled.states _

theorem Model.Shuffled.iterate_eq : left.iterate = right.iterate := by
  unfold Model.iterate
  rw [shuffled.best_eq]

theorem Model.Shuffled.change_eq : left.change = right.change := by
  funext count
  unfold Model.change
  rw [shuffled.iterate_eq]
  exact le_antisymm (gap_mono fun state => (shuffled.states state).mp)
    (gap_mono fun state => (shuffled.states state).mpr)

theorem Model.Shuffled.settles_iff {epsilon : F} (count : Nat) :
    left.Settles epsilon count ↔ right.Settles epsilon count := by
  rw [Model.Settles, Model.Settles, shuffled.discount, shuffled.change_eq]

private theorem Model.Shuffled.solutionAfter_matches (recordHistory : Bool) (count : Nat) :
    (left.solutionAfter recordHistory count).Matches (right.solutionAfter recordHistory count) := by
  have same : left.iterate = right.iterate := shuffled.iterate_eq
  refine ⟨?_, rfl, ?_, ?_⟩
  · rw [Model.solutionAfter, Model.solutionAfter, same]
    exact shuffled.tabled _
  · rw [Model.solutionAfter, Model.solutionAfter, Model.progressAfter_deltas,
      Model.progressAfter_deltas, shuffled.change_eq]
  · cases recordHistory with
    | true =>
        rw [Model.solutionAfter, Model.solutionAfter, Model.progressAfter_history,
          Model.progressAfter_history, same, List.forall₂_map_left_iff, List.forall₂_map_right_iff]
        exact List.forall₂_same.mpr fun sweep _ => shuffled.tabled _
    | false => cases count <;> exact .nil

end Backups

private theorem Model.Shuffled.attains (shuffled : left.Shuffled right)
    {utility other : Utility (Extended F)}
    {policy : Policy} (same : utility.SameMap other) (attains : left.Attains utility policy) :
    right.Attains other policy := by
  intro state member
  obtain ⟨chosen, legal, held, top, run, greatest⟩ :=
    attains state ((shuffled.states state).mpr member)
  refine ⟨chosen, (shuffled.legal_iff state chosen).mp legal, held, top,
    shuffled.result_actionValue same run, fun action allowed => ?_⟩
  obtain ⟨value, valued, below⟩ := greatest action ((shuffled.legal_iff state action).mpr allowed)
  exact ⟨value, shuffled.result_actionValue same valued, below⟩

private theorem Model.solutionAfter_attains {model : Model F} (accepted : model.Accepted)
    (recordHistory : Bool) (count : Nat) :
    model.Attains (model.solutionAfter recordHistory count).utility
      (model.solutionAfter recordHistory count).policy := by
  have reads := model.tabled_reads (model.iterate count)
  intro state member
  have legal := Model.greedy_mem (model.iterate count) (accepted.active state member)
  exact ⟨_, legal, by simp [Model.solutionAfter, member], _,
    Model.result_actionValue accepted reads member legal, fun action allowed =>
      ⟨_, Model.result_actionValue accepted reads member allowed, Model.backup_le_best _ allowed⟩⟩

variable [IsStrictOrderedRing F]

private theorem Model.Shuffled.exists_valueIteration (shuffled : left.Shuffled right) {epsilon : F}
    {recordHistory : Bool} {budget : Nat} {outcome : Option (Solution (Extended F))}
    (run : (left.extended.valueIteration (.finite epsilon) recordHistory budget).result
      left.extended = .ok outcome) :
    ∃ other, (right.extended.valueIteration (.finite epsilon) recordHistory budget).result
        right.extended = .ok other ∧
      ((outcome = none ∧ other = none) ∨ left.Accepted ∧ ∃ count,
        outcome = some (left.solutionAfter recordHistory (count + 1)) ∧
        other = some (right.solutionAfter recordHistory (count + 1))) := by
  obtain ⟨discount, positive⟩ := Model.entry_of_valueIteration run
  have rediscount := discount
  rw [shuffled.discount] at rediscount
  cases budget with
  | zero =>
      rw [Model.result_valueIteration_of_loop discount positive rfl] at run
      cases run
      refine ⟨none, ?_, .inl ⟨rfl, rfl⟩⟩
      rw [Model.result_valueIteration_of_loop rediscount positive rfl]
  | succ budget =>
      obtain ⟨_, swept⟩ := Model.exists_sweep_of_valueIteration run
      have accepted := Model.accepted_of_sweep swept
      obtain ⟨other, rerun, neither | ⟨count, returned, rereturned⟩⟩ :=
        Model.exists_valueIteration_of_settles accepted (shuffled.accepted accepted)
          shuffled.discount shuffled.settles_iff run
      · exact ⟨other, rerun, .inl neither⟩
      · exact ⟨other, rerun, .inr ⟨accepted, count, returned, rereturned⟩⟩

/-- A relation of the solutions after the same number of sweeps makes runs succeed together. -/
theorem Model.Shuffled.valueIteration_together (shuffled : left.Shuffled right) {epsilon : F}
    {recordHistory : Bool} {budget : Nat}
    {related : Solution (Extended F) → Solution (Extended F) → Prop}
    (each : left.Accepted → ∀ count, related (left.solutionAfter recordHistory count)
      (right.solutionAfter recordHistory count)) :
    SucceedTogether (Option.Rel related)
      ((left.extended.valueIteration (.finite epsilon) recordHistory budget).result left.extended)
      ((right.extended.valueIteration (.finite epsilon) recordHistory budget).result
        right.extended) := by
  refine .of_forth (fun outcome run => ?_) fun outcome run => ?_
  · obtain ⟨other, rerun, ⟨rfl, rfl⟩ | ⟨accepted, count, rfl, rfl⟩⟩ :=
      shuffled.exists_valueIteration run
    · exact ⟨_, rerun, .none⟩
    · exact ⟨_, rerun, .some (each accepted _)⟩
  · obtain ⟨other, rerun, -⟩ := shuffled.symm.exists_valueIteration run
    exact ⟨other, rerun⟩

/-! ## Policy iteration -/

structure Round.Matches {K : Type} (first second : Round K) : Prop where
  index : first.index = second.index
  policy : first.policy.SameMap second.policy
  utility : first.utility.SameMap second.utility
  replaced : first.replaced = second.replaced

structure PolicyIteration.Matches {K : Type} (first second : PolicyIteration K) : Prop where
  policy : first.policy.SameMap second.policy
  rounds : List.Forall₂ Round.Matches first.rounds second.rounds

/-- Two loops stand abreast before a round if both have the same standing. Their policies agree on
other keys too. -/
structure Model.Abreast (left right : Model F) (standing : Standing F) (policy other : Policy)
    (start later : Option (Utility (Extended F))) : Prop where
  legal : left.LegalChoice standing.choice
  takes : policy.Takes left.states standing.choice
  same : policy.SameMap other
  reads : Utility.Reads (start.getD left.extended.zeroUtility) left.states standing.value
  rereads : Utility.Reads (later.getD right.extended.zeroUtility) right.states standing.value

section Rounds

variable (reordered : left.Reordered right) (accepted : left.Accepted)
  (discount : 0 ≤ left.discount ∧ left.discount < 1) {sweeps : Int} (positive : 0 < sweeps)
  {standing : Standing F} {policy other : Policy} {start later : Option (Utility (Extended F))}
  (abreast : left.Abreast right standing policy other start later)

include reordered accepted discount positive abreast

private theorem Model.Abreast.exists_round (index : Nat) :
    ∃ first second,
      (left.extended.policyRound sweeps index policy start).result left.extended = .ok first ∧
      (right.extended.policyRound sweeps index other later).result right.extended = .ok second ∧
      first.Matches second ∧
      left.Abreast right (left.advance sweeps.toNat standing) first.policy second.policy
        (some first.utility) (some second.utility) := by
  have shuffled := reordered.toShuffled
  have rediscount := discount
  rw [shuffled.discount] at rediscount
  have retakes : other.Takes right.states standing.choice := fun state member => by
    rw [← abreast.same state, abreast.takes state ((shuffled.states state).mpr member)]
  have evaluated : left.evaluated = right.evaluated := by
    unfold Model.evaluated
    rw [shuffled.follow_eq]
  have improvable : left.Improvable = right.Improvable := by
    unfold Model.Improvable
    rw [shuffled.follow_eq, shuffled.best_eq]
  have improved : left.advance = right.advance := by
    unfold Model.advance Model.improved
    rw [evaluated, reordered.greedy_eq]
    simp only [improvable]
  obtain ⟨first, run, place, made, count, kept⟩ := Model.result_policyRound accepted discount
    positive abreast.legal abreast.takes abreast.reads index
  obtain ⟨second, rerun, replace, remade, recount, rekept⟩ := Model.result_policyRound
    (shuffled.accepted accepted) rediscount positive (shuffled.legalChoice abreast.legal) retakes
    abreast.rereads index
  have next : first.policy.SameMap second.policy := by
    intro state
    by_cases member : state ∈ left.states
    · rw [made.policy state member, remade.policy state ((shuffled.states state).mp member), improved]
    · rw [kept state member, rekept state fun listed => member ((shuffled.states state).mpr listed),
        abreast.same state]
  refine ⟨first, second, run, rerun, ⟨place.trans replace.symm, next, ?_, ?_⟩,
    ⟨Model.improved_legal accepted.active abreast.legal, made.policy, next, ?_, ?_⟩⟩
  · rw [made.utility, remade.utility, evaluated]
    exact shuffled.tabled _
  · have listed : left.states.toFinset = right.states.toFinset := by
      ext state
      rw [List.mem_toFinset, List.mem_toFinset, shuffled.states state]
    rw [count, recount, listed, evaluated]
    simp only [improvable]
  · rw [Option.getD_some, made.utility]
    exact left.tabled_reads _
  · rw [Option.getD_some, remade.utility, improved]
    exact right.tabled_reads _

private theorem Model.Abreast.exists_rounds {before rebefore : List (Round (Extended F))}
    (rounds : List.Forall₂ Round.Matches before rebefore) {budget : Nat}
    {outcome : Option (List (Round (Extended F)))}
    (run : (left.extended.policyRounds sweeps budget policy start before).result left.extended =
      .ok outcome) :
    ∃ reoutcome,
      (right.extended.policyRounds sweeps budget other later rebefore).result right.extended =
        .ok reoutcome ∧ Option.Rel (List.Forall₂ Round.Matches) outcome reoutcome := by
  induction budget generalizing standing policy other start later before rebefore with
  | zero =>
      cases run
      exact ⟨none, rfl, .none⟩
  | succ budget ih =>
      obtain ⟨first, second, made, remade, same, next⟩ :=
        abreast.exists_round reordered accepted discount positive (before.length + 1)
      have moved : first.changed = second.changed := by
        rw [Round.changed, Round.changed, same.replaced]
      rw [rounds.length_eq] at made remade
      rw [Model.policyRounds, Inquiry.result_bind, rounds.length_eq, made, ok_bind, moved] at run
      rw [Model.policyRounds, Inquiry.result_bind, remade, ok_bind]
      split at run
      · next changed =>
          rw [if_pos changed]
          exact ih next (.cons same rounds) run
      · next still =>
          rw [if_neg still]
          cases run
          exact ⟨_, rfl, .some (.cons same rounds)⟩

end Rounds

private theorem PolicyIteration.ofRounds_matches {K : Type} {made remade : Option (List (Round K))}
    (same : Option.Rel (List.Forall₂ Round.Matches) made remade) :
    Option.Rel PolicyIteration.Matches (PolicyIteration.ofRounds made)
      (PolicyIteration.ofRounds remade) := by
  cases same with
  | none => exact .none
  | some rounds =>
      cases rounds with
      | nil => exact .none
      | cons last earlier => exact .some ⟨last.policy, List.rel_reverse (.cons last earlier)⟩

private theorem Model.Reordered.exists_policyIteration (reordered : left.Reordered right)
    {Source : Type} [IndexSource Source] {policy : Policy} {sweeps : Int} {budget : Nat}
    {outcome : Option (PolicyIteration (Extended F))}
    (run : (left.extended.policyIteration sweeps
      (.given policy : StartingPolicy (Extended F) Source) budget).result left.extended =
        .ok outcome) :
    ∃ other, (right.extended.policyIteration sweeps
        (.given policy : StartingPolicy (Extended F) Source) budget).result right.extended =
          .ok other ∧ Option.Rel PolicyIteration.Matches outcome other := by
  have shuffled := reordered.toShuffled
  obtain ⟨discount, positive, begun, started⟩ := Model.entry_of_policyIteration run
  have rediscount := discount
  rw [shuffled.discount] at rediscount
  obtain ⟨_, checked, -⟩ := bind_eq_ok_iff.mp started
  have passed : left.extended.LegalPolicy policy := Model.checkPolicy_eq_ok_iff.mp checked
  have lawful : left.LegalPolicy policy := passed
  have starts : left.extended.startPolicy (.given policy : StartingPolicy (Extended F) Source) =
      .ok (.ofKeys left.states policy.choice) := Model.startPolicy_given lawful
  have restarts : right.extended.startPolicy (.given policy : StartingPolicy (Extended F) Source) =
      .ok (.ofKeys right.states policy.choice) :=
    Model.startPolicy_given (shuffled.legalPolicy lawful)
  rw [Model.result_policyIteration_of_start (Model.checkDiscount_extended_iff.mpr discount) positive
    starts] at run
  rw [Model.result_policyIteration_of_start (Model.checkDiscount_extended_iff.mpr rediscount) positive
    restarts]
  obtain ⟨made, rounds, run⟩ := bind_eq_ok_iff.mp run
  cases run
  have looped : ∃ remade,
      (right.extended.policyRounds sweeps budget (.ofKeys right.states policy.choice) none []).result
        right.extended = .ok remade ∧ Option.Rel (List.Forall₂ Round.Matches) made remade := by
    cases budget with
    | zero =>
        cases rounds
        exact ⟨none, rfl, .none⟩
    | succ budget =>
        have abreast : left.Abreast right ⟨policy.choice, 0⟩ (.ofKeys left.states policy.choice)
            (.ofKeys right.states policy.choice) none none := by
          refine ⟨lawful.legalChoice, fun state member => ?_, .ofKeys shuffled.states _,
            left.zeroUtility_reads, right.zeroUtility_reads⟩
          rw [Table.get?_ofKeys, if_pos member]
        exact abreast.exists_rounds reordered (Model.accepted_of_policyRounds rounds) discount
          positive .nil rounds
  obtain ⟨remade, rerounds, same⟩ := looped
  rw [rerounds, ok_bind]
  exact ⟨_, rfl, PolicyIteration.ofRounds_matches same⟩

/-! ## All solvers -/

/-- On reordered models value iteration, policy evaluation and policy iteration from a given policy
succeed together, with the same results as mappings; a loop that has used up its budget on one model
has done so on the other. On shuffled models value iteration agrees but for the policy, and the policy
of either model attains the greatest action values of both. -/
theorem Model.solvers_orderIndependent (model other : Model F) :
    (model.Reordered other →
      (∀ (epsilon : F) (recordHistory : Bool) (budget : Nat),
        SucceedTogether
          (Option.Rel fun first second =>
            first.Matches second ∧ first.policy.SameMap second.policy)
          ((model.extended.valueIteration (.finite epsilon) recordHistory budget).result
            model.extended)
          ((other.extended.valueIteration (.finite epsilon) recordHistory budget).result
            other.extended)) ∧
      (∀ (policy : Policy) (sweeps : Int) (start : Option (Utility (Extended F))),
        SucceedTogether Table.SameMap
          ((model.extended.evaluatePolicy policy sweeps start).result model.extended)
          ((other.extended.evaluatePolicy policy sweeps start).result other.extended)) ∧
      ∀ {Source : Type} [IndexSource Source] (policy : Policy) (sweeps : Int) (budget : Nat),
        SucceedTogether (Option.Rel PolicyIteration.Matches)
          ((model.extended.policyIteration sweeps
            (.given policy : StartingPolicy (Extended F) Source) budget).result model.extended)
          ((other.extended.policyIteration sweeps
            (.given policy : StartingPolicy (Extended F) Source) budget).result other.extended)) ∧
    (model.Shuffled other →
      ∀ (epsilon : F) (recordHistory : Bool) (budget : Nat),
        SucceedTogether
          (Option.Rel fun first second =>
            first.Matches second ∧
            (model.Attains first.utility first.policy ∧ model.Attains first.utility second.policy) ∧
            other.Attains second.utility first.policy ∧ other.Attains second.utility second.policy)
          ((model.extended.valueIteration (.finite epsilon) recordHistory budget).result
            model.extended)
          ((other.extended.valueIteration (.finite epsilon) recordHistory budget).result
            other.extended)) := by
  refine ⟨fun reordered => ⟨fun epsilon recordHistory budget => ?_, fun policy sweeps start => ?_,
    fun policy sweeps budget => ?_⟩, fun shuffled epsilon recordHistory budget => ?_⟩
  · have shuffled := reordered.toShuffled
    refine shuffled.valueIteration_together fun _ count =>
      ⟨shuffled.solutionAfter_matches recordHistory count, ?_⟩
    rw [Model.solutionAfter, Model.solutionAfter, shuffled.iterate_eq, reordered.greedy_eq]
    exact .ofKeys shuffled.states _
  · exact .of_forth (fun _ run => reordered.toShuffled.exists_evaluatePolicy run) fun _ run =>
      (reordered.toShuffled.symm.exists_evaluatePolicy run).imp fun _ => And.left
  · exact .of_forth (fun _ run => reordered.exists_policyIteration run) fun _ run =>
      (reordered.symm.exists_policyIteration run).imp fun _ => And.left
  · refine shuffled.valueIteration_together fun accepted count => ?_
    have same := shuffled.solutionAfter_matches recordHistory count
    have here := Model.solutionAfter_attains accepted recordHistory count
    have there := Model.solutionAfter_attains (shuffled.accepted accepted) recordHistory count
    exact ⟨same, ⟨here, shuffled.symm.attains (fun key => (same.utility key).symm) there⟩,
      shuffled.attains same.utility here, there⟩

/-- The outing with the second place listed first and again at the end, with its actions in some order,
and with the successors of setting off the other way round. -/
def outingAround (actions : List Ident) : Model ℚ :=
  { outing 0 with
    states := [.int 1, .int 0, .int 1]
    actionTable := .ofPairs [(.int 1, [.text "stay"]), (.int 0, actions)]
    rowTable := .ofPairs [((.int 0, .text "stay"), .ofPairs [(.int 0, 1)]),
      ((.int 0, .text "set off"), .ofPairs [(.int 1, 1 / 2), (.int 0, 1 / 2)]),
      ((.int 1, .text "stay"), .ofPairs [(.int 1, 1)])] }

private theorem outingAround_shuffled {actions : List Ident}
    (perm : [.text "stay", .text "set off"].Perm actions) : (outing 0).Shuffled (outingAround actions) := by
  refine ⟨fun state => ?_, fun state => ?_, fun key => ?_, rfl, rfl⟩
  · simp only [outing, outingAround, List.mem_cons, List.not_mem_nil, or_false]
    tauto
  · simp only [Model.legal, outing, outingAround, Table.get?_ofPairs, List.reverse_cons,
      List.reverse_nil, List.nil_append, List.cons_append, Table.lookupIn]
    by_cases first : Ident.int 0 = state
    · subst first
      simpa using perm
    · simp [first]
  · simp only [outing, outingAround, Table.get?_ofPairs, List.reverse_cons,
      List.reverse_nil, List.nil_append, List.cons_append, Table.lookupIn]
    split
    · exact .some (.refl _)
    · split
      · exact .some (by decide +kernel)
      · split
        · exact .some (.refl _)
        · exact .none

theorem Model.solvers_orderIndependent_outing :
    let model := outing 0
    let reordered := outingAround [.text "stay", .text "set off"]
    let shuffled := outingAround [.text "set off", .text "stay"]
    let policy : Policy := .ofKeys [.int 0, .int 1] fun _ => .text "stay"
    let start : StartingPolicy (Extended ℚ) Generator := .given policy
    (model.Reordered reordered ∧ model.Shuffled shuffled) ∧
    (∃ first second : Solution (Extended ℚ),
      (model.extended.valueIteration (.finite (1 / 4)) true 3).result model.extended =
        .ok (some first) ∧
      (reordered.extended.valueIteration (.finite (1 / 4)) true 3).result reordered.extended =
        .ok (some second) ∧ first.Matches second ∧ first.policy.SameMap second.policy) ∧
    (∃ first second : Utility (Extended ℚ),
      (model.extended.evaluatePolicy policy 2 none).result model.extended = .ok first ∧
      (reordered.extended.evaluatePolicy policy 2 none).result reordered.extended = .ok second ∧
      first.SameMap second) ∧
    (∃ first second : PolicyIteration (Extended ℚ),
      (model.extended.policyIteration 2 start 2).result model.extended = .ok (some first) ∧
      (reordered.extended.policyIteration 2 start 2).result reordered.extended = .ok (some second) ∧
      first.Matches second) ∧
    ∃ first second : Solution (Extended ℚ),
      (model.extended.valueIteration (.finite (1 / 4)) true 3).result model.extended =
        .ok (some first) ∧
      (shuffled.extended.valueIteration (.finite (1 / 4)) true 3).result shuffled.extended =
        .ok (some second) ∧ first.Matches second ∧
      (model.Attains first.utility first.policy ∧ model.Attains first.utility second.policy) ∧
      shuffled.Attains second.utility first.policy ∧ shuffled.Attains second.utility second.policy := by
  intro model reordered shuffled policy start
  have again : model.Reordered reordered := by
    refine ⟨outingAround_shuffled (.refl _), fun state => ?_⟩
    simp only [model, reordered, Model.legal, outing, outingAround, Table.get?_ofPairs,
      List.reverse_cons, List.reverse_nil, List.nil_append, List.cons_append, Table.lookupIn]
    by_cases first : Ident.int 0 = state
    · subst first
      rfl
    · simp [first]
  have around : model.Shuffled shuffled := outingAround_shuffled (.swap _ _ _)
  have accepted : model.Accepted := by decide +kernel
  have discount : 0 ≤ model.discount ∧ model.discount < 1 := by decide +kernel
  have positive : (0 : ℚ) < 1 / 4 := by norm_num
  have solved := Model.result_valueIteration accepted true discount positive (Nat.lt_succ_self 2)
    (by decide +kernel)
  have legal : model.LegalPolicy policy := by decide +kernel
  have evaluated : (model.extended.evaluatePolicy policy 2 none).result model.extended = _ :=
    Model.result_evaluatePolicy accepted legal.takes legal.legalChoice discount two_pos none
      model.zeroUtility_reads
  have extended : model.extended.LegalPolicy policy := legal
  obtain ⟨begun, started, takes⟩ := Model.exists_startPolicy Generator extended
  have ends : model.EndsAfter 2 policy.choice 1 := ⟨by decide +kernel, by decide +kernel⟩
  obtain ⟨result, iterated, -⟩ :=
    Model.result_policyIteration accepted discount two_pos started takes (Nat.lt_succ_self 1) ends
  obtain ⟨alike, -⟩ := Model.solvers_orderIndependent model reordered
  obtain ⟨values, evaluations, iterations⟩ := alike again
  obtain ⟨-, greatest⟩ := Model.solvers_orderIndependent model shuffled
  obtain ⟨second, run, same⟩ := (values (1 / 4) true 3).exists_some solved
  obtain ⟨utility, rerun, kept⟩ := (evaluations policy 2 none).1 _ evaluated
  obtain ⟨other, iteratedAgain, matching⟩ := (iterations policy 2 2).exists_some iterated
  obtain ⟨third, runShuffled, attained⟩ := (greatest around (1 / 4) true 3).exists_some solved
  exact ⟨⟨again, around⟩, ⟨_, second, solved, run, same⟩, ⟨_, utility, evaluated, rerun, kept⟩,
    ⟨_, other, iterated, iteratedAgain, matching⟩, _, third, solved, runShuffled, attained⟩

end MarkovDecision
