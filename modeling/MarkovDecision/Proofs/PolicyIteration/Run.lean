import MarkovDecision.Proofs.Policy

/-!
# Runs of policy iteration with exact numbers

A round of policy iteration evaluates a choice by a number of backups and then replaces the actions
for which the greedy action is better by more than the margin. The standings of successive rounds
follow from the first choice alone, and a run ends with the first round that finds nothing to
replace.
-/

set_option autoImplicit false

namespace MarkovDecision

variable {F : Type} [Field F] [LinearOrder F]

/-! ## Standings -/

/-- By how much the value of a new action must exceed that of the old one. -/
def margin : F := 1 / (10 ^ 12 : Nat)

private theorem improvementMargin_eq : (improvementMargin : Extended F) = .finite margin := by
  simp only [improvementMargin, margin, Extended.decimal_eq, Nat.cast_one, Nat.cast_pow,
    Nat.cast_ofNat]

/-- The greedy action of a state is better than the chosen one by more than the margin. -/
def Model.Improvable (model : Model F) (choice : Ident → Ident) (value : Ident → F)
    (state : Ident) : Prop :=
  model.follow choice value state + margin < model.best value state

instance (model : Model F) (choice : Ident → Ident) (value : Ident → F) (state : Ident) :
    Decidable (model.Improvable choice value state) :=
  inferInstanceAs (Decidable (_ < _))

def Model.improved (model : Model F) (choice : Ident → Ident) (value : Ident → F) (state : Ident) :
    Ident :=
  if model.Improvable choice value state then model.greedy value state else choice state

/-- The choice that enters a round, and the values from which it is evaluated. -/
structure Standing (F : Type) where
  choice : Ident → Ident
  value : Ident → F

def Model.evaluated (model : Model F) (sweeps : Nat) (standing : Standing F) : Ident → F :=
  (model.follow standing.choice)^[sweeps] standing.value

def Model.advance (model : Model F) (sweeps : Nat) (standing : Standing F) : Standing F :=
  ⟨model.improved standing.choice (model.evaluated sweeps standing), model.evaluated sweeps standing⟩

/-- The standing after a number of rounds that began with a choice and values zero. -/
def Model.standing (model : Model F) (sweeps : Nat) (choice : Ident → Ident) (rounds : Nat) :
    Standing F :=
  (model.advance sweeps)^[rounds] ⟨choice, 0⟩

/-- The round after `rounds` rounds replaces nothing. -/
def Model.Quiet (model : Model F) (sweeps : Nat) (choice : Ident → Ident) (rounds : Nat) : Prop :=
  ∀ state ∈ model.states,
    ¬ model.Improvable (model.standing sweeps choice rounds).choice
      (model.evaluated sweeps (model.standing sweeps choice rounds)) state

instance (model : Model F) (sweeps : Nat) (choice : Ident → Ident) (rounds : Nat) :
    Decidable (model.Quiet sweeps choice rounds) :=
  inferInstanceAs (Decidable (∀ _ ∈ _, _))

structure Model.EndsAfter (model : Model F) (sweeps : Nat) (choice : Ident → Ident) (rounds : Nat) :
    Prop where
  quiet : model.Quiet sweeps choice rounds
  earliest : ∀ earlier < rounds, ¬ model.Quiet sweeps choice earlier

variable {model : Model F} {choice other : Ident → Ident} {value : Ident → F} {state : Ident}

theorem Model.standing_succ (model : Model F) (sweeps : Nat) (choice : Ident → Ident) (rounds : Nat) :
    model.standing sweeps choice (rounds + 1) =
      model.advance sweeps (model.standing sweeps choice rounds) :=
  Function.iterate_succ_apply' _ _ _

/-- What an improvement does in a state depends only on the action chosen there. -/
theorem Model.improved_congr (same : choice state = other state) :
    (model.Improvable choice value state ↔ model.Improvable other value state) ∧
      model.improved choice value state = model.improved other value state := by
  have better : model.Improvable choice value state ↔ model.Improvable other value state := by
    rw [Model.Improvable, Model.Improvable, Model.follow_congr same]
  refine ⟨better, ?_⟩
  simp only [Model.improved, better, same]

theorem Model.improved_legal (active : ∀ state ∈ model.states, model.legal state ≠ [])
    (legal : model.LegalChoice choice) : model.LegalChoice (model.improved choice value) := by
  intro state member
  unfold Model.improved
  split
  · exact Model.greedy_mem value (active state member)
  · exact legal state member

theorem Model.standing_legal (active : ∀ state ∈ model.states, model.legal state ≠ [])
    (legal : model.LegalChoice choice) (sweeps rounds : Nat) :
    model.LegalChoice (model.standing sweeps choice rounds).choice := by
  induction rounds with
  | zero => exact legal
  | succ rounds ih =>
      rw [Model.standing_succ]
      exact Model.improved_legal active ih

theorem Model.Quiet.exists_endsAfter {sweeps rounds : Nat}
    (quiet : model.Quiet sweeps choice rounds) :
    ∃ first ≤ rounds, model.EndsAfter sweeps choice first := by
  classical
  have settles : ∃ round, model.Quiet sweeps choice round := ⟨rounds, quiet⟩
  exact ⟨Nat.find settles, Nat.find_min' settles quiet, Nat.find_spec settles, fun _ => Nat.find_min settles⟩

/-! ## Traces -/

/-- A round with the given standing before it and the given sweeps. -/
structure Round.Made (round : Round (Extended F)) (model : Model F) (sweeps : Nat)
    (before : Standing F) : Prop where
  utility : round.utility = model.tabled (model.evaluated sweeps before)
  policy : round.policy.Takes model.states (model.advance sweeps before).choice
  changed : round.changed = true ↔
    ∃ state ∈ model.states, model.Improvable before.choice (model.evaluated sweeps before) state

/-- Rounds in order, each numbered by its place and made from the standing before it. -/
def Model.Traced (model : Model F) (sweeps : Nat) (choice : Ident → Ident)
    (rounds : List (Round (Extended F))) : Prop :=
  ∀ (place : Nat) (round : Round (Extended F)), rounds[place]? = some round →
    round.index = place + 1 ∧ round.Made model sweeps (model.standing sweeps choice place)

theorem Model.Traced.append {sweeps : Nat} {rounds : List (Round (Extended F))}
    {round : Round (Extended F)} (traced : model.Traced sweeps choice rounds)
    (index : round.index = rounds.length + 1)
    (made : round.Made model sweeps (model.standing sweeps choice rounds.length)) :
    model.Traced sweeps choice (rounds ++ [round]) := by
  intro place found listed
  rcases lt_trichotomy place rounds.length with before | here | after
  · rw [List.getElem?_append_left before] at listed
    exact traced place found listed
  · subst here
    rw [List.getElem?_concat_length] at listed
    cases listed
    exact ⟨index, made⟩
  · rw [List.getElem?_eq_none (by simp; omega)] at listed
    cases listed

/-- Where the loop stands before a round: the policy and the utility are those of the standing after
the rounds made, which form a trace. -/
structure Model.Reached (model : Model F) (sweeps : Nat) (choice : Ident → Ident) (policy : Policy)
    (start : Option (Utility (Extended F))) (before : List (Round (Extended F))) : Prop where
  takes : policy.Takes model.states (model.standing sweeps choice before.length).choice
  reads : Utility.Reads (start.getD model.extended.zeroUtility) model.states
    (model.standing sweeps choice before.length).value
  traced : model.Traced sweeps choice before.reverse

private theorem Model.reached_start {sweeps : Nat} {policy : Policy}
    (takes : policy.Takes model.states choice) :
    model.Reached sweeps choice policy none [] := by
  refine ⟨takes, ?_, fun place round listed => by simp at listed⟩
  exact model.zeroUtility_reads

/-! ## Entry -/

section Entry

variable {K : Type}

/-- The result of policy iteration from the rounds of its loop, latest first. -/
def PolicyIteration.ofRounds : Option (List (Round K)) → Option (PolicyIteration K)
  | some (last :: earlier) => some ⟨last.policy, (last :: earlier).reverse⟩
  | _ => none

theorem Model.result_policyIteration_of_start [Scalar K] {model : Model K} {Source : Type}
    [IndexSource Source] {start : StartingPolicy K Source} {sweeps : Int} {begun : Policy}
    (discount : model.checkDiscount = .ok ()) (positive : 0 < sweeps)
    (started : model.startPolicy start = .ok begun) (budget : Nat) :
    (model.policyIteration sweeps start budget).result model =
      ((model.policyRounds sweeps budget begun none []).result model >>= fun made =>
        .ok (PolicyIteration.ofRounds made)) := by
  simp only [Model.policyIteration, Inquiry.result_bind, Inquiry.result_liftM, discount,
    checkCount_eq_ok_iff.mpr positive, started, ok_bind]
  refine congrArg _ (funext fun made => ?_)
  rcases made with _ | _ | ⟨last, earlier⟩ <;> rfl

end Entry

theorem Model.entry_of_policyIteration {Source : Type} [IndexSource Source]
    {start : StartingPolicy (Extended F) Source} {sweeps : Int} {budget : Nat}
    {outcome : Option (PolicyIteration (Extended F))}
    (run : (model.extended.policyIteration sweeps start budget).result model.extended =
      .ok outcome) :
    (0 ≤ model.discount ∧ model.discount < 1) ∧ 0 < sweeps ∧
      ∃ policy, model.extended.startPolicy start = .ok policy := by
  simp only [Model.policyIteration, Inquiry.result_bind, Inquiry.result_liftM, bind_eq_ok_iff] at run
  obtain ⟨_, inRange, _, counted, policy, begun, -⟩ := run
  exact ⟨Model.checkDiscount_extended_iff.mp inRange, checkCount_eq_ok_iff.mp counted, policy, begun⟩

/-! ## Budgets -/

section Budget

variable {K : Type} [Scalar K] {model : Model K} {sweeps : Int} {budget more : Nat}

private theorem Model.result_policyRounds_mono {policy : Policy} {start : Option (Utility K)}
    {before rounds : List (Round K)} (raised : budget ≤ more)
    (run : (model.policyRounds sweeps budget policy start before).result model =
      .ok (some rounds)) :
    (model.policyRounds sweeps more policy start before).result model = .ok (some rounds) := by
  induction budget generalizing more policy start before with
  | zero => cases run
  | succ budget ih =>
      obtain ⟨more, rfl⟩ : ∃ fewer, more = fewer + 1 := ⟨more - 1, by omega⟩
      rw [Model.policyRounds, Inquiry.result_bind] at run ⊢
      obtain ⟨round, made, run⟩ := bind_eq_ok_iff.mp run
      rw [made, ok_bind]
      split at run
      · next moved =>
          rw [if_pos moved]
          exact ih (by omega) run
      · next still =>
          rw [if_neg still]
          exact run

theorem Model.result_policyIteration_mono {Source : Type} [IndexSource Source]
    {start : StartingPolicy K Source} {result : PolicyIteration K} (raised : budget ≤ more)
    (run : (model.policyIteration sweeps start budget).result model = .ok (some result)) :
    (model.policyIteration sweeps start more).result model = .ok (some result) := by
  simp only [Model.policyIteration, Inquiry.result_bind, Inquiry.result_liftM, bind_eq_ok_iff]
    at run ⊢
  obtain ⟨_, inRange, _, counted, policy, begun, rounds, loop, run⟩ := run
  cases rounds with
  | none => cases run
  | some rounds =>
      exact ⟨_, inRange, _, counted, policy, begun, some rounds,
        Model.result_policyRounds_mono raised loop, run⟩

end Budget

/-! ## Improvement -/

private theorem Model.result_improvePolicy_cons (accepted : model.Accepted)
    {utility : Utility (Extended F)} (reads : Utility.Reads utility model.states value)
    {first : Ident} (member : first ∈ model.states) (rest : List Ident) {policy : Policy}
    (takes : policy.Takes model.states choice) (legal : model.LegalChoice choice) (replaced : Nat) :
    (model.extended.improvePolicy utility (first :: rest) (policy, replaced)).result model.extended =
      (model.extended.improvePolicy utility rest
        (if model.Improvable choice value first then
          (policy.insert first (model.greedy value first), replaced + 1)
        else (policy, replaced))).result model.extended := by
  simp only [Model.improvePolicy, Inquiry.result_bind, Inquiry.result_liftM,
    Model.result_bestAction accepted reads member, Table.demand_eq_ok (takes first member),
    Model.result_expectedValue accepted reads member (legal first member), ok_bind,
    improvementMargin_eq, Extended.finite_add, Extended.below_finite, decide_eq_true_eq]
  change Inquiry.result _ (if model.Improvable choice value first then _ else _) = _
  split <;> rfl

variable [IsStrictOrderedRing F]

theorem margin_pos : (0 : F) < margin := by
  unfold margin
  positivity

theorem Model.not_improvable_of_le (active : model.legal state ≠ [])
    (best : ∀ action ∈ model.legal state,
      model.backup value state action ≤ model.follow choice value state) :
    ¬ model.Improvable choice value state := by
  have greedy : model.best value state ≤ model.follow choice value state :=
    best _ (Model.greedy_mem value active)
  exact not_lt.mpr (greedy.trans (le_add_of_nonneg_right margin_pos.le))

/-- Of two actions the better one replaces the other. -/
theorem Model.improved_eq_of_pair {current other : Ident}
    (pair : ∀ action ∈ model.legal state, action = current ∨ action = other)
    (legal : other ∈ model.legal state) (held : choice state = current)
    (better : model.backup value state current + margin < model.backup value state other) :
    model.Improvable choice value state ∧ model.improved choice value state = other := by
  have greatest := Model.backup_le_best value legal
  have improvable : model.Improvable choice value state := by
    rw [Model.Improvable, Model.follow, held]
    exact better.trans_le greatest
  refine ⟨improvable, ?_⟩
  have greedy : model.improved choice value state = model.greedy value state := if_pos improvable
  rw [greedy]
  rcases pair _ (Model.greedy_mem value (List.ne_nil_of_mem legal)) with kept | replaced
  · rw [Model.Improvable, Model.best, Model.follow, held, kept] at improvable
    exact absurd improvable (not_lt.mpr (le_add_of_nonneg_right margin_pos.le))
  · exact replaced

/-- Nothing is better than the greedy action, so a second improvement replaces nothing. -/
theorem Model.not_improvable_improved (model : Model F) (choice : Ident → Ident) (value : Ident → F)
    (state : Ident) : ¬ model.Improvable (model.improved choice value) value state := by
  by_cases better : model.Improvable choice value state
  · have best : model.follow (model.improved choice value) value state = model.best value state :=
      Model.follow_eq_best (if_pos better)
    rw [Model.Improvable, best, not_lt]
    exact le_add_of_nonneg_right margin_pos.le
  · have kept : model.improved choice value state = choice state := if_neg better
    exact fun again => better ((Model.improved_congr kept).1.mp again)

private theorem Model.improved_improved (model : Model F) (choice : Ident → Ident)
    (value : Ident → F) (state : Ident) : model.improved (model.improved choice value) value state =
      model.improved choice value state :=
  if_neg (model.not_improvable_improved choice value state)

/-- A pass over some states improves the choice in each of them once, however often it is visited, and
leaves the rest of the policy alone. It counts the improvable states once each. -/
theorem Model.result_improvePolicy (accepted : model.Accepted) {utility : Utility (Extended F)}
    (reads : Utility.Reads utility model.states value) {todo : List Ident}
    (subset : ∀ state ∈ todo, state ∈ model.states) {policy : Policy}
    (takes : policy.Takes model.states choice) (legal : model.LegalChoice choice) (replaced : Nat) :
    ∃ after : Policy,
      (model.extended.improvePolicy utility todo (policy, replaced)).result model.extended =
        .ok (after, replaced + (todo.toFinset.filter (model.Improvable choice value)).card) ∧
      (∀ state ∈ todo, after.get? state = some (model.improved choice value state)) ∧
      ∀ state, state ∉ todo → after.get? state = policy.get? state := by
  induction todo generalizing policy choice replaced with
  | nil => exact ⟨policy, rfl, by simp, fun _ _ => rfl⟩
  | cons first rest ih =>
      have member := subset first List.mem_cons_self
      have others : ∀ state ∈ rest, state ∈ model.states := fun state listed =>
        subset state (List.mem_cons_of_mem _ listed)
      rw [Model.result_improvePolicy_cons accepted reads member rest takes legal, List.toFinset_cons,
        Finset.filter_insert]
      by_cases better : model.Improvable choice value first
      · let next : Ident → Ident := fun state =>
          if state = first then model.improved choice value state else choice state
        have here : next first = model.improved choice value first := if_pos rfl
        have away : ∀ state, state ≠ first → next state = choice state := fun _ off => if_neg off
        have takesNext : Policy.Takes (policy.insert first (model.greedy value first)) model.states
            next := by
          intro state listed
          rw [Table.get?_insert, takes state listed]
          by_cases same : state = first
          · subst same
            rw [if_pos rfl, here, Model.improved, if_pos better]
          · rw [if_neg (Ne.symm same), away state same]
        have legalNext : model.LegalChoice next := by
          intro state listed
          by_cases same : state = first
          · subst same
            rw [here]
            exact Model.improved_legal accepted.active legal state listed
          · rw [away state same]
            exact legal state listed
        -- The first state is improvable no more, and the others are as before.
        have left : rest.toFinset.filter (model.Improvable next value) =
            (insert first (rest.toFinset.filter (model.Improvable choice value))).erase first := by
          ext state
          rw [Finset.erase_insert_eq_erase, Finset.mem_erase, Finset.mem_filter, Finset.mem_filter]
          by_cases same : state = first
          · subst same
            rw [(Model.improved_congr here).1]
            simp [Model.not_improvable_improved]
          · rw [(Model.improved_congr (away state same)).1]
            simp [same]
        obtain ⟨after, run, chosen, kept⟩ := ih others takesNext legalNext (replaced + 1)
        refine ⟨after, ?_, fun state listed => ?_, fun state absent => ?_⟩
        · rw [if_pos better, if_pos better, run, left, add_assoc, add_comm 1,
            Finset.card_erase_add_one (Finset.mem_insert_self _ _)]
        · by_cases same : state = first
          · subst same
            by_cases again : state ∈ rest
            · rw [chosen state again, (Model.improved_congr here).2, Model.improved_improved]
            · rw [kept state again, Table.get?_insert, if_pos rfl, Model.improved, if_pos better]
          · rw [chosen state ((List.mem_cons.mp listed).resolve_left same),
              (Model.improved_congr (away state same)).2]
        · rw [List.mem_cons, not_or] at absent
          rw [kept state absent.2, Table.get?_insert, if_neg (Ne.symm absent.1)]
      · obtain ⟨after, run, chosen, kept⟩ := ih others takes legal replaced
        refine ⟨after, by rw [if_neg better, if_neg better, run], fun state listed => ?_,
          fun state absent => kept state fun later => absent (List.mem_cons_of_mem _ later)⟩
        by_cases again : state ∈ rest
        · exact chosen state again
        · have same := (List.mem_cons.mp listed).resolve_right again
          subst same
          rw [kept state again, takes state member, Model.improved, if_neg better]

/-! ## Rounds -/

theorem Model.result_policyRound (accepted : model.Accepted)
    (discount : 0 ≤ model.discount ∧ model.discount < 1) {sweeps : Int} (positive : 0 < sweeps)
    {before : Standing F} (legal : model.LegalChoice before.choice) {policy : Policy}
    (takes : policy.Takes model.states before.choice) {start : Option (Utility (Extended F))}
    (reads : Utility.Reads (start.getD model.extended.zeroUtility) model.states before.value)
    (index : Nat) :
    ∃ round, (model.extended.policyRound sweeps index policy start).result model.extended =
        .ok round ∧ round.index = index ∧ round.Made model sweeps.toNat before ∧
      round.replaced = (model.states.toFinset.filter
        (model.Improvable before.choice (model.evaluated sweeps.toNat before))).card ∧
      ∀ state, state ∉ model.states → round.policy.get? state = policy.get? state := by
  have run : (model.extended.evaluatePolicy policy sweeps start).result model.extended =
      .ok (model.tabled (model.evaluated sweeps.toNat before)) :=
    Model.result_evaluatePolicy accepted takes legal discount positive start reads
  obtain ⟨after, improve, chosen, kept⟩ := Model.result_improvePolicy accepted
    (model.tabled_reads (model.evaluated sweeps.toNat before)) (fun _ member => member) takes legal 0
  refine ⟨⟨index, after, model.tabled (model.evaluated sweeps.toNat before), _⟩, ?_, rfl,
    ⟨rfl, chosen, ?_⟩, Nat.zero_add _, kept⟩
  · simp only [Model.policyRound, Inquiry.result_bind, run, ok_bind, Model.states_extended, improve,
      Inquiry.result_report, Inquiry.result_pure]
  · simp [Round.changed, Finset.card_pos, Finset.filter_nonempty_iff]

/-! ## The loop -/

section Loop

variable (accepted : model.Accepted) (discount : 0 ≤ model.discount ∧ model.discount < 1)
  {sweeps : Int} (positive : 0 < sweeps) (legal : model.LegalChoice choice) {policy : Policy}
  {start : Option (Utility (Extended F))} {before : List (Round (Extended F))}
  (reached : model.Reached sweeps.toNat choice policy start before)

include accepted discount positive legal reached

/-- A round of the loop takes it to the next standing. It is the last exactly if it is quiet. -/
theorem Model.result_policyRounds_succ (budget : Nat) :
    ∃ round : Round (Extended F),
      model.Reached sweeps.toNat choice round.policy (some round.utility) (round :: before) ∧
      (round.changed = false ↔ model.Quiet sweeps.toNat choice before.length) ∧
      (model.extended.policyRounds sweeps (budget + 1) policy start before).result model.extended =
        if round.changed then
          (model.extended.policyRounds sweeps budget round.policy (some round.utility)
            (round :: before)).result model.extended
        else .ok (some (round :: before)) := by
  obtain ⟨round, run, index, made, -⟩ := Model.result_policyRound accepted discount positive
    (Model.standing_legal accepted.active legal _ before.length) reached.takes reached.reads
    (before.length + 1)
  have next := model.standing_succ sweeps.toNat choice before.length
  refine ⟨round, ⟨?_, ?_, ?_⟩, ?_, ?_⟩
  · rw [List.length_cons, next]
    exact made.policy
  · rw [List.length_cons, next, Option.getD_some, made.utility]
    exact model.tabled_reads _
  · rw [List.reverse_cons]
    exact reached.traced.append (by rw [List.length_reverse, index])
      (by rw [List.length_reverse]; exact made)
  · rw [← Bool.not_eq_true, made.changed]
    simp [Model.Quiet]
  · simp only [Model.policyRounds, Inquiry.result_bind, run, ok_bind]
    split <;> rfl

private theorem Model.result_policyRounds {budget more : Nat} (enough : more < budget)
    (ends : model.EndsAfter sweeps.toNat choice (before.length + more)) :
    ∃ last earlier,
      (model.extended.policyRounds sweeps budget policy start before).result model.extended =
        .ok (some (last :: earlier)) ∧
      earlier.length = before.length + more ∧ last.changed = false ∧
      model.Reached sweeps.toNat choice last.policy (some last.utility) (last :: earlier) := by
  induction budget generalizing more policy start before with
  | zero => omega
  | succ budget ih =>
      obtain ⟨round, next, quiet, run⟩ := Model.result_policyRounds_succ accepted discount positive
        legal reached budget
      cases more with
      | zero =>
          have still := quiet.mpr ends.quiet
          rw [still] at run
          exact ⟨round, before, run, rfl, still, next⟩
      | succ more =>
          have early : ¬ model.Quiet sweeps.toNat choice before.length :=
            ends.earliest before.length (by omega)
          have moved : round.changed = true := Bool.of_not_eq_false fun still => early (quiet.mp still)
          rw [moved, if_pos rfl] at run
          have place : before.length + (more + 1) = (round :: before).length + more := by
            rw [List.length_cons]
            omega
          rw [place] at ends ⊢
          rw [run]
          exact ih next (by omega) ends

private theorem Model.result_policyRounds_none {budget : Nat}
    (restless : ∀ more < budget, ¬ model.Quiet sweeps.toNat choice (before.length + more)) :
    (model.extended.policyRounds sweeps budget policy start before).result model.extended =
      .ok none := by
  induction budget generalizing policy start before with
  | zero => rfl
  | succ budget ih =>
      obtain ⟨round, next, quiet, run⟩ := Model.result_policyRounds_succ accepted discount positive
        legal reached budget
      have moved : round.changed = true :=
        Bool.of_not_eq_false fun still => restless 0 (by omega) (quiet.mp still)
      rw [run, moved, if_pos rfl]
      apply ih next
      intro more small
      have later := restless (more + 1) (by omega)
      rwa [show before.length + (more + 1) = (round :: before).length + more by
        rw [List.length_cons]; omega] at later

end Loop

/-! ## Whole runs -/

/-- What a run returns that began with a choice and ended after the quiet round that came after
`rounds` rounds. -/
structure PolicyIteration.Ended (result : PolicyIteration (Extended F)) (model : Model F)
    (sweeps : Nat) (choice : Ident → Ident) (rounds : Nat) : Prop where
  ends : model.EndsAfter sweeps choice rounds
  length_eq : result.rounds.length = rounds + 1
  traced : model.Traced sweeps choice result.rounds
  takes : result.policy.Takes model.states (model.standing sweeps choice rounds).choice
  last : ∃ last, result.rounds.getLast? = some last ∧ last.policy = result.policy ∧
    last.changed = false ∧
    last.utility = model.tabled (model.evaluated sweeps (model.standing sweeps choice rounds))

section Whole

variable {Source : Type} [IndexSource Source] {start : StartingPolicy (Extended F) Source}
  {sweeps : Int} {budget : Nat} {policy : Policy}

theorem Model.result_policyIteration (accepted : model.Accepted)
    (discount : 0 ≤ model.discount ∧ model.discount < 1) (positive : 0 < sweeps)
    (begun : model.extended.startPolicy start = .ok policy)
    (takes : policy.Takes model.states choice) {rounds : Nat} (enough : rounds < budget)
    (ends : model.EndsAfter sweeps.toNat choice rounds) :
    ∃ result : PolicyIteration (Extended F),
      (model.extended.policyIteration sweeps start budget).result model.extended =
        .ok (some result) ∧ result.Ended model sweeps.toNat choice rounds := by
  have lawful : model.extended.LegalPolicy policy := Model.startPolicy_legal begun
  obtain ⟨last, earlier, loop, length, still, reached⟩ :=
    Model.result_policyRounds accepted discount positive (takes.legalChoice lawful)
      (Model.reached_start takes) enough (by simpa using ends)
  rw [List.length_nil, Nat.zero_add] at length
  have returned := Model.result_policyIteration_of_start
    (Model.checkDiscount_extended_iff.mpr discount) positive begun budget
  rw [loop, ok_bind, PolicyIteration.ofRounds] at returned
  refine ⟨_, returned, ends, ?_, reached.traced, ?_, last, by simp, rfl, still, ?_⟩
  · simp [length]
  · intro state member
    have chosen := reached.takes state member
    rw [List.length_cons, length, Model.standing_succ] at chosen
    exact chosen.trans (congrArg some (if_neg (ends.quiet state member)))
  · have made := (reached.traced rounds last (by simp [length])).2
    exact made.utility

/-- A run that returns has ended with the first quiet round after its start. -/
theorem Model.ended_of_policyIteration (accepted : model.Accepted)
    {result : PolicyIteration (Extended F)}
    (run : (model.extended.policyIteration sweeps start budget).result model.extended =
      .ok (some result)) :
    ∃ choice rounds, model.LegalChoice choice ∧
      result.Ended model sweeps.toNat choice rounds := by
  obtain ⟨discount, positive, policy, begun⟩ := Model.entry_of_policyIteration run
  have lawful : model.extended.LegalPolicy policy := Model.startPolicy_legal begun
  have takes : policy.Takes model.states policy.choice := lawful.takes
  have legal : model.LegalChoice policy.choice := takes.legalChoice lawful
  refine ⟨policy.choice, ?_⟩
  by_cases quiet : ∃ rounds < budget, model.Quiet sweeps.toNat policy.choice rounds
  · obtain ⟨rounds, small, quiet⟩ := quiet
    obtain ⟨first, least, ends⟩ := quiet.exists_endsAfter
    obtain ⟨returned, same, ended⟩ := Model.result_policyIteration accepted discount positive begun
      takes (least.trans_lt small) ends
    rw [run] at same
    cases same
    exact ⟨first, legal, ended⟩
  · have restless : ∀ more < budget, ¬ model.Quiet sweeps.toNat policy.choice
        (([] : List (Round (Extended F))).length + more) := fun more small held =>
      quiet ⟨more, small, by rwa [List.length_nil, Nat.zero_add] at held⟩
    have loop := Model.result_policyRounds_none accepted discount positive legal
      (Model.reached_start takes) restless
    rw [Model.result_policyIteration_of_start (Model.checkDiscount_extended_iff.mpr discount) positive
      begun, loop] at run
    cases run

end Whole

end MarkovDecision
