import MarkovDecision.Proofs.Policy
import MarkovDecision.Solve.PolicyIteration
import MarkovDecision.Solve.ValueIteration

/-!
# Solvers that cannot fail

Sweeps look up actions, rows and utilities. A model is ready if every state has actions, and if each
row of a legal action passes its check and gives weight to states of the model alone. On a ready
model no look-up of a sweep can fail as long as the utility covers the states, and each sweep returns
a utility that covers them again. So value iteration, policy evaluation and policy iteration fail
only at their entry checks. Nothing is assumed about arithmetic: undefined and infinite utilities
are included. Only the legality of improved policies uses that nothing lies below minus infinity.
-/

set_option autoImplicit false

namespace MarkovDecision

variable {K : Type} [Scalar K]

/-! ## What look-ups need -/

/-- What a sum over a row and a draw from it need: both pass over some entries by tests of their own,
and all others are on known states. There is something to draw. -/
structure Row.Usable (row : Row K) (states : List Ident) : Prop where
  weighed : ∀ entry ∈ row.entries,
    Scalar.equal entry.2 Scalar.zero = false → entry.1 ∈ states
  drawn : ∀ entry ∈ row.entries,
    Scalar.atMost entry.2 Scalar.zero = false → entry.1 ∈ states
  exists_drawn : ∃ entry ∈ row.entries, Scalar.atMost entry.2 Scalar.zero = false

structure Model.Ready (model : Model K) : Prop where
  active : ∀ state ∈ model.states, model.legal state ≠ []
  usable : ∀ state ∈ model.states, ∀ action ∈ model.legal state,
    ∃ row, model.row state action = .ok row ∧ Row.Usable row model.states

def Utility.Covers (utility : Utility K) (states : List Ident) : Prop :=
  ∀ state ∈ states, state ∈ utility.keys

variable {model : Model K} {utility : Utility K} {state action : Ident} {policy : Policy}

omit [Scalar K] in
theorem Table.exists_demand {Value : Type} {table : Table Ident Value} {key : Ident}
    (present : key ∈ table.keys) : ∃ value, table.demand (K := K) key = .ok value := by
  obtain ⟨value, found⟩ := Option.isSome_iff_exists.mp ((table.get?_isSome_iff key).mpr present)
  exact ⟨value, Table.demand_eq_ok found⟩

theorem Model.zeroUtility_covers (model : Model K) :
    Utility.Covers model.zeroUtility model.states := by
  intro state member
  simpa [Model.zeroUtility] using member

/-! ## Values of actions -/

theorem Model.accumulate_ok (covers : Utility.Covers utility model.states) (state action : Ident)
    {entries : List (Ident × K)} (total : K)
    (known : ∀ entry ∈ entries, Scalar.equal entry.2 Scalar.zero = false →
      entry.1 ∈ model.states) :
    ∃ sum, model.accumulate utility state action entries total = .ok sum := by
  induction entries generalizing total with
  | nil => exact ⟨total, rfl⟩
  | cons entry rest ih =>
      have others : ∀ entry ∈ rest, Scalar.equal entry.2 Scalar.zero = false →
          entry.1 ∈ model.states := fun other member => known other (List.mem_cons_of_mem _ member)
      rw [Model.accumulate]
      split
      · exact ih total others
      · next weighed =>
          have listed := known entry List.mem_cons_self (Bool.not_eq_true _ ▸ weighed)
          obtain ⟨later, found⟩ := @Table.exists_demand K _ utility _ (covers _ listed)
          rw [found, ok_bind]
          exact ih _ others

section Sweeps

variable (ready : model.Ready) (covers : Utility.Covers utility model.states)

include ready covers

private theorem Model.Ready.gives_expectedValue (member : state ∈ model.states)
    (legal : action ∈ model.legal state) :
    (model.expectedValue utility state action).Gives model fun _ => True := by
  obtain ⟨row, passed, usable⟩ := ready.usable state member action legal
  obtain ⟨sum, run⟩ := Model.accumulate_ok covers state action Scalar.zero usable.weighed
  have asked : (Inquiry.rowOf state action).Gives model (· = row) :=
    ⟨row, (Inquiry.result_rowOf model state action).trans passed, rfl⟩
  refine asked.bind fun found same => ?_
  subst same
  exact .of_ok run trivial

private theorem Model.Ready.gives_actionValue (member : state ∈ model.states)
    (legal : action ∈ model.legal state) :
    (model.actionValue utility state action).Gives model fun _ => True := by
  have listed := Model.actions_eq_ok (ready.active state member)
  refine Inquiry.Gives.of_ok_bind listed ?_
  rw [if_pos legal]
  exact ready.gives_expectedValue covers member legal

private theorem Model.Ready.gives_improveOver (member : state ∈ model.states) {actions : List Ident}
    (legal : ∀ action ∈ actions, action ∈ model.legal state) (incumbent : Ident × K) :
    (model.improveOver utility state actions incumbent).Gives model fun best =>
      best = incumbent ∨ best.1 ∈ model.legal state := by
  induction actions generalizing incumbent with
  | nil => exact .pure (Or.inl rfl)
  | cons action rest ih =>
      have here := legal action List.mem_cons_self
      refine (ready.gives_expectedValue covers member here).bind fun value _ => ?_
      refine (ih (fun other listed => legal other (List.mem_cons_of_mem _ listed)) _).mono ?_
      intro best chosen
      rcases chosen with rfl | later
      · split
        · exact Or.inr here
        · exact Or.inl rfl
      · exact Or.inr later

/-- The best action is legal or the blank incumbent, which keeps its place only at minus infinity. -/
theorem Model.Ready.gives_bestAction (member : state ∈ model.states) :
    (model.bestAction utility state).Gives model fun best =>
      best = (.blank, Scalar.negInf) ∨ best.1 ∈ model.legal state := by
  have listed := Model.actions_eq_ok (ready.active state member)
  refine Inquiry.Gives.of_ok_bind listed ?_
  exact ready.gives_improveOver covers member (fun _ legal => legal) _

private theorem Model.Ready.gives_sweep :
    (model.sweep utility).Gives model fun next =>
      ∀ state, state ∈ next.keys ↔ state ∈ model.states := by
  have values : ∀ state ∈ model.states,
      (model.stateValue utility state).Gives model fun _ => True := fun state member =>
    (ready.gives_bestAction covers member).bind fun _ _ => .pure trivial
  exact (gives_tabulate values).mono fun _ made => made.1

private theorem Model.Ready.gives_greedyPolicy :
    (model.greedyPolicy utility).Gives model fun _ => True := by
  refine (@gives_tabulate _ _ model _ _ _ model.states _ (fun _ _ => True)
    fun state member => ?_).mono fun _ _ => trivial
  exact (ready.gives_bestAction covers member).bind fun _ _ => .pure trivial

private theorem Model.Ready.gives_policySweep (legal : model.LegalPolicy policy) :
    (model.policySweep policy utility).Gives model fun next => Utility.Covers next model.states := by
  have values : ∀ state ∈ model.states, (do
      let chosen ← (policy.demand state : Except (Fault K) Ident)
      model.actionValue utility state chosen : Inquiry K K).Gives model fun _ => True := by
    intro state member
    obtain ⟨action, allowed, found⟩ := legal state member
    refine Inquiry.Gives.of_ok_bind (Table.demand_eq_ok found) ?_
    exact ready.gives_actionValue covers member allowed
  exact (gives_tabulate values).mono fun _ made state member => (made.1 state).mpr member

end Sweeps

/-! ## Value iteration -/

private theorem Utility.distance_ok {left right : Utility K}
    (covers : ∀ state ∈ left.keys, state ∈ right.keys) :
    ∃ gap, Utility.distance left right = .ok gap := by
  have gaps : ∀ entry ∈ left.entries, ∃ gap, (do
      let other ← right.demand (K := K) entry.1
      return Scalar.abs (entry.2 - other)) = .ok gap := by
    intro entry listed
    obtain ⟨other, found⟩ := @Table.exists_demand K _ right _
      (covers _ (List.mem_map.mpr ⟨entry, listed, rfl⟩))
    exact ⟨_, by rw [found, ok_bind, pure_eq_ok]⟩
  obtain ⟨values, run⟩ := exists_mapM_eq_ok gaps
  exact ⟨_, by rw [Utility.distance, run, ok_bind, pure_eq_ok]⟩

/-- Sweeps and greedy policies that cannot fail on a utility that covers the states. -/
structure Model.Sweepable (model : Model K) : Prop where
  sweep : ∀ utility, Utility.Covers utility model.states → (model.sweep utility).Gives model
    fun next => ∀ state, state ∈ next.keys ↔ state ∈ model.states
  greedyPolicy : ∀ utility, Utility.Covers utility model.states →
    (model.greedyPolicy utility).Gives model fun _ => True

theorem Model.Ready.sweepable (ready : model.Ready) : model.Sweepable :=
  ⟨fun _ covers => ready.gives_sweep covers, fun _ covers => ready.gives_greedyPolicy covers⟩

section ValueIteration

variable (sweepable : model.Sweepable) (recordHistory : Bool)

include sweepable

private theorem Model.Sweepable.gives_sweepOnce {progress : Progress K}
    (covers : Utility.Covers progress.utility model.states) :
    (model.sweepOnce recordHistory progress).Gives model fun swept =>
      Utility.Covers swept.2.utility model.states := by
  refine (sweepable.sweep _ covers).bind fun utility keys => ?_
  have known : ∀ state ∈ utility.keys, state ∈ progress.utility.keys :=
    fun state listed => covers state ((keys state).mp listed)
  obtain ⟨delta, measured⟩ := Utility.distance_ok known
  refine Inquiry.Gives.of_ok_bind measured ?_
  refine (Inquiry.Gives.report _).bind fun _ _ => .pure ?_
  exact fun state member => (keys state).mpr member

private theorem Model.Sweepable.gives_sweepUntil (threshold : K) (budget : Nat)
    {progress : Progress K} (covers : Utility.Covers progress.utility model.states) :
    (model.sweepUntil recordHistory threshold budget progress).Gives model fun stopped =>
      ∀ found ∈ stopped, Utility.Covers found.2.utility model.states := by
  induction budget generalizing progress with
  | zero => exact .pure fun _ absent => nomatch absent
  | succ budget ih =>
      refine (sweepable.gives_sweepOnce recordHistory covers).bind fun swept covered => ?_
      dsimp only
      split
      · refine .pure fun found same => ?_
        cases same
        exact covered
      · exact ih covered

theorem Model.Sweepable.gives_valueIteration (discount : model.checkDiscount = .ok ()) {epsilon : K}
    (positive : Scalar.atMost epsilon Scalar.zero = false) (budget : Nat) :
    (model.valueIteration epsilon recordHistory budget).Gives model fun _ => True := by
  refine Inquiry.Gives.of_ok_bind discount ?_
  rw [positive, if_neg Bool.false_ne_true]
  refine (sweepable.gives_sweepUntil recordHistory _ budget model.zeroUtility_covers).bind
    fun stopped covered => ?_
  cases stopped with
  | none => exact .pure trivial
  | some last =>
      refine (Inquiry.Gives.report _).bind fun _ _ => ?_
      exact (sweepable.greedyPolicy _ (covered last rfl)).bind fun _ _ => .pure trivial

end ValueIteration

/-! ## Policy evaluation -/

section Evaluation

variable (ready : model.Ready) (legal : model.LegalPolicy policy)

include ready legal

private theorem Model.Ready.gives_policySweeps (count : Nat)
    (covers : Utility.Covers utility model.states) :
    (model.policySweeps policy count utility).Gives model fun last =>
      Utility.Covers last model.states := by
  induction count generalizing utility with
  | zero => exact .pure covers
  | succ count ih => exact (ready.gives_policySweep covers legal).bind fun next covered => ih covered

theorem Model.Ready.gives_evaluatePolicy (discount : model.checkDiscount = .ok ()) {sweeps : Int}
    (positive : 0 < sweeps) {start : Option (Utility K)}
    (covers : ∀ given ∈ start, Utility.Covers given model.states) :
    (model.evaluatePolicy policy sweeps start).Gives model fun last =>
      Utility.Covers last model.states := by
  refine Inquiry.Gives.of_ok_bind discount ?_
  refine Inquiry.Gives.of_ok_bind (checkCount_eq_ok_iff.mpr positive) ?_
  refine Inquiry.Gives.of_ok_bind (Model.checkPolicy_eq_ok_iff.mpr legal) ?_
  refine ready.gives_policySweeps legal sweeps.toNat ?_
  cases start with
  | none => exact model.zeroUtility_covers
  | some given => exact covers given rfl

end Evaluation

/-! ## Policy iteration -/

section Starting

variable {Source : Type} [IndexSource Source]

/-- Every position drawn from the source is below its bound, now and later. -/
def IndexSource.InRange (source : Source) : Prop :=
  ∃ sound : Source → Prop, sound source ∧ ∀ source, sound source → ∀ bound, 0 < bound →
    (IndexSource.index bound source).1 < bound ∧ sound (IndexSource.index bound source).2

/-- Starting policies that are not refused. -/
inductive StartingPolicy.Admissible (model : Model K) : StartingPolicy K Source → Prop
  | given {policy : Policy} (legal : model.LegalPolicy policy) : Admissible model (.given policy)
  | drawn {source : Source} (inRange : IndexSource.InRange source) :
      Admissible model (.drawn (.ok source))

omit [Scalar K] in
private theorem Model.exists_drawActions {states : List Ident} {source : Source}
    (active : ∀ state ∈ states, model.legal state ≠ []) (inRange : IndexSource.InRange source)
    (start : Policy) : ∃ drawn, model.drawActions states source start = .ok drawn := by
  obtain ⟨sound, here, keeps⟩ := inRange
  induction states generalizing source start with
  | nil => exact ⟨start, rfl⟩
  | cons state rest ih =>
      have options := active state List.mem_cons_self
      obtain ⟨below, later⟩ := keeps source here _ (List.length_pos_of_ne_nil options)
      obtain ⟨drawn, run⟩ := ih (fun other member => active other (List.mem_cons_of_mem _ member))
        (start.insert state (model.legal state)[(IndexSource.index _ source).1]) later
      refine ⟨drawn, ?_⟩
      rw [Model.drawActions, Model.actions_eq_ok options, ok_bind]
      simp only [List.getElem?_eq_getElem below]
      exact run

theorem Model.Ready.exists_startPolicy (ready : model.Ready) {start : StartingPolicy K Source}
    (admissible : start.Admissible model) : ∃ begun, model.startPolicy start = .ok begun := by
  cases admissible with
  | given legal => exact ⟨_, Model.startPolicy_given legal⟩
  | drawn inRange => exact Model.exists_drawActions ready.active inRange .empty

end Starting

section PolicyIteration

variable (ready : model.Ready) (bottom : ∀ value : K, Scalar.below value Scalar.negInf = false)

include ready bottom

private theorem Model.Ready.gives_improvePolicy (covers : Utility.Covers utility model.states)
    {states : List Ident} (listed : ∀ state ∈ states, state ∈ model.states)
    (legal : model.LegalPolicy policy) (replaced : Nat) :
    (model.improvePolicy utility states (policy, replaced)).Gives model fun improved =>
      model.LegalPolicy improved.1 := by
  induction states generalizing policy replaced with
  | nil => exact .pure legal
  | cons state rest ih =>
      have member := listed state List.mem_cons_self
      have later := fun {policy : Policy} => @ih policy
        fun other known => listed other (List.mem_cons_of_mem _ known)
      obtain ⟨current, allowed, found⟩ := legal state member
      refine (ready.gives_bestAction covers member).bind fun best chosen => ?_
      refine Inquiry.Gives.of_ok_bind (Table.demand_eq_ok found) ?_
      refine (ready.gives_expectedValue covers member allowed).bind fun value _ => ?_
      split
      · next better =>
          refine later ?_ _
          rcases chosen with blank | lawful
          -- The blank incumbent still stands at minus infinity and is better than nothing.
          · rw [blank, bottom] at better
            cases better
          · intro other known
            by_cases same : state = other
            · subst same
              exact ⟨best.1, lawful, by rw [Table.get?_insert, if_pos rfl]⟩
            · obtain ⟨kept, fine, held⟩ := legal other known
              exact ⟨kept, fine, by rw [Table.get?_insert, if_neg same, held]⟩
      · exact later legal _

variable (discount : model.checkDiscount = .ok ()) {sweeps : Int} (positive : 0 < sweeps)

include discount positive

private theorem Model.Ready.gives_policyRound (index : Nat) (legal : model.LegalPolicy policy)
    {start : Option (Utility K)} (covers : ∀ given ∈ start, Utility.Covers given model.states) :
    (model.policyRound sweeps index policy start).Gives model fun round =>
      model.LegalPolicy round.policy ∧ Utility.Covers round.utility model.states := by
  refine (ready.gives_evaluatePolicy legal discount positive covers).bind fun utility covered => ?_
  refine (ready.gives_improvePolicy bottom covered (fun _ member => member) legal 0).bind
    fun improved kept => ?_
  exact (Inquiry.Gives.report _).bind fun _ _ => .pure ⟨kept, covered⟩

private theorem Model.Ready.gives_policyRounds (budget : Nat) (legal : model.LegalPolicy policy)
    {start : Option (Utility K)} (covers : ∀ given ∈ start, Utility.Covers given model.states)
    (before : List (Round K)) :
    (model.policyRounds sweeps budget policy start before).Gives model fun _ => True := by
  induction budget generalizing policy start before with
  | zero => exact .pure trivial
  | succ budget ih =>
      refine (ready.gives_policyRound bottom discount positive _ legal covers).bind
        fun round made => ?_
      split
      · refine ih made.1 (fun given same => ?_) _
        cases same
        exact made.2
      · exact .pure trivial

theorem Model.Ready.gives_policyIteration {Source : Type} [IndexSource Source]
    {start : StartingPolicy K Source} (admissible : start.Admissible model) (budget : Nat) :
    (model.policyIteration sweeps start budget).Gives model fun _ => True := by
  obtain ⟨begun, started⟩ := ready.exists_startPolicy admissible
  refine Inquiry.Gives.of_ok_bind discount ?_
  refine Inquiry.Gives.of_ok_bind (checkCount_eq_ok_iff.mpr positive) ?_
  refine Inquiry.Gives.of_ok_bind started ?_
  have fresh : ∀ given ∈ (none : Option (Utility K)), Utility.Covers given model.states :=
    fun _ absent => nomatch absent
  refine (ready.gives_policyRounds bottom discount positive budget
    (Model.startPolicy_legal started) fresh []).bind fun rounds _ => ?_
  split
  · exact (Inquiry.Gives.report _).bind fun _ _ => .pure trivial
  · exact .pure trivial

end PolicyIteration

end MarkovDecision
