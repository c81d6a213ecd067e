import Mathlib.Data.List.Forall2
import MarkovDecision.Solve.Bellman

/-!
# What inquiries come to

Events aside, answering an inquiry turns it into an `Except` computation, and this turning respects
the structure of computations: a question becomes a checked look-up. The main statement says that
remembering which rows have passed changes neither the outcome nor the events.
-/

set_option autoImplicit false

namespace MarkovDecision

section Computations

variable {Error Item Value Result : Type}

@[simp] theorem ok_bind (value : Value) (next : Value → Except Error Result) :
    (Except.ok value >>= next) = next value := rfl

@[simp] theorem error_bind (error : Error) (next : Value → Except Error Result) :
    (Except.error error >>= next) = .error error := rfl

@[simp] theorem pure_eq_ok (value : Value) : (pure value : Except Error Value) = .ok value := rfl

theorem bind_eq_ok_iff {first : Except Error Value} {next : Value → Except Error Result}
    {result : Result} :
    first >>= next = .ok result ↔ ∃ value, first = .ok value ∧ next value = .ok result := by
  constructor
  · intro run
    cases first with
    | error error => cases run
    | ok value => exact ⟨value, rfl, run⟩
  · rintro ⟨value, rfl, run⟩
    exact run

/-- A list is computed item by item. -/
theorem mapM_eq_ok_iff {compute : Item → Except Error Value} {items : List Item}
    {values : List Value} : items.mapM compute = .ok values ↔
      List.Forall₂ (fun item value => compute item = .ok value) items values := by
  induction items generalizing values with
  | nil => simp [eq_comm]
  | cons item rest ih =>
      rw [List.mapM_cons, bind_eq_ok_iff, List.forall₂_cons_left_iff]
      refine exists_congr fun value => ?_
      rw [bind_eq_ok_iff]
      constructor
      · rintro ⟨here, others, later, made⟩
        cases made
        exact ⟨others, here, ih.mp later, rfl⟩
      · rintro ⟨others, here, later, rfl⟩
        exact ⟨here, others, ih.mpr later, rfl⟩

theorem mapM_eq_ok {compute : Item → Except Error Value} {value : Item → Value}
    {items : List Item} (each : ∀ item ∈ items, compute item = .ok (value item)) :
    items.mapM compute = .ok (items.map value) := by
  induction items with
  | nil => rfl
  | cons item rest ih =>
      have others := ih fun other member => each other (List.mem_cons_of_mem _ member)
      rw [List.mapM_cons, each item List.mem_cons_self, others]
      rfl

theorem exists_mapM_eq_ok {compute : Item → Except Error Value} {items : List Item}
    (each : ∀ item ∈ items, ∃ value, compute item = .ok value) :
    ∃ values, items.mapM compute = .ok values := by
  induction items with
  | nil => exact ⟨[], rfl⟩
  | cons item rest ih =>
      obtain ⟨value, here⟩ := each item List.mem_cons_self
      obtain ⟨values, later⟩ := ih fun other member => each other (List.mem_cons_of_mem _ member)
      exact ⟨value :: values, by rw [List.mapM_cons, here, later]; rfl⟩

theorem exists_mem_of_forall₂ {relates : Item → Value → Prop} {items : List Item}
    {values : List Value} (related : List.Forall₂ relates items values) :
    ∀ item ∈ items, ∃ value ∈ values, relates item value := by
  induction related with
  | nil => exact fun _ absent => nomatch absent
  | cons here _ ih =>
      refine List.forall_mem_cons.mpr ⟨⟨_, List.mem_cons_self, here⟩, fun item member => ?_⟩
      obtain ⟨value, listed, found⟩ := ih item member
      exact ⟨value, List.mem_cons_of_mem _ listed, found⟩

theorem exists_ok_of_mapM {compute : Item → Except Error Value} {items : List Item}
    {values : List Value} (run : items.mapM compute = .ok values) :
    ∀ item ∈ items, ∃ value ∈ values, compute item = .ok value :=
  exists_mem_of_forall₂ (mapM_eq_ok_iff.mp run)

theorem exists_mem_of_mapM {compute : Item → Except Error Value} {items : List Item}
    {values : List Value} (run : items.mapM compute = .ok values) :
    ∀ value ∈ values, ∃ item ∈ items, compute item = .ok value :=
  exists_mem_of_forall₂ (mapM_eq_ok_iff.mp run).flip

theorem forM_eq_ok_iff {check : Item → Except Error Unit} {items : List Item} :
    items.forM check = .ok ⟨⟩ ↔ ∀ item ∈ items, check item = .ok ⟨⟩ := by
  induction items with
  | nil => exact iff_of_true rfl (fun _ absent => nomatch absent)
  | cons item rest ih =>
      change (check item >>= fun _ => rest.forM check) = _ ↔ _
      rw [bind_eq_ok_iff, List.forall_mem_cons, ← ih]
      constructor
      · rintro ⟨⟨⟩, here, later⟩
        exact ⟨here, later⟩
      · rintro ⟨here, later⟩
        exact ⟨⟨⟩, here, later⟩

end Computations

/-- The failures of look-ups in a model and in tables. -/
inductive Fault.OfLookup {K : Type} : Fault K → Prop
  | malformed (defect : Defect K) : OfLookup (.malformed defect)
  | missingKey (key : Ident) : OfLookup (.missingKey key)

variable {K Answer Result : Type} [Scalar K]

namespace Inquiry

/-- What an inquiry comes to when its events are left aside. -/
def result (model : Model K) (inquiry : Inquiry K Answer) : Except (Fault K) Answer :=
  (inquiry.answer model).result

variable (model : Model K)

@[simp] theorem result_pure (answer : Answer) :
    (pure answer : Inquiry K Answer).result model = .ok answer := rfl

@[simp] theorem result_fail (fault : Fault K) :
    (fail fault : Inquiry K Answer).result model = .error fault := rfl

@[simp] theorem result_rowOf (state action : Ident) :
    (rowOf state action).result model = model.row state action := by
  simp only [result, rowOf, answer]
  cases model.row state action <;> rfl

@[simp] theorem result_report (event : Event K) : (report event).result model = .ok () := rfl

@[simp] theorem result_liftM (computation : Except (Fault K) Answer) :
    (liftM computation : Inquiry K Answer).result model = computation := by
  cases computation <;> rfl

@[simp] theorem result_bind (inquiry : Inquiry K Answer) (next : Answer → Inquiry K Result) :
    (inquiry >>= next).result model =
      inquiry.result model >>= fun answer => (next answer).result model := by
  induction inquiry with
  | done answer => rfl
  | fail fault => rfl
  | ask state action rest ih =>
      change (Inquiry.ask state action fun row => (rest row).bind next).result model = _
      simp only [result, answer]
      cases model.row state action with
      | error fault => rfl
      | ok row => exact ih row
  | note event rest ih => exact ih ()

theorem result_bind_eq_ok_iff {model : Model K} {inquiry : Inquiry K Answer}
    {next : Answer → Inquiry K Result} {outcome : Result} : (inquiry >>= next).result model = .ok outcome ↔
      ∃ answer, inquiry.result model = .ok answer ∧ (next answer).result model = .ok outcome := by
  rw [result_bind, bind_eq_ok_iff]

/-- Questions asked for each element of a list in turn become look-ups made in turn. -/
theorem result_mapM {Item : Type} (ask : Item → Inquiry K Answer) (items : List Item) :
    (items.mapM ask).result model = items.mapM fun item => (ask item).result model := by
  induction items with
  | nil => rfl
  | cons item rest ih =>
      simp only [List.mapM_cons, result_bind, result_pure, ih]
      rfl

private theorem result_forM {Item : Type} (ask : Item → Inquiry K PUnit) (items : List Item) :
    (items.forM ask).result model = items.forM fun item => (ask item).result model := by
  induction items with
  | nil => rfl
  | cons item rest ih =>
      change (ask item >>= fun _ => rest.forM ask).result model = _
      rw [result_bind, ih]
      rfl

theorem result_forM_iff {Item : Type} (ask : Item → Inquiry K PUnit) (items : List Item) :
    (items.forM ask).result model = .ok ⟨⟩ ↔ ∀ item ∈ items, (ask item).result model = .ok ⟨⟩ := by
  rw [result_forM, forM_eq_ok_iff]

/-! ## Answers with a property -/

/-- The inquiry does not fail, and its answer has a property. -/
def Gives (inquiry : Inquiry K Answer) (holds : Answer → Prop) : Prop :=
  ∃ answer, inquiry.result model = .ok answer ∧ holds answer

section Gives

variable {model} {inquiry : Inquiry K Answer} {holds : Answer → Prop}

theorem Gives.pure {answer : Answer} (held : holds answer) :
    (pure answer : Inquiry K Answer).Gives model holds :=
  ⟨answer, rfl, held⟩

theorem Gives.of_ok {computation : Except (Fault K) Answer} {answer : Answer}
    (run : computation = .ok answer) (held : holds answer) :
    (liftM computation : Inquiry K Answer).Gives model holds :=
  ⟨answer, (result_liftM model computation).trans run, held⟩

theorem Gives.report (event : Event K) : (report event).Gives model fun _ => True :=
  ⟨(), rfl, trivial⟩

theorem Gives.mono {weaker : Answer → Prop} (gives : inquiry.Gives model holds)
    (implies : ∀ answer, holds answer → weaker answer) : inquiry.Gives model weaker := by
  obtain ⟨answer, run, held⟩ := gives
  exact ⟨answer, run, implies answer held⟩

theorem Gives.bind {next : Answer → Inquiry K Result} {later : Result → Prop}
    (gives : inquiry.Gives model holds)
    (follows : ∀ answer, holds answer → (next answer).Gives model later) :
    (inquiry >>= next).Gives model later := by
  obtain ⟨answer, run, held⟩ := gives
  obtain ⟨result, finish, reached⟩ := follows answer held
  exact ⟨result, by rw [result_bind, run, ok_bind, finish], reached⟩

theorem Gives.of_ok_bind {computation : Except (Fault K) Answer} {answer : Answer}
    {next : Answer → Inquiry K Result} {later : Result → Prop} (run : computation = .ok answer)
    (follows : (next answer).Gives model later) :
    (liftM computation >>= next).Gives model later :=
  (Gives.of_ok run rfl).bind fun _ same => same ▸ follows

end Gives

/-! ## Answers with a property, unless a look-up fails -/

/-- If the inquiry answers, then with a property, and if it fails, then on a look-up. -/
def Yields (inquiry : Inquiry K Answer) (holds : Answer → Prop) : Prop :=
  match inquiry.result model with
  | .ok answer => holds answer
  | .error fault => fault.OfLookup

section Yields

variable {model} {inquiry : Inquiry K Answer} {holds : Answer → Prop}

theorem Yields.of_except {computation : Except (Fault K) Answer}
    (answers : ∀ answer, computation = .ok answer → holds answer)
    (fails : ∀ fault, computation = .error fault → fault.OfLookup) :
    (liftM computation : Inquiry K Answer).Yields model holds := by
  unfold Yields
  rw [result_liftM]
  cases run : computation with
  | ok answer => exact answers answer run
  | error fault => exact fails fault run

theorem Yields.mono {weaker : Answer → Prop} (yields : inquiry.Yields model holds)
    (implies : ∀ answer, inquiry.result model = .ok answer → holds answer → weaker answer) :
    inquiry.Yields model weaker := by
  unfold Yields at yields ⊢
  cases run : inquiry.result model with
  | ok answer =>
      rw [run] at yields
      exact implies answer run yields
  | error fault => rwa [run] at yields

theorem Yields.bind {next : Answer → Inquiry K Result} {later : Result → Prop}
    (yields : inquiry.Yields model holds)
    (follows : ∀ answer, inquiry.result model = .ok answer → holds answer →
      (next answer).Yields model later) :
    (inquiry >>= next).Yields model later := by
  unfold Yields at yields follows ⊢
  rw [result_bind]
  cases run : inquiry.result model with
  | ok answer =>
      rw [run] at yields
      exact follows answer run yields
  | error fault => rwa [run] at yields

theorem Yields.of_ok_bind {computation : Except (Fault K) Answer} {answer : Answer}
    {next : Answer → Inquiry K Result} {later : Result → Prop} (run : computation = .ok answer)
    (follows : (next answer).Yields model later) :
    (liftM computation >>= next).Yields model later := by
  subst run
  exact follows

theorem Yields.mapM {Item : Type} {ask : Item → Inquiry K Answer} {items : List Item}
    (each : ∀ item ∈ items, (ask item).Yields model fun _ => True) :
    (items.mapM ask).Yields model fun _ => True := by
  induction items with
  | nil => exact trivial
  | cons item rest ih =>
      rw [List.mapM_cons]
      refine (each item List.mem_cons_self).bind fun answer _ _ => ?_
      exact (ih fun other member => each other (List.mem_cons_of_mem _ member)).bind
        fun _ _ _ => trivial

end Yields

/-! ## Events -/

theorem answer_bind (inquiry : Inquiry K Answer) (next : Answer → Inquiry K Result) :
    (inquiry >>= next).answer model =
      match (inquiry.answer model).result with
      | .ok answer => ⟨((next answer).answer model).result,
          (inquiry.answer model).events ++ ((next answer).answer model).events⟩
      | .error fault => ⟨.error fault, (inquiry.answer model).events⟩ := by
  induction inquiry with
  | done answer => rfl
  | fail fault => rfl
  | ask state action rest ih =>
      change (Inquiry.ask state action fun row => (rest row).bind next).answer model = _
      simp only [answer]
      cases model.row state action with
      | error fault => rfl
      | ok row => exact ih row
  | note event rest ih =>
      change ((rest () >>= next).answer model).after event = _
      rw [ih, answer]
      obtain ⟨result, events⟩ := answer model (rest ())
      cases result <;> rfl

theorem answer_report_bind (event : Event K) (next : Unit → Inquiry K Result) :
    (report event >>= next).answer model = ((next ()).answer model).after event := rfl

/-- However the inquiry ends, it notes nothing on the way. -/
def Silent (inquiry : Inquiry K Answer) : Prop :=
  inquiry.answer model = ⟨inquiry.result model, []⟩

section Silent

variable {model} {inquiry : Inquiry K Answer} {next : Answer → Inquiry K Result}

theorem Silent.pure (answer : Answer) : (pure answer : Inquiry K Answer).Silent model := rfl

theorem Silent.liftM (computation : Except (Fault K) Answer) :
    (liftM computation : Inquiry K Answer).Silent model := by
  cases computation <;> rfl

theorem Silent.rowOf (state action : Ident) : (rowOf state action).Silent model := by
  unfold Silent
  rw [result_rowOf]
  simp only [Inquiry.rowOf, answer]
  cases model.row state action <;> rfl

theorem Silent.answer_bind (silent : inquiry.Silent model) {answer : Answer}
    (run : inquiry.result model = .ok answer) :
    (inquiry >>= next).answer model = (next answer).answer model := by
  rw [Inquiry.answer_bind, silent, run]
  rfl

theorem Silent.answer_bind_of_fault (silent : inquiry.Silent model) {fault : Fault K}
    (run : inquiry.result model = .error fault) :
    (inquiry >>= next).answer model = ⟨.error fault, []⟩ := by
  rw [Inquiry.answer_bind, silent, run]

theorem Silent.bind (silent : inquiry.Silent model)
    (follows : ∀ answer, (next answer).Silent model) : (inquiry >>= next).Silent model := by
  unfold Silent
  rw [result_bind]
  cases run : inquiry.result model with
  | error fault => exact silent.answer_bind_of_fault run
  | ok answer => exact (silent.answer_bind run).trans (follows answer)

end Silent

/-! ## Remembered rows -/

/-- A memory is sound if every row that it remembers passes its check. -/
def Checked.Sound (checked : Checked) : Prop :=
  ∀ state action, checked.contains (state, action) = true → ∃ row, model.row state action = .ok row

theorem Checked.sound_empty : Checked.Sound model ∅ := by
  intro state action present
  simp at present

variable {model}

theorem memoizedRow_of_sound {checked : Checked} (sound : checked.Sound model)
    (state action : Ident) :
    (∃ row known, memoizedRow model checked state action = .ok (row, known) ∧
      model.row state action = .ok row ∧ known.Sound model) ∨
    ∃ fault, memoizedRow model checked state action = .error fault ∧
      model.row state action = .error fault := by
  cases raw : model.rawRow state action with
  | error fault => exact .inr ⟨fault, by simp only [memoizedRow, raw, error_bind],
      by simp only [Model.row, raw, error_bind]⟩
  | ok row =>
      by_cases present : checked.contains (state, action) = true
      · obtain ⟨known, passed⟩ := sound state action present
        have same : known = row := by
          simp only [Model.row, raw, ok_bind] at passed
          obtain ⟨-, -, passed⟩ := bind_eq_ok_iff.mp passed
          exact (Except.ok.inj passed).symm
        subst same
        exact .inl ⟨known, checked, by simp only [memoizedRow, raw, ok_bind, present, if_true,
          pure_eq_ok], passed, sound⟩
      · cases verdict : checkRow row state action model.knows with
        | error fault =>
            exact .inr ⟨fault, by simp only [memoizedRow, raw, ok_bind, present, verdict, error_bind,
                Bool.false_eq_true, if_false],
              by simp only [Model.row, raw, ok_bind, verdict, error_bind]⟩
        | ok passed =>
            have fresh : model.row state action = .ok row := by
              simp only [Model.row, raw, ok_bind, verdict, pure_eq_ok]
            refine .inl ⟨row, checked.insert (state, action), by simp only [memoizedRow, raw, ok_bind,
              present, verdict, pure_eq_ok, Bool.false_eq_true, if_false], fresh, ?_⟩
            intro other choice found
            rw [Std.HashSet.contains_insert, Bool.or_eq_true, beq_iff_eq] at found
            rcases found with same | earlier
            · cases same
              exact ⟨row, fresh⟩
            · exact sound other choice earlier

/-- Remembering rows changes neither the outcome nor the events, and keeps the memory sound. -/
theorem resume_eq_answer {checked : Checked} (sound : checked.Sound model)
    (inquiry : Inquiry K Answer) :
    (inquiry.resume model checked).1 = inquiry.answer model ∧
      (inquiry.resume model checked).2.Sound model := by
  induction inquiry generalizing checked with
  | done answer => exact ⟨rfl, sound⟩
  | fail fault => exact ⟨rfl, sound⟩
  | ask state action next ih =>
      rcases memoizedRow_of_sound sound state action with
        ⟨row, known, remembered, fresh, kept⟩ | ⟨fault, remembered, fresh⟩
      · simpa only [resume, answer, remembered, fresh] using ih row kept
      · simpa only [resume, answer, remembered, fresh] using ⟨trivial, sound⟩
  | note event next ih =>
      obtain ⟨same, kept⟩ := ih () sound
      exact ⟨by simp only [resume, answer, same], kept⟩

end Inquiry

/-! ## Tables computed key by key -/

section Tabulating

variable {model : Model K} {Key Value : Type} [DecidableEq Key] {keys : List Key}
  {compute : Key → Inquiry K Value}

theorem result_tabulate {value : Key → Value}
    (each : ∀ key ∈ keys, (compute key).result model = .ok (value key)) :
    (tabulate keys compute).result model = .ok (.ofKeys keys value) := by
  have pairs : (keys.mapM fun key => do
      let value ← compute key
      return (key, value) : Inquiry K (List (Key × Value))).result model =
        .ok (keys.map fun key => (key, value key)) := by
    rw [Inquiry.result_mapM]
    apply mapM_eq_ok
    intro key member
    simp only [Inquiry.result_bind, Inquiry.result_pure, each key member]
    rfl
  rw [tabulate, Inquiry.result_bind, pairs]
  rfl

/-- If no computation of a value fails, the table has exactly the listed keys, with values that have
the property. -/
theorem gives_tabulate {holds : Key → Value → Prop}
    (each : ∀ key ∈ keys, (compute key).Gives model (holds key)) :
    (tabulate keys compute).Gives model fun table =>
      (∀ key, key ∈ table.keys ↔ key ∈ keys) ∧
        ∀ key ∈ keys, ∃ value, table.get? key = some value ∧ holds key value := by
  cases keys with
  | nil => exact ⟨.ofPairs [], rfl, by simp, by simp⟩
  | cons first rest =>
      obtain ⟨sample, -⟩ := each first List.mem_cons_self
      have chosen : ∀ key, ∃ value, key ∈ first :: rest →
          (compute key).result model = .ok value ∧ holds key value := by
        intro key
        by_cases listed : key ∈ first :: rest
        · obtain ⟨value, computed, held⟩ := each key listed
          exact ⟨value, fun _ => ⟨computed, held⟩⟩
        · exact ⟨sample, fun member => absurd member listed⟩
      obtain ⟨value, computed⟩ := Classical.axiomOfChoice chosen
      refine ⟨_, result_tabulate fun key member => (computed key member).1,
        fun key => Table.mem_keys_ofKeys _ _ _, fun key member => ⟨value key, ?_, ?_⟩⟩
      · rw [Table.get?_ofKeys, if_pos member]
      · exact (computed key member).2

theorem exists_result_of_tabulate {table : Table Key Value}
    (run : (tabulate keys compute).result model = .ok table) :
    ∀ key ∈ keys, key ∈ table.keys ∧ ∃ value, (compute key).result model = .ok value := by
  rw [tabulate, Inquiry.result_bind, Inquiry.result_mapM] at run
  obtain ⟨pairs, collected, built⟩ := bind_eq_ok_iff.mp run
  cases built
  intro key member
  obtain ⟨pair, listed, computed⟩ := exists_ok_of_mapM collected key member
  obtain ⟨value, found, paired⟩ := Inquiry.result_bind_eq_ok_iff.mp computed
  cases paired
  exact ⟨(Table.mem_keys_ofPairs pairs key).mpr (List.mem_map.mpr ⟨_, listed, rfl⟩), value, found⟩

/-- The entries of a computed table are the results at the listed keys. -/
theorem get?_of_tabulate {table : Table Key Value}
    (run : (tabulate keys compute).result model = .ok table) (key : Key) (value : Value) :
    table.get? key = some value ↔ key ∈ keys ∧ (compute key).result model = .ok value := by
  have each : ∀ key ∈ keys, (compute key).Gives model fun value =>
      (compute key).result model = .ok value := by
    intro key member
    obtain ⟨-, value, computed⟩ := exists_result_of_tabulate run key member
    exact ⟨value, computed, computed⟩
  obtain ⟨_, again, sameKeys, values⟩ := gives_tabulate each
  rw [run] at again
  cases again
  constructor
  · intro found
    have listed : key ∈ keys := by
      rw [← sameKeys, ← table.get?_isSome_iff, found]
      rfl
    obtain ⟨_, stored, computed⟩ := values key listed
    rw [found] at stored
    cases stored
    exact ⟨listed, computed⟩
  · rintro ⟨listed, computed⟩
    obtain ⟨_, stored, result⟩ := values key listed
    rw [computed] at result
    cases result
    exact stored

end Tabulating

end MarkovDecision
