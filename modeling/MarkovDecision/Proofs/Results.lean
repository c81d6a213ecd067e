import MarkovDecision.Document.Json.Reader
import MarkovDecision.Experiment.Run
import MarkovDecision.Proofs.Document.Json
import MarkovDecision.Proofs.Grid.Layout
import MarkovDecision.Proofs.Ident.Written
import MarkovDecision.Proofs.Ready

/-!
# Results lose no state

In a document and in a sheet every state is known by its label, so a state would be lost if another one
had its label. Written names tell names apart, and the coordinates of cells tell the states of a grid
apart. So each mapping of a document has one entry for every state, and each row of the sheet repeats
the utility that the document has under its label.
-/

set_option autoImplicit false

namespace MarkovDecision

/-! ## Labels -/

private theorem Cell.name_inj {cell other : Cell} : cell.name = other.name ↔ cell = other := by
  constructor
  · intro same
    have coordinates := Ident.tuple.inj same
    cases cell
    cases other
    rw [List.map_inj_right fun _ _ => Ident.int.inj] at coordinates
    exact congrArg Cell.mk coordinates
  · rintro rfl
    rfl

private theorem CaseStudy.model_of_build {study : CaseStudy} {model : Model Float}
    {grid : Grid Float}
    (built : study.build = .ok (model, some grid)) : grid.model = .ok model := by
  cases study with
  | chain parameters => cases built
  | grid parameters =>
      obtain ⟨made, run, built⟩ := bind_eq_ok_iff.mp built
      cases built
      exact run
  | given path found => cases built

private theorem stateLabel_number {K : Type} {grid : Grid K} {cell : Cell}
    (free : cell ∈ grid.freeCells) :
    stateLabel (some grid) (grid.number cell) = .ok cell.name.written := by
  rw [stateLabel, Grid.cellOf_number free]
  rfl

/-- No two states of the model have one label. -/
def Model.ToldApart (model : Model Float) (label : Ident → Except (Fault Float) String) : Prop :=
  ∀ first ∈ model.states, ∀ second ∈ model.states, ∀ name, label first = .ok name →
    label second = .ok name → first = second

namespace Experiment.Subject

variable {subject : Subject} {study : CaseStudy}

private theorem label_of_grid {grid : Grid Float} (drawn : subject.grid = some grid)
    (state : Ident) :
    subject.label state = stateLabel (some grid) state := by
  rw [label, drawn]

private theorem label_of_none (plain : subject.grid = none) (state : Ident) :
    subject.label state = .ok state.written := by
  rw [label, plain, stateLabel]

private theorem exists_cell (built : study.build = .ok (subject.model, subject.grid))
    {grid : Grid Float}
    (drawn : subject.grid = some grid) {state : Ident} (member : state ∈ subject.model.states) :
    ∃ cell ∈ grid.freeCells, grid.number cell = state := by
  rw [drawn] at built
  rw [(Grid.states_of_model (CaseStudy.model_of_build built)).1] at member
  exact List.mem_map.mp member

theorem toldApart (built : study.build = .ok (subject.model, subject.grid)) :
    subject.model.ToldApart subject.label := by
  intro first member second other name here there
  cases drawn : subject.grid with
  | none =>
      rw [label_of_none drawn] at here there
      exact Ident.written_inj.mp (Except.ok.inj (here.trans there.symm))
  | some grid =>
      obtain ⟨cell, free, rfl⟩ := exists_cell built drawn member
      obtain ⟨place, alsoFree, rfl⟩ := exists_cell built drawn other
      rw [label_of_grid drawn, stateLabel_number free] at here
      rw [label_of_grid drawn, stateLabel_number alsoFree] at there
      have names := Ident.written_inj.mp (Except.ok.inj (here.trans there.symm))
      rw [Cell.name_inj.mp names]

/-- The states that documents name beside the listed ones are listed as well, if there is a grid. -/
theorem known_of_build (built : study.build = .ok (subject.model, subject.grid)) :
    (subject.model.initial ∈ subject.model.states ∨ subject.grid = none) ∧
      ∀ state ∈ subject.model.terminals, state ∈ subject.model.states ∨ subject.grid = none := by
  cases drawn : subject.grid with
  | none => exact ⟨.inr rfl, fun _ _ => .inr rfl⟩
  | some grid =>
      rw [drawn] at built
      obtain ⟨-, initial, terminals⟩ :=
        Grid.states_of_model (CaseStudy.model_of_build built)
      exact ⟨.inl initial, fun state terminal => .inl (terminals state terminal)⟩

theorem exists_label (built : study.build = .ok (subject.model, subject.grid)) {state : Ident}
    (known : state ∈ subject.model.states ∨ subject.grid = none) :
    ∃ name, subject.label state = .ok name := by
  cases drawn : subject.grid with
  | none => exact ⟨_, label_of_none drawn state⟩
  | some grid =>
      have member := known.resolve_right (by simp [drawn])
      obtain ⟨cell, free, rfl⟩ := exists_cell built drawn member
      rw [label_of_grid drawn, stateLabel_number free]
      exact ⟨_, rfl⟩

end Experiment.Subject

/-! ## Documents -/

private theorem Json.field?_eq_some {fields : List (String × Json)}
    (distinct : (fields.map Prod.fst).Nodup)
    {name : String} {value : Json} (listed : (name, value) ∈ fields) :
    (Json.object fields).field? name = some value := by
  obtain ⟨before, after, split⟩ := List.append_of_mem (List.mem_reverse.mpr listed)
  have names : (before.map Prod.fst ++ name :: after.map Prod.fst).Nodup := by
    have reversed := List.nodup_reverse.mpr distinct
    rwa [← List.map_reverse, split, List.map_append] at reversed
  refine List.lookup_eq_some_iff.mpr ⟨before, after, split, fun field member => ?_⟩
  rw [bne_iff_ne]
  rintro rfl
  exact (List.nodup_append.mp names).2.2 _ (List.mem_map_of_mem member) _ List.mem_cons_self rfl

/-- What a document holds at the end of a path of names. -/
def Json.at? (document : Json) : List String → Option Json
  | [] => some document
  | name :: path => (document.field? name).bind (·.at? path)

private theorem Json.at?_concat (document : Json) (path : List String) (name : String) :
    document.at? (path ++ [name]) = (document.at? path).bind (·.field? name) := by
  induction path generalizing document with
  | nil => simp [Json.at?]
  | cons first rest ih =>
      rw [List.cons_append, Json.at?, Json.at?]
      cases document.field? first with
      | none => rfl
      | some inner => exact ih inner

private theorem Datum.toJsonEntries_text (entries : List (String × Datum)) :
    toJsonEntries (entries.map fun entry => (.text entry.1, entry.2)) =
      entries.map fun entry => (entry.1, entry.2.toJson) := by
  rw [toJsonEntries_eq, List.map_map]
  rfl

private theorem map_fst_toJson (entries : List (String × Datum)) :
    (entries.map fun entry => (entry.1, entry.2.toJson)).map Prod.fst = entries.map Prod.fst := by
  rw [List.map_map]
  rfl

private theorem toJson_textMapping {entries : List (String × Datum)}
    (distinct : (entries.map Prod.fst).Nodup) :
    (textMapping entries).toJson = .object (entries.map fun entry => (entry.1, entry.2.toJson)) := by
  rw [textMapping, Datum.toJson, Datum.toJsonEntries_text,
    Table.entries_ofPairs _ (map_fst_toJson entries ▸ distinct)]

private theorem at?_textMapping {entries : List (String × Datum)}
    (distinct : (entries.map Prod.fst).Nodup) {name : String} {value : Datum}
    (listed : (name, value) ∈ entries) (path : List String) :
    (textMapping entries).toJson.at? (name :: path) = value.toJson.at? path := by
  rw [Json.at?, toJson_textMapping distinct,
    Json.field?_eq_some (map_fst_toJson entries ▸ distinct) (List.mem_map.mpr ⟨_, listed, rfl⟩),
    Option.bind_some]

/-! ## Mappings from labels -/

section Mappings

variable {Value : Type} {model : Model Float} {label : Ident → Except (Fault Float) String}
  {table : Table Ident Value} {write : Value → Datum}

/-- The states as they are listed, without repetitions. -/
def Model.distinctStates (model : Model Float) : List Ident :=
  (Table.ofKeys model.states fun _ => ()).keys

private theorem Model.mem_distinctStates {state : Ident} :
    state ∈ model.distinctStates ↔ state ∈ model.states :=
  Table.mem_keys_ofKeys _ _ _

/-- The entry of a state: its label and what is written of its value. -/
def entryOf (label : Ident → Except (Fault Float) String) (table : Table Ident Value)
    (write : Value → Datum) (state : Ident) : String × Datum :=
  ((label state).toOption.getD "", ((table.get? state).map write).getD .blank)

/-- The pair is the entry of a state that has a label and a value. -/
def IsEntry (label : Ident → Except (Fault Float) String) (table : Table Ident Value)
    (write : Value → Datum) (state : Ident) (entry : String × Datum) : Prop :=
  label state = .ok entry.1 ∧ ∃ value, table.get? state = some value ∧ entry.2 = write value

private theorem IsEntry.eq {state : Ident} {entry : String × Datum}
    (isEntry : IsEntry label table write state entry) : entryOf label table write state = entry := by
  obtain ⟨named, value, stored, written⟩ := isEntry
  rw [entryOf, named, stored, Option.map_some, Option.getD_some, ← written]
  rfl

/-- The fields of an object stand for the states in order: one for each, under its label, with what is
written of its value in a table. -/
structure Model.Lists (model : Model Float) (label : Ident → Except (Fault Float) String)
    (table : Table Ident Value) (write : Value → Datum) (fields : List (String × Json)) : Prop where
  nodup : (fields.map Prod.fst).Nodup
  entries : List.Forall₂ (fun state field => label state = .ok field.1 ∧
    ∃ value, table.get? state = some value ∧ field.2 = (write value).toJson)
    model.distinctStates fields

/-- Each state is first given its value and then its label. -/
private theorem forall₂_isEntry {items : List (Ident × Value)} {pairs : List (String × Datum)}
    (collected : model.valuesIn table = .ok items) (named : (items.mapM fun item => do
      let name ← label item.1
      return (name, write item.2)) = .ok pairs) :
    List.Forall₂ (IsEntry label table write) model.states pairs := by
  rw [Model.valuesIn, mapM_eq_ok_iff] at collected
  rw [mapM_eq_ok_iff] at named
  generalize model.states = states at collected ⊢
  induction collected generalizing pairs with
  | nil =>
      cases named
      exact .nil
  | cons stored _ ih =>
      obtain ⟨value, demanded, item⟩ := bind_eq_ok_iff.mp stored
      cases item
      cases named with
      | cons labelled later =>
          obtain ⟨name, named, pair⟩ := bind_eq_ok_iff.mp labelled
          cases pair
          exact .cons ⟨named, value, Table.get?_of_demand demanded, rfl⟩ (ih later)

private theorem isEntry_of_labelled {items : List (Ident × Value)} {part : Datum}
    (collected : model.valuesIn table = .ok items) (made : labelled label items write = .ok part) :
    (∀ state ∈ model.states, IsEntry label table write state (entryOf label table write state)) ∧
      part = textMapping (Table.ofPairs (model.states.map (entryOf label table write))).entries := by
  obtain ⟨pairs, named, built⟩ := bind_eq_ok_iff.mp made
  cases built
  have each := forall₂_isEntry collected named
  have same : model.states.map (entryOf label table write) = pairs := by
    rw [← List.forall₂_eq_eq_eq, List.forall₂_map_left_iff]
    exact each.imp fun _ _ isEntry => isEntry.eq
  subst same
  refine ⟨fun state member => ?_, rfl⟩
  rw [List.forall₂_map_right_iff, List.forall₂_same] at each
  exact each state member

private theorem lists_of_labelled {items : List (Ident × Value)} {part : Datum}
    (apart : model.ToldApart label)
    (collected : model.valuesIn table = .ok items) (made : labelled label items write = .ok part) :
    ∃ fields, part.toJson = .object fields ∧ model.Lists label table write fields := by
  obtain ⟨isEntry, rfl⟩ := isEntry_of_labelled collected made
  have pairs : model.states.map (entryOf label table write) =
      (model.states.map fun state => (state, ())).map fun pair => entryOf label table write pair.1 := by
    rw [List.map_map]
    rfl
  have listed : (Table.ofPairs (model.states.map (entryOf label table write))).entries =
      model.distinctStates.map (entryOf label table write) := by
    rw [pairs]
    refine (Table.entries_ofPairs_map (fun state => (entryOf label table write state).1)
      (fun state _ => (entryOf label table write state).2) _ ?_).trans ?_
    · rw [List.map_map, Function.comp_def, List.map_id'' fun _ => rfl]
      intro first member second other same
      have here := (isEntry first member).1
      have there := (isEntry second other).1
      rw [← same] at there
      exact apart first member second other _ here there
    · rw [Model.distinctStates, Table.keys, List.map_map]
      rfl
  refine ⟨_, toJson_textMapping (Table.nodup_keys _), ?_, ?_⟩
  · rw [List.map_map]
    exact Table.nodup_keys _
  · rw [listed, List.map_map, List.forall₂_map_right_iff, List.forall₂_same]
    intro state member
    obtain ⟨named, value, stored, written⟩ := isEntry state (Model.mem_distinctStates.mp member)
    exact ⟨named, value, stored, congrArg Datum.toJson written⟩

private theorem Model.Lists.field?_eq {fields : List (String × Json)}
    (lists : model.Lists label table write fields) {state : Ident} (member : state ∈ model.states)
    {name : String} (named : label state = .ok name) {value : Value}
    (stored : table.get? state = some value) :
    (Json.object fields).field? name = some (write value).toJson := by
  obtain ⟨⟨other, found⟩, listed, labelled, again, held, rfl⟩ :=
    exists_mem_of_forall₂ lists.entries state (Model.mem_distinctStates.mpr member)
  rw [named] at labelled
  cases labelled
  rw [stored] at held
  cases held
  exact Json.field?_eq_some lists.nodup listed

end Mappings

/-! ## Rows -/

private theorem nodup_of_forall₂ {Item Value : Type} {relates : Item → Value → Prop}
    {items : List Item}
    {values : List Value} (distinct : items.Nodup) (related : List.Forall₂ relates items values)
    (apart : ∀ first ∈ items, ∀ second ∈ items, ∀ value, relates first value →
      relates second value → first = second) : values.Nodup := by
  induction related with
  | nil => exact List.nodup_nil
  | cons here later ih =>
      obtain ⟨fresh, others⟩ := List.nodup_cons.mp distinct
      refine List.nodup_cons.mpr ⟨fun repeated => ?_, ih others fun first listed second other =>
        apart first (List.mem_cons_of_mem _ listed) second (List.mem_cons_of_mem _ other)⟩
      obtain ⟨item, listed, found⟩ := exists_mem_of_forall₂ later.flip _ repeated
      have same := apart _ List.mem_cons_self item (List.mem_cons_of_mem _ listed) _ here found
      exact fresh (same ▸ listed)

private theorem get?_of_compareEstimates {K : Type} [Scalar K] {utility : Utility K}
    {estimates : Estimates K} {tolerance : K} {report : Report K}
    (compared : compareEstimates utility estimates tolerance = .ok report) :
    report.keys = estimates.keys ∧
      ∀ entry ∈ report.entries, utility.get? entry.1 = some entry.2.analytic := by
  obtain ⟨pairs, collected, built⟩ := bind_eq_ok_iff.mp compared
  cases built
  have each : List.Forall₂ (fun entry pair => entry.1 = pair.1 ∧
      utility.get? pair.1 = some pair.2.analytic) estimates.entries pairs := by
    refine (mapM_eq_ok_iff.mp collected).imp fun entry pair computed => ?_
    obtain ⟨discrepancy, found, paired⟩ := bind_eq_ok_iff.mp computed
    cases paired
    obtain ⟨analytic, demanded, made⟩ := bind_eq_ok_iff.mp found
    cases made
    exact ⟨rfl, Table.get?_of_demand demanded⟩
  have keys : estimates.keys = pairs.map Prod.fst := by
    rw [← List.forall₂_eq_eq_eq, Table.keys, List.forall₂_map_left_iff, List.forall₂_map_right_iff]
    exact each.imp fun _ _ both => both.1
  have stored : (Table.ofPairs pairs).entries = pairs :=
    Table.entries_ofPairs pairs (keys ▸ estimates.keys_nodup)
  refine ⟨by rw [keys, Table.keys, stored], fun entry listed => ?_⟩
  rw [stored] at listed
  obtain ⟨_, -, -, found⟩ := exists_mem_of_forall₂ each.flip entry listed
  exact found

/-- Every row of a report can be made if every state of it has a label. -/
theorem exists_utilityRows {K : Type} {report : Report K} {estimates : Estimates K}
    {label : Ident → Except (Fault K) String} (study : String)
    (estimated : ∀ state ∈ report.keys, state ∈ estimates.keys)
    (labels : ∀ state ∈ report.keys, ∃ name, label state = .ok name) :
    ∃ rows, utilityRows study report estimates label = .ok rows ∧
      List.Forall₂ (fun entry row => label entry.1 = .ok row.label ∧ row.analytic = entry.2.analytic)
        report.entries rows := by
  have each : ∀ entry ∈ report.entries,
      ∃ row, utilityRow study estimates label entry.1 entry.2 = .ok row := by
    intro entry listed
    have member : entry.1 ∈ report.keys := List.mem_map_of_mem listed
    obtain ⟨estimate, demanded⟩ := Table.exists_demand (K := K) (estimated _ member)
    obtain ⟨name, named⟩ := labels _ member
    exact ⟨_, by rw [utilityRow, demanded, ok_bind, named, ok_bind, pure_eq_ok]⟩
  obtain ⟨rows, made⟩ := exists_mapM_eq_ok each
  refine ⟨rows, made, (mapM_eq_ok_iff.mp made).imp fun entry row computed => ?_⟩
  obtain ⟨estimate, -, computed⟩ := bind_eq_ok_iff.mp computed
  obtain ⟨name, named, computed⟩ := bind_eq_ok_iff.mp computed
  cases computed
  exact ⟨named, rfl⟩

/-! ## Results -/

section Results

variable {model : Model Float} {label : Ident → Except (Fault Float) String} {findings : Findings}
  {results : Datum}

/-- At a path of a document there is an object that lists the states with their values in a table. -/
def Model.ListedAt {Value : Type} (model : Model Float)
    (label : Ident → Except (Fault Float) String) (document : Json) (path : List String)
    (table : Table Ident Value) (write : Value → Datum) : Prop :=
  ∃ fields, document.at? path = some (.object fields) ∧ model.Lists label table write fields

theorem listedAt_of_results
    (apart : model.ToldApart label)
    (run : findings.results model label = .ok results) :
    model.ListedAt label results.toJson ["value_iteration", "utility"] findings.solution.utility
        .real ∧
      model.ListedAt label results.toJson ["value_iteration", "policy"] findings.solution.policy
        .ofIdent ∧
      model.ListedAt label results.toJson ["policy_iteration", "policy"] findings.policy .ofIdent := by
  obtain ⟨solution, solved, run⟩ := bind_eq_ok_iff.mp run
  obtain ⟨improved, rounds, run⟩ := bind_eq_ok_iff.mp run
  obtain ⟨walks, -, run⟩ := bind_eq_ok_iff.mp run
  cases run
  obtain ⟨values, collected, solved⟩ := bind_eq_ok_iff.mp solved
  obtain ⟨utility, made, solved⟩ := bind_eq_ok_iff.mp solved
  obtain ⟨actions, chosen, solved⟩ := bind_eq_ok_iff.mp solved
  obtain ⟨policy, drawn, solved⟩ := bind_eq_ok_iff.mp solved
  cases solved
  obtain ⟨others, rechosen, rounds⟩ := bind_eq_ok_iff.mp rounds
  obtain ⟨second, redrawn, rounds⟩ := bind_eq_ok_iff.mp rounds
  cases rounds
  obtain ⟨utilityFields, utilityJson, utilityLists⟩ := lists_of_labelled apart collected made
  obtain ⟨policyFields, policyJson, policyLists⟩ := lists_of_labelled apart chosen drawn
  obtain ⟨secondFields, secondJson, secondLists⟩ := lists_of_labelled apart rechosen redrawn
  refine ⟨⟨utilityFields, ?_, utilityLists⟩, ⟨policyFields, ?_, policyLists⟩,
    ⟨secondFields, ?_, secondLists⟩⟩
  · rw [at?_textMapping (by simp) (.head _), at?_textMapping (by simp) (.tail _ (.tail _ (.head _))),
      utilityJson, Json.at?]
  · rw [at?_textMapping (by simp) (.head _),
      at?_textMapping (by simp) (.tail _ (.tail _ (.tail _ (.head _)))), policyJson, Json.at?]
  · rw [at?_textMapping (by simp) (.tail _ (.head _)),
      at?_textMapping (by simp) (.tail _ (.tail _ (.head _))), secondJson, Json.at?]

/-- The tables of the findings have values for the states, and walks end in terminal states. -/
structure Findings.Complete (findings : Findings) (model : Model Float) : Prop where
  utility : ∀ state ∈ model.states, state ∈ findings.solution.utility.keys
  policy : ∀ state ∈ model.states, state ∈ findings.solution.policy.keys
  improved : ∀ state ∈ model.states, state ∈ findings.policy.keys
  endings : ∀ ending ∈ findings.endings, ending.state ∈ model.terminals

private theorem exists_label_of_results (run : findings.results model label = .ok results)
    {state : Ident} (member : state ∈ model.states) : ∃ name, label state = .ok name := by
  obtain ⟨solution, solved, -⟩ := bind_eq_ok_iff.mp run
  obtain ⟨values, collected, solved⟩ := bind_eq_ok_iff.mp solved
  obtain ⟨utility, made, -⟩ := bind_eq_ok_iff.mp solved
  exact ⟨_, ((isEntry_of_labelled collected made).1 state member).1⟩

private theorem exists_labelled {Value : Type} {items : List (Ident × Value)}
    (write : Value → Datum) (labels : ∀ item ∈ items, ∃ name, label item.1 = .ok name) :
    ∃ part, labelled label items write = .ok part := by
  have each : ∀ item ∈ items, ∃ pair, (do
      let name ← label item.1
      return (name, write item.2) : Except (Fault Float) (String × Datum)) = .ok pair := by
    intro item listed
    obtain ⟨name, named⟩ := labels item listed
    exact ⟨_, by rw [named, ok_bind, pure_eq_ok]⟩
  obtain ⟨pairs, made⟩ := exists_mapM_eq_ok each
  exact ⟨_, by rw [labelled, made, ok_bind, pure_eq_ok]⟩

private theorem exists_labelled_valuesIn {Value : Type} {table : Table Ident Value}
    (write : Value → Datum) (covers : ∀ state ∈ model.states, state ∈ table.keys)
    (labels : ∀ state ∈ model.states, ∃ name, label state = .ok name) :
    ∃ items part, model.valuesIn table = .ok items ∧ labelled label items write = .ok part := by
  have each : ∀ state ∈ model.states, ∃ item, (do
      let value ← table.demand state
      return (state, value) : Except (Fault Float) (Ident × Value)) = .ok item := by
    intro state member
    obtain ⟨value, demanded⟩ := Table.exists_demand (K := Float) (covers state member)
    exact ⟨_, by rw [demanded, ok_bind, pure_eq_ok]⟩
  obtain ⟨items, collected⟩ := exists_mapM_eq_ok each
  have known : ∀ item ∈ items, ∃ name, label item.1 = .ok name := by
    intro item listed
    obtain ⟨state, member, computed⟩ := exists_mem_of_mapM collected item listed
    obtain ⟨value, -, paired⟩ := bind_eq_ok_iff.mp computed
    cases paired
    exact labels state member
  obtain ⟨part, made⟩ := exists_labelled write known
  exact ⟨items, part, collected, made⟩

theorem Findings.Complete.exists_results (complete : findings.Complete model)
    (labels : ∀ state ∈ model.states, ∃ name, label state = .ok name)
    (initial : ∃ name, label model.initial = .ok name)
    (terminals : ∀ state ∈ model.terminals, ∃ name, label state = .ok name) :
    ∃ results, findings.results model label = .ok results := by
  obtain ⟨values, utility, collected, made⟩ :=
    exists_labelled_valuesIn .real complete.utility labels
  obtain ⟨actions, policy, chosen, drawn⟩ :=
    exists_labelled_valuesIn .ofIdent complete.policy labels
  obtain ⟨others, second, rechosen, redrawn⟩ :=
    exists_labelled_valuesIn .ofIdent complete.improved labels
  obtain ⟨start, started⟩ := initial
  have ends : ∀ item ∈ findings.endings.map fun ending => (ending.state, ending),
      ∃ name, label item.1 = .ok name := by
    intro item listed
    obtain ⟨ending, counted, rfl⟩ := List.mem_map.mp listed
    exact terminals _ (complete.endings ending counted)
  obtain ⟨rates, ended⟩ := exists_labelled EndingRate.datum ends
  simp only [Findings.results, Findings.solutionPart, Findings.policyPart, Findings.walkPart,
    collected, made, chosen, drawn, rechosen, redrawn, started, ended, ok_bind, pure_eq_ok,
    Except.ok.injEq, exists_eq']

/-- Under the label of each state of a report there is a row, with the utility that the document has
under this label. -/
theorem exists_rows_of_results (apart : model.ToldApart label)
    (run : findings.results model label = .ok results)
    (solved : ∀ state ∈ findings.solution.utility.keys, state ∈ model.states) {tolerance : Float}
    (compared : compareEstimates findings.solution.utility findings.estimates tolerance =
      .ok findings.report) (study : String) :
    ∃ rows, utilityRows study findings.report findings.estimates label = .ok rows ∧
      (rows.map UtilityRow.label).Nodup ∧
      List.Forall₂ (fun state row => label state = .ok row.label ∧
        results.toJson.at? ["value_iteration", "utility", row.label] = some (.real row.analytic))
        findings.report.keys rows := by
  obtain ⟨keys, analytic⟩ := get?_of_compareEstimates compared
  have known : ∀ entry ∈ findings.report.entries, entry.1 ∈ model.states := by
    intro entry listed
    refine solved _ ((Table.get?_isSome_iff _ _).mp ?_)
    rw [analytic entry listed]
    rfl
  have labels : ∀ state ∈ findings.report.keys, ∃ name, label state = .ok name := by
    intro state listed
    obtain ⟨entry, member, rfl⟩ := List.mem_map.mp listed
    exact exists_label_of_results run (known entry member)
  obtain ⟨rows, made, each⟩ := exists_utilityRows study (fun state listed => keys ▸ listed) labels
  obtain ⟨⟨fields, placed, lists⟩, -, -⟩ := listedAt_of_results apart run
  have named : List.Forall₂ (fun state name => label state = .ok name) findings.report.keys
      (rows.map UtilityRow.label) := by
    rw [Table.keys, List.forall₂_map_left_iff, List.forall₂_map_right_iff]
    exact each.imp fun _ _ both => both.1
  refine ⟨rows, made, nodup_of_forall₂ findings.report.keys_nodup named ?_, ?_⟩
  · intro first listed second other name here there
    obtain ⟨entry, member, rfl⟩ := List.mem_map.mp listed
    obtain ⟨another, also, rfl⟩ := List.mem_map.mp other
    exact apart _ (known entry member) _ (known another also) name here there
  · rw [Table.keys, List.forall₂_map_left_iff]
    have both := (List.forall₂_and_left (p := fun entry => entry ∈ findings.report.entries) _ _).mpr
      ⟨fun _ listed => listed, each⟩
    refine both.imp fun entry row facts => ?_
    obtain ⟨listed, labelled, repeated⟩ := facts
    refine ⟨labelled, ?_⟩
    change results.toJson.at? (["value_iteration", "utility"] ++ [row.label]) = _
    rw [Json.at?_concat, placed, Option.bind_some,
      lists.field?_eq (known entry listed) labelled (analytic entry listed), repeated]
    rfl

/-- States of a model that is built with or without a grid never share a label. So whenever a document
is made, each of its three mappings from states has one entry for every state, in order, with what the
tables hold for it; and under the label of each state of a cross-check there is one row, whose computed
utility is the one that the document has under this label. A document is made from any findings that
cover the states. -/
theorem Findings.results_list_states {study : CaseStudy} {subject : Experiment.Subject}
    (built : study.build = .ok (subject.model, subject.grid)) (findings : Findings) :
    subject.model.ToldApart subject.label ∧
    (∀ results, findings.results subject.model subject.label = .ok results →
      (subject.model.ListedAt subject.label results.toJson ["value_iteration", "utility"]
          findings.solution.utility .real ∧
        subject.model.ListedAt subject.label results.toJson ["value_iteration", "policy"]
          findings.solution.policy .ofIdent ∧
        subject.model.ListedAt subject.label results.toJson ["policy_iteration", "policy"]
          findings.policy .ofIdent) ∧
      ∀ tolerance, (∀ state ∈ findings.solution.utility.keys, state ∈ subject.model.states) →
        compareEstimates findings.solution.utility findings.estimates tolerance =
          .ok findings.report →
        ∀ name, ∃ rows,
          utilityRows name findings.report findings.estimates subject.label = .ok rows ∧
          (rows.map UtilityRow.label).Nodup ∧
          List.Forall₂ (fun state row => subject.label state = .ok row.label ∧
            results.toJson.at? ["value_iteration", "utility", row.label] = some (.real row.analytic))
            findings.report.keys rows) ∧
    (findings.Complete subject.model →
      ∃ results, findings.results subject.model subject.label = .ok results) := by
  have apart := Experiment.Subject.toldApart built
  refine ⟨apart, fun results run => ⟨listedAt_of_results apart run, fun tolerance solved compared name =>
    exists_rows_of_results apart run solved compared name⟩, fun complete => ?_⟩
  have known := Experiment.Subject.known_of_build built
  exact complete.exists_results
    (fun state member => Experiment.Subject.exists_label built (.inl member))
    (Experiment.Subject.exists_label built known.1)
    fun state terminal => Experiment.Subject.exists_label built (known.2 state terminal)

end Results

/-- A state with the blank name beside one whose name is the text of it. -/
def lookalikes : Experiment.Subject where
  model :=
    { states := [.blank, .text "None"]
      actionTable := .ofPairs [(.blank, [.text "stay"]), (.text "None", [.text "go"])]
      rowTable := .ofPairs [((.blank, .text "stay"), .ofPairs [(.blank, 1)]),
        ((.text "None", .text "go"), .ofPairs [(.blank, 1)])]
      reward := fun _ _ _ => 0
      discount := 0.5
      initial := .text "None"
      terminals := [.blank]
      noop := .text "stay" }
  grid := none

def lookalikeFindings : Findings where
  solution := ⟨.ofPairs [(.blank, 0), (.text "None", 1)],
    .ofPairs [(.blank, .text "stay"), (.text "None", .text "go")], 1, [1], []⟩
  policy := .ofPairs [(.blank, .text "stay"), (.text "None", .text "go")]
  rounds := 1
  gap := 0
  estimates := .ofPairs [(.text "None", ⟨1, [1], 0, 1, 1, 1, 0⟩)]
  report := .ofPairs [(.text "None", ⟨.text "None", 1, 1, 0, true⟩)]
  start := ⟨1, [1], 0, 1, 1, 1, 0⟩
  endings := [⟨.blank, 1, 0, 1⟩]

theorem Findings.results_list_states_lookalikes :
    ((CaseStudy.given "lookalikes" lookalikes.model).build = .ok (lookalikes.model, lookalikes.grid) ∧
      lookalikeFindings.Complete lookalikes.model ∧
      (∀ state ∈ lookalikeFindings.solution.utility.keys, state ∈ lookalikes.model.states) ∧
      compareEstimates lookalikeFindings.solution.utility lookalikeFindings.estimates 0 =
        .ok lookalikeFindings.report) ∧
    lookalikes.model.ToldApart lookalikes.label ∧
    ∃ results, lookalikeFindings.results lookalikes.model lookalikes.label = .ok results ∧
      lookalikes.model.ListedAt lookalikes.label results.toJson ["value_iteration", "utility"]
        lookalikeFindings.solution.utility .real ∧
      ∃ rows, utilityRows "lookalikes" lookalikeFindings.report lookalikeFindings.estimates
          lookalikes.label = .ok rows ∧
        List.Forall₂ (fun state row => lookalikes.label state = .ok row.label ∧
          results.toJson.at? ["value_iteration", "utility", row.label] = some (.real row.analytic))
          lookalikeFindings.report.keys rows := by
  have built : (CaseStudy.given "lookalikes" lookalikes.model).build =
      .ok (lookalikes.model, lookalikes.grid) := rfl
  have complete : lookalikeFindings.Complete lookalikes.model := by
    constructor <;> decide
  have solved : ∀ state ∈ lookalikeFindings.solution.utility.keys, state ∈ lookalikes.model.states := by
    decide
  have compared : compareEstimates lookalikeFindings.solution.utility lookalikeFindings.estimates 0 =
      .ok lookalikeFindings.report := rfl
  obtain ⟨apart, listed, made⟩ := Findings.results_list_states built lookalikeFindings
  obtain ⟨results, run⟩ := made complete
  obtain ⟨⟨utility, -, -⟩, rows⟩ := listed results run
  obtain ⟨found, written, -, each⟩ := rows 0 solved compared "lookalikes"
  exact ⟨⟨built, complete, solved, compared⟩, apart, results, run, utility, found, written, each⟩

end MarkovDecision
