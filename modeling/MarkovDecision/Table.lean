/-!
# Tables

A table sends finitely many keys to values and remembers the order in which the keys first came.
Writing to a key that is present replaces its value and leaves its place; writing to a new key adds
it at the end. The main statements say what `insert`, `ofPairs` and `mapValues` do to the two views
of a table, its keys in order and its look-up function, and that those two views determine it.
-/

set_option autoImplicit false

namespace MarkovDecision

variable {Key Value Result : Type}

/-- An ordered table with distinct keys. -/
structure Table (Key Value : Type) where
  entries : List (Key × Value)
  nodup_keys : (entries.map Prod.fst).Nodup

namespace Table

/-- The keys, in the order in which they came. -/
def keys (table : Table Key Value) : List Key := table.entries.map Prod.fst

/-- The values, in the order of their keys. -/
def values (table : Table Key Value) : List Value := table.entries.map Prod.snd

/-- The number of keys. -/
def size (table : Table Key Value) : Nat := table.entries.length

/-- The table without entries. -/
def empty : Table Key Value := ⟨[], List.nodup_nil⟩

instance : Inhabited (Table Key Value) := ⟨empty⟩

def mapValues (table : Table Key Value) (change : Key → Value → Result) : Table Key Result :=
  ⟨table.entries.map fun entry => (entry.1, change entry.1 entry.2), by
    have same : (table.entries.map fun entry => (entry.1, change entry.1 entry.2)).map Prod.fst =
        table.entries.map Prod.fst := by
      simp [List.map_map, Function.comp_def]
    rw [same]
    exact table.nodup_keys⟩

theorem keys_nodup (table : Table Key Value) : table.keys.Nodup := table.nodup_keys

@[simp] theorem keys_empty : (empty : Table Key Value).keys = [] := rfl

@[simp] theorem keys_mapValues (table : Table Key Value) (change : Key → Value → Result) :
    (table.mapValues change).keys = table.keys := by
  simp [keys, mapValues, Function.comp_def]

/-- A table is its list of entries. -/
theorem eq_of_entries {left right : Table Key Value} (same : left.entries = right.entries) :
    left = right := by
  cases left
  cases right
  cases same
  rfl

variable [DecidableEq Key]

/-- The value that the first pair with this key carries. -/
def lookupIn (key : Key) : List (Key × Value) → Option Value
  | [] => none
  | entry :: rest => if entry.1 = key then some entry.2 else lookupIn key rest

/-- Give `key` the value `value` where it first stands, or at the end if it stands nowhere. -/
def overwriteIn (key : Key) (value : Value) : List (Key × Value) → List (Key × Value)
  | [] => [(key, value)]
  | entry :: rest =>
    if entry.1 = key then (key, value) :: rest else entry :: overwriteIn key value rest

/-- A change of names that no key confuses with the wanted one changes no look-up. -/
theorem lookupIn_map {Name : Type} [DecidableEq Name] (name : Key → Name) {key : Key}
    {entries : List (Key × Value)}
    (distinct : ∀ entry ∈ entries, name entry.1 = name key → entry.1 = key) :
    lookupIn (name key) (entries.map fun entry => (name entry.1, entry.2)) =
      lookupIn key entries := by
  induction entries with
  | nil => rfl
  | cons entry rest ih =>
      obtain ⟨here, others⟩ := List.forall_mem_cons.mp distinct
      simp only [List.map_cons, lookupIn, ih others]
      by_cases same : entry.1 = key
      · rw [if_pos same, if_pos (congrArg name same)]
      · rw [if_neg same, if_neg fun named => same (here named)]

private theorem lookupIn_overwriteIn (key other : Key) (value : Value)
    (entries : List (Key × Value)) :
    lookupIn other (overwriteIn key value entries) =
      if key = other then some value else lookupIn other entries := by
  induction entries with
  | nil => simp [overwriteIn, lookupIn]
  | cons entry rest ih =>
      by_cases here : entry.1 = key
      · by_cases wanted : key = other <;> simp [overwriteIn, lookupIn, here, wanted]
      · simp only [overwriteIn, here, if_false, lookupIn, ih]
        by_cases wanted : entry.1 = other
        · have distinct : ¬ key = other := fun same => here (wanted.trans same.symm)
          simp [wanted, distinct]
        · simp [wanted]

/-- Nor does it change what is overwritten, whatever becomes of the values. -/
private theorem overwriteIn_map {Name : Type} [DecidableEq Name] (name : Key → Name)
    (change : Key → Value → Result) {key : Key} (value : Value) {entries : List (Key × Value)}
    (distinct : ∀ entry ∈ entries, name entry.1 = name key → entry.1 = key) :
    overwriteIn (name key) (change key value)
        (entries.map fun entry => (name entry.1, change entry.1 entry.2)) =
      (overwriteIn key value entries).map fun entry => (name entry.1, change entry.1 entry.2) := by
  induction entries with
  | nil => rfl
  | cons entry rest ih =>
      obtain ⟨here, others⟩ := List.forall_mem_cons.mp distinct
      simp only [List.map_cons, overwriteIn, ih others]
      by_cases same : entry.1 = key
      · rw [if_pos same, if_pos (congrArg name same), List.map_cons]
      · rw [if_neg same, if_neg fun named => same (here named), List.map_cons]

private theorem keys_overwriteIn (key : Key) (value : Value) (entries : List (Key × Value)) :
    (overwriteIn key value entries).map Prod.fst =
      if key ∈ entries.map Prod.fst then entries.map Prod.fst
      else entries.map Prod.fst ++ [key] := by
  induction entries with
  | nil => simp [overwriteIn]
  | cons entry rest ih =>
      by_cases here : entry.1 = key
      · simp [overwriteIn, here]
      · have away : ¬ key = entry.1 := fun same => here same.symm
        simp only [overwriteIn, here, if_false, List.map_cons, ih, List.mem_cons, away, false_or]
        split <;> simp

private theorem nodup_overwriteIn (key : Key) (value : Value) (entries : List (Key × Value))
    (distinct : (entries.map Prod.fst).Nodup) :
    ((overwriteIn key value entries).map Prod.fst).Nodup := by
  rw [keys_overwriteIn]
  split
  · exact distinct
  · next absent =>
      rw [List.nodup_append]
      refine ⟨distinct, by simp, ?_⟩
      intro known member added single same
      simp only [List.mem_singleton] at single
      exact absent (single ▸ same ▸ member)

/-- The value of a key, if the table has it. -/
def get? (table : Table Key Value) (key : Key) : Option Value := lookupIn key table.entries

def contains (table : Table Key Value) (key : Key) : Bool := (table.get? key).isSome

/-- Write a value: in place if the key is present, at the end if it is new. -/
def insert (table : Table Key Value) (key : Key) (value : Value) : Table Key Value :=
  ⟨overwriteIn key value table.entries, nodup_overwriteIn key value table.entries table.nodup_keys⟩

/-- Write the pairs one after another. -/
def insertAll (table : Table Key Value) (pairs : List (Key × Value)) : Table Key Value :=
  pairs.foldl (fun built pair => built.insert pair.1 pair.2) table

/-- The table that results from writing the pairs in order, starting from nothing. -/
def ofPairs (pairs : List (Key × Value)) : Table Key Value := empty.insertAll pairs

/-- The table that gives each listed key the value that a function computes for it. -/
def ofKeys (keys : List Key) (value : Key → Value) : Table Key Value :=
  ofPairs (keys.map fun key => (key, value key))

@[simp] theorem get?_empty (key : Key) : (empty : Table Key Value).get? key = none := rfl

@[simp] theorem get?_insert (table : Table Key Value) (key other : Key) (value : Value) :
    (table.insert key value).get? other = if key = other then some value else table.get? other :=
  lookupIn_overwriteIn key other value table.entries

theorem keys_insert (table : Table Key Value) (key : Key) (value : Value) :
    (table.insert key value).keys =
      if key ∈ table.keys then table.keys else table.keys ++ [key] :=
  keys_overwriteIn key value table.entries

@[simp] theorem mem_keys_insert (table : Table Key Value) (key other : Key) (value : Value) :
    other ∈ (table.insert key value).keys ↔ other = key ∨ other ∈ table.keys := by
  rw [keys_insert]
  split
  · next present =>
      constructor
      · exact Or.inr
      · rintro (rfl | member)
        · exact present
        · exact member
  · simp [or_comm]

theorem get?_isSome_iff (table : Table Key Value) (key : Key) :
    (table.get? key).isSome = true ↔ key ∈ table.keys := by
  have inEntries : ∀ entries : List (Key × Value),
      (lookupIn key entries).isSome = true ↔ key ∈ entries.map Prod.fst := by
    intro entries
    induction entries with
    | nil => simp [lookupIn]
    | cons entry rest ih =>
        by_cases here : entry.1 = key
        · simp [lookupIn, here]
        · have away : ¬ key = entry.1 := fun same => here same.symm
          simp only [lookupIn, here, if_false, ih, List.map_cons, List.mem_cons, away, false_or]
  exact inEntries table.entries

theorem contains_iff (table : Table Key Value) (key : Key) :
    table.contains key = true ↔ key ∈ table.keys := table.get?_isSome_iff key

theorem get?_eq_some_iff (table : Table Key Value) (key : Key) (value : Value) :
    table.get? key = some value ↔ (key, value) ∈ table.entries := by
  have inEntries : ∀ entries : List (Key × Value), (entries.map Prod.fst).Nodup →
      (lookupIn key entries = some value ↔ (key, value) ∈ entries) := by
    intro entries distinct
    induction entries with
    | nil => simp [lookupIn]
    | cons entry rest ih =>
        simp only [List.map_cons, List.nodup_cons] at distinct
        by_cases here : entry.1 = key
        · have unseen : (key, value) ∉ rest := fun member =>
            distinct.1 (here ▸ List.mem_map.mpr ⟨(key, value), member, rfl⟩)
          have split : (key, value) = entry ↔ entry.2 = value := by
            constructor
            · rintro rfl
              rfl
            · rintro rfl
              rw [← here]
          simp [lookupIn, here, unseen, split]
        · have away : (key, value) ≠ entry := by
            rintro rfl
            exact here rfl
          simp [lookupIn, here, away, ih distinct.2]
  exact inEntries table.entries table.nodup_keys

@[simp] theorem get?_mapValues (table : Table Key Value) (change : Key → Value → Result)
    (key : Key) : (table.mapValues change).get? key = (table.get? key).map (change key) := by
  have inEntries : ∀ entries : List (Key × Value),
      lookupIn key (entries.map fun entry => (entry.1, change entry.1 entry.2)) =
        (lookupIn key entries).map (change key) := by
    intro entries
    induction entries with
    | nil => rfl
    | cons entry rest ih =>
        by_cases here : entry.1 = key
        · simp [lookupIn, here]
        · simp [lookupIn, here, ih]
  exact inEntries table.entries

theorem mapValues_insert (table : Table Key Value) (key : Key) (value : Value)
    (change : Key → Value → Result) :
    (table.insert key value).mapValues change =
      (table.mapValues change).insert key (change key value) := by
  have inEntries : ∀ entries : List (Key × Value),
      (overwriteIn key value entries).map (fun entry => (entry.1, change entry.1 entry.2)) =
        overwriteIn key (change key value)
          (entries.map fun entry => (entry.1, change entry.1 entry.2)) := by
    intro entries
    induction entries with
    | nil => rfl
    | cons entry rest ih =>
        by_cases here : entry.1 = key
        · simp [overwriteIn, here]
        · simp [overwriteIn, here, ih]
  exact eq_of_entries (inEntries table.entries)

theorem mapValues_insertAll (table : Table Key Value) (pairs : List (Key × Value))
    (change : Key → Value → Result) :
    (table.insertAll pairs).mapValues change =
      (table.mapValues change).insertAll (pairs.map fun pair => (pair.1, change pair.1 pair.2)) := by
  induction pairs generalizing table with
  | nil => rfl
  | cons pair rest ih =>
      have step : table.insertAll (pair :: rest) = (table.insert pair.1 pair.2).insertAll rest :=
        rfl
      rw [step, ih, mapValues_insert]
      rfl

theorem mapValues_ofPairs (pairs : List (Key × Value)) (change : Key → Value → Result) :
    (ofPairs pairs).mapValues change =
      ofPairs (pairs.map fun pair => (pair.1, change pair.1 pair.2)) :=
  mapValues_insertAll empty pairs change

theorem insertAll_append (table : Table Key Value) (first second : List (Key × Value)) :
    table.insertAll (first ++ second) = (table.insertAll first).insertAll second :=
  List.foldl_append

/-- The last pair written to a key decides its value. -/
theorem get?_insertAll (table : Table Key Value) (pairs : List (Key × Value)) (key : Key) :
    (table.insertAll pairs).get? key = (lookupIn key pairs.reverse).or (table.get? key) := by
  induction pairs generalizing table with
  | nil => simp [insertAll, lookupIn]
  | cons pair rest ih =>
      have tail : ∀ (leading : List (Key × Value)),
          lookupIn key (leading ++ [pair]) =
            (lookupIn key leading).or (if pair.1 = key then some pair.2 else none) := by
        intro leading
        induction leading with
        | nil => simp [lookupIn]
        | cons entry others ihLeading =>
            by_cases here : entry.1 = key
            · simp [lookupIn, here]
            · simp [lookupIn, here, ihLeading]
      have step : table.insertAll (pair :: rest) = (table.insert pair.1 pair.2).insertAll rest :=
        rfl
      rw [step, ih, List.reverse_cons, tail, get?_insert]
      cases lookupIn key rest.reverse with
      | some value => simp
      | none => by_cases here : pair.1 = key <;> simp [here]

theorem get?_insertAll_of_not_mem (table : Table Key Value) {pairs : List (Key × Value)} {key : Key}
    (absent : key ∉ pairs.map Prod.fst) : (table.insertAll pairs).get? key = table.get? key := by
  induction pairs generalizing table with
  | nil => rfl
  | cons pair rest ih =>
      rw [List.map_cons, List.mem_cons, not_or] at absent
      have step : table.insertAll (pair :: rest) = (table.insert pair.1 pair.2).insertAll rest :=
        rfl
      rw [step, ih _ absent.2, get?_insert, if_neg fun same => absent.1 same.symm]

/-- If all pairs with a key carry one value, then that is the value of the key. -/
theorem get?_insertAll_of_mem (table : Table Key Value) {pairs : List (Key × Value)} {key : Key}
    {value : Value} (listed : key ∈ pairs.map Prod.fst)
    (single : ∀ pair ∈ pairs, pair.1 = key → pair.2 = value) :
    (table.insertAll pairs).get? key = some value := by
  induction pairs generalizing table with
  | nil => cases listed
  | cons pair rest ih =>
      have step : table.insertAll (pair :: rest) = (table.insert pair.1 pair.2).insertAll rest :=
        rfl
      obtain ⟨here, others⟩ := List.forall_mem_cons.mp single
      by_cases later : key ∈ rest.map Prod.fst
      · rw [step, ih _ later others]
      · have same : key = pair.1 := (List.mem_cons.mp listed).resolve_right later
        rw [step, get?_insertAll_of_not_mem _ later, get?_insert, if_pos same.symm, here same.symm]

theorem get?_ofPairs (pairs : List (Key × Value)) (key : Key) :
    (ofPairs pairs).get? key = lookupIn key pairs.reverse := by
  rw [ofPairs, get?_insertAll]
  simp

theorem mem_keys_insertAll (table : Table Key Value) (pairs : List (Key × Value)) (key : Key) :
    key ∈ (table.insertAll pairs).keys ↔ key ∈ table.keys ∨ key ∈ pairs.map Prod.fst := by
  induction pairs generalizing table with
  | nil => simp [insertAll]
  | cons pair rest ih =>
      have step : table.insertAll (pair :: rest) = (table.insert pair.1 pair.2).insertAll rest :=
        rfl
      rw [step, ih, mem_keys_insert, List.map_cons, List.mem_cons]
      constructor
      · rintro ((here | known) | later)
        · exact Or.inr (Or.inl here)
        · exact Or.inl known
        · exact Or.inr (Or.inr later)
      · rintro (known | here | later)
        · exact Or.inl (Or.inr known)
        · exact Or.inl (Or.inl here)
        · exact Or.inr later

@[simp] theorem mem_keys_ofPairs (pairs : List (Key × Value)) (key : Key) :
    key ∈ (ofPairs pairs).keys ↔ key ∈ pairs.map Prod.fst := by
  simp [ofPairs, mem_keys_insertAll]

@[simp] theorem mem_keys_ofKeys (keys : List Key) (value : Key → Value) (key : Key) :
    key ∈ (ofKeys keys value).keys ↔ key ∈ keys := by
  simp [ofKeys]

/-- A table computed from its keys holds the computed value at each of them and nothing else. -/
@[simp] theorem get?_ofKeys (keys : List Key) (value : Key → Value) (key : Key) :
    (ofKeys keys value).get? key = if key ∈ keys then some (value key) else none := by
  have inPairs : ∀ names : List Key,
      lookupIn key (names.map fun name => (name, value name)) =
        if key ∈ names then some (value key) else none := by
    intro names
    induction names with
    | nil => rfl
    | cons name rest ih =>
        by_cases here : name = key
        · subst here
          simp [lookupIn]
        · have away : ¬ key = name := fun same => here same.symm
          simp [lookupIn, here, away, ih]
  rw [ofKeys, get?_ofPairs, ← List.map_reverse, inPairs]
  simp

/-- Pairs with distinct keys are stored as they come. -/
theorem entries_insertAll (table : Table Key Value) (pairs : List (Key × Value))
    (distinct : ((table.entries ++ pairs).map Prod.fst).Nodup) :
    (table.insertAll pairs).entries = table.entries ++ pairs := by
  induction pairs generalizing table with
  | nil => simp [insertAll]
  | cons pair rest ih =>
      have fresh : ∀ entries : List (Key × Value), pair.1 ∉ entries.map Prod.fst →
          overwriteIn pair.1 pair.2 entries = entries ++ [pair] := by
        intro entries absent
        induction entries with
        | nil => simp [overwriteIn]
        | cons entry others ihEntries =>
            simp only [List.map_cons, List.mem_cons, not_or] at absent
            have here : ¬ entry.1 = pair.1 := fun same => absent.1 same.symm
            simp [overwriteIn, here, ihEntries absent.2]
      have absent : pair.1 ∉ table.entries.map Prod.fst := by
        rw [List.map_append, List.nodup_append] at distinct
        intro member
        exact distinct.2.2 _ member _ (List.mem_cons_self ..) rfl
      have stored : (table.insert pair.1 pair.2).entries = table.entries ++ [pair] :=
        fresh table.entries absent
      have step : table.insertAll (pair :: rest) = (table.insert pair.1 pair.2).insertAll rest :=
        rfl
      rw [step, ih, stored]
      · simp
      · rw [stored]
        simpa using distinct

theorem entries_ofPairs (pairs : List (Key × Value)) (distinct : (pairs.map Prod.fst).Nodup) :
    (ofPairs pairs).entries = pairs := by
  have stored := entries_insertAll (empty : Table Key Value) pairs (by simpa [empty] using distinct)
  simpa [ofPairs, empty] using stored

/-- Tables of pairs under other names differ by the names alone. -/
theorem entries_ofPairs_map {Name : Type} [DecidableEq Name] (name : Key → Name)
    (change : Key → Value → Result) (pairs : List (Key × Value))
    (distinct : ∀ first ∈ pairs.map Prod.fst, ∀ second ∈ pairs.map Prod.fst,
      name first = name second → first = second) :
    (ofPairs (pairs.map fun pair => (name pair.1, change pair.1 pair.2))).entries =
      (ofPairs pairs).entries.map fun entry => (name entry.1, change entry.1 entry.2) := by
  have grown : ∀ (later : List (Key × Value)) (left : Table Key Value) (right : Table Name Result),
      (∀ pair ∈ later, pair.1 ∈ pairs.map Prod.fst) →
      (∀ key ∈ left.keys, key ∈ pairs.map Prod.fst) →
      right.entries = (left.entries.map fun entry => (name entry.1, change entry.1 entry.2)) →
      (right.insertAll (later.map fun pair => (name pair.1, change pair.1 pair.2))).entries =
        (left.insertAll later).entries.map fun entry => (name entry.1, change entry.1 entry.2) := by
    intro later
    induction later with
    | nil => exact fun _ _ _ _ same => same
    | cons pair rest ih =>
        intro left right listed known same
        obtain ⟨here, others⟩ := List.forall_mem_cons.mp listed
        refine ih (left.insert pair.1 pair.2) _ others (fun key member => ?_) ?_
        · rcases (mem_keys_insert _ _ _ _).mp member with rfl | held
          · exact here
          · exact known key held
        · have stored : ∀ entry ∈ left.entries, name entry.1 = name pair.1 → entry.1 = pair.1 :=
            fun entry held => distinct _ (known _ (List.mem_map.mpr ⟨entry, held, rfl⟩)) _ here
          change overwriteIn _ _ right.entries = _
          rw [same]
          exact overwriteIn_map name change pair.2 stored
  exact grown pairs empty empty (fun pair listed => List.mem_map.mpr ⟨pair, listed, rfl⟩)
    (fun _ absent => nomatch absent) rfl

theorem forall_entries_insert {table : Table Key Value} {key : Key} {value : Value}
    {holds : Key × Value → Prop} (before : ∀ entry ∈ table.entries, holds entry)
    (here : holds (key, value)) : ∀ entry ∈ (table.insert key value).entries, holds entry := by
  rintro ⟨name, found⟩ listed
  rw [← get?_eq_some_iff, get?_insert] at listed
  split at listed
  · next same =>
      subst same
      cases listed
      exact here
  · exact before _ ((table.get?_eq_some_iff name found).mp listed)

theorem forall_entries_insertAll {table : Table Key Value} {pairs : List (Key × Value)}
    {holds : Key × Value → Prop} (before : ∀ entry ∈ table.entries, holds entry)
    (here : ∀ pair ∈ pairs, holds pair) :
    ∀ entry ∈ (table.insertAll pairs).entries, holds entry := by
  induction pairs generalizing table with
  | nil => exact before
  | cons pair rest ih =>
      obtain ⟨first, others⟩ := List.forall_mem_cons.mp here
      exact ih (forall_entries_insert before first) others

end Table

end MarkovDecision
