import Mathlib.Data.List.Nodup
import MarkovDecision.Document.Json
import MarkovDecision.Proofs.Ident.Written
import MarkovDecision.Proofs.Inquiry

/-!
# What JSON values keep of mappings

A mapping from names becomes an object from their plain texts. Written names differ from each other, so
two names of a mapping share a plain text only if one of them is a text that spells the other. Where this
happens, the two keys share an entry, with the place of the first and the value of the last. Where it
happens nowhere in a value, its JSON value is built like it and has every entry of every mapping.
-/

set_option autoImplicit false

namespace MarkovDecision

/-! ## Plain names -/

namespace Datum

private theorem writtenChars_tuple (items : List Datum) : (Datum.tuple items).writtenChars =
    '(' :: (writtenItems items ++ (if items.length = 1 then [',', ')'] else [')'])) := rfl

private theorem writtenItems_cons (item : Datum) (rest : List Datum) : writtenItems (item :: rest) =
    item.writtenChars ++ (if rest.isEmpty then [] else ',' :: ' ' :: writtenItems rest) := rfl

mutual

private theorem writtenChars_ofIdent :
    ∀ name : Ident, (ofIdent name).writtenChars = name.writtenChars
  | .blank => rfl
  | .int _ => rfl
  | .text _ => rfl
  | .tuple [] => rfl
  | .tuple [item] => by
      rw [ofIdent, ofIdents, ofIdents, writtenChars_tuple, writtenItems_cons,
        writtenChars_ofIdent item]
      simp [Ident.writtenChars]
  | .tuple (first :: second :: rest) => by
      have several : (ofIdents (first :: second :: rest)).length ≠ 1 := by simp [ofIdents]
      rw [ofIdent, writtenChars_tuple, if_neg several, ofIdents, writtenItems_cons, List.append_assoc,
        ← writtenRest_eq, writtenChars_ofIdent first, Ident.writtenChars]

private theorem writtenRest_eq : ∀ names : List Ident, Ident.writtenRest names =
    (if (ofIdents names).isEmpty then [] else ',' :: ' ' :: writtenItems (ofIdents names)) ++ [')']
  | [] => rfl
  | name :: rest => by
      rw [Ident.writtenRest, writtenRest_eq rest, ofIdents, writtenItems_cons,
        writtenChars_ofIdent name]
      simp

end

private theorem written_ofIdent (name : Ident) : (ofIdent name).written = name.written :=
  congrArg String.ofList (writtenChars_ofIdent name)

private theorem plain_ofIdent (name : Ident) : (ofIdent name).plain = name.plain := by
  cases name with
  | text value => rfl
  | blank | int value | tuple items => exact written_ofIdent _

private theorem ofIdent_inj {left right : Ident} : ofIdent left = ofIdent right ↔ left = right := by
  constructor
  · intro same
    rw [← Ident.written_inj, ← written_ofIdent, same, written_ofIdent]
  · rintro rfl
    rfl

end Datum

namespace Ident

/-- Two names share a plain text only if they are one name or one of them is this text. -/
theorem plain_eq_iff {left right : Ident} :
    left.plain = right.plain ↔ left = right ∨ left = .text right.plain ∨ right = .text left.plain := by
  constructor
  · intro same
    cases left with
    | text value => exact .inr (.inl (congrArg Ident.text same))
    | blank | int value | tuple items =>
        cases right with
        | text value => exact .inr (.inr (congrArg Ident.text same.symm))
        | blank | int value | tuple items => exact .inl (written_inj.mp same)
  · rintro (rfl | spelled | spelled)
    · rfl
    · rw [spelled, plain]
    · rw [spelled, plain]

/-- None of the names is a text that spells another of them. -/
def Unspelled (names : List Ident) : Prop :=
  ∀ name ∈ names, Ident.text name.plain ∈ names → name = .text name.plain

instance (names : List Ident) : Decidable (Unspelled names) :=
  inferInstanceAs (Decidable (∀ name ∈ names, _ → _))

private theorem nodup_plain_iff {names : List Ident} (distinct : names.Nodup) :
    (names.map plain).Nodup ↔ Unspelled names := by
  rw [List.nodup_map_iff_inj_on distinct]
  constructor
  · intro apart name listed spelled
    exact apart name listed _ spelled rfl
  · intro unspelled first listed second other same
    -- If one of them is the text of the other, then the other is this text as well.
    rcases plain_eq_iff.mp same with equal | spelled | spelled
    · exact equal
    · rw [spelled] at listed
      rw [spelled, ← unspelled second other listed]
    · rw [spelled] at other
      rw [spelled, ← unspelled first listed other]

end Ident

/-! ## Tables of pairs -/

section Pairs

variable {Key Value : Type} [DecidableEq Key]

private theorem Table.ofPairs_append (pairs : List (Key × Value)) (last : Key × Value)
    (after : List (Key × Value)) :
    Table.ofPairs (pairs ++ last :: after) =
      ((Table.ofPairs pairs).insert last.1 last.2).insertAll after :=
  Table.insertAll_append _ _ _

private theorem Table.keys_ofPairs (pairs : List (Key × Value)) :
    (Table.ofPairs pairs).keys = (pairs.map Prod.fst).eraseDups := by
  induction pairs using List.reverseRecOn with
  | nil => rfl
  | append_singleton rest last ih =>
      -- The last pair adds its key at the end or finds it there already.
      rw [ofPairs_append]
      change ((Table.ofPairs rest).insert last.1 last.2).keys = _
      rw [keys_insert, ih, List.map_append, List.eraseDups_append]
      by_cases known : last.1 ∈ rest.map Prod.fst
      · simp [List.removeAll, known]
      · simp [List.removeAll, known, List.eraseDups_cons]

private theorem Table.size_ofPairs_eq_iff {pairs : List (Key × Value)} :
    (Table.ofPairs pairs).size = pairs.length ↔ (pairs.map Prod.fst).Nodup := by
  constructor
  · intro same
    have listed : (Table.ofPairs pairs).keys ⊆ pairs.map Prod.fst := fun key =>
      (Table.mem_keys_ofPairs pairs key).mp
    have lengths : (pairs.map Prod.fst).length ≤ (Table.ofPairs pairs).keys.length := by
      rw [List.length_map, Table.keys, List.length_map, ← same, Table.size]
    have shuffled := (List.subperm_of_subset (Table.keys_nodup _) listed).perm_of_length_le lengths
    exact shuffled.nodup_iff.mp (Table.keys_nodup _)
  · intro distinct
    rw [Table.size, Table.entries_ofPairs _ distinct]

private theorem Table.mem_entries_of_last {pairs after : List (Key × Value)} {last : Key × Value}
    (newest : ∀ later ∈ after, later.1 ≠ last.1) :
    last ∈ (Table.ofPairs (pairs ++ last :: after)).entries := by
  have absent : last.1 ∉ after.map Prod.fst := by
    intro listed
    obtain ⟨later, member, same⟩ := List.mem_map.mp listed
    exact newest later member same
  rw [← Table.get?_eq_some_iff _ last.1 last.2, ofPairs_append, get?_insertAll_of_not_mem _ absent,
    get?_insert, if_pos rfl]

end Pairs

/-! ## Objects -/

namespace Datum

def ofTable (table : Table Ident Datum) : Datum :=
  .mapping (table.entries.map fun entry => (.ofIdent entry.1, entry.2))

private theorem ofTable_inj {left right : Table Ident Datum} :
    ofTable left = ofTable right ↔ left = right := by
  constructor
  · intro same
    refine Table.eq_of_entries (List.map_injective_iff.mpr ?_ (Datum.mapping.inj same))
    intro first second equal
    obtain ⟨names, values⟩ := Prod.mk.inj equal
    exact Prod.ext (ofIdent_inj.mp names) values
  · rintro rfl
    rfl

private theorem toJsonItems_eq (items : List Datum) : toJsonItems items = items.map toJson := by
  induction items with
  | nil => rfl
  | cons item rest ih => rw [toJsonItems, ih, List.map_cons]

theorem toJsonEntries_eq (entries : List (Datum × Datum)) :
    toJsonEntries entries = entries.map fun entry => (entry.1.plain, entry.2.toJson) := by
  induction entries with
  | nil => rfl
  | cons entry rest ih => rw [toJsonEntries, ih, List.map_cons]

def plainEntries (table : Table Ident Datum) : List (String × Json) :=
  table.entries.map fun entry => (entry.1.plain, entry.2.toJson)

private theorem map_fst_plainEntries (table : Table Ident Datum) :
    (plainEntries table).map Prod.fst = table.keys.map Ident.plain := by
  rw [plainEntries, Table.keys, List.map_map, List.map_map]
  rfl

private theorem nodup_plainEntries_iff (table : Table Ident Datum) :
    ((plainEntries table).map Prod.fst).Nodup ↔ Ident.Unspelled table.keys := by
  rw [map_fst_plainEntries, Ident.nodup_plain_iff table.keys_nodup]

private theorem toJson_ofTable (table : Table Ident Datum) :
    (ofTable table).toJson = .object (Table.ofPairs (plainEntries table)).entries := by
  rw [ofTable, toJson, toJsonEntries_eq, List.map_map, plainEntries]
  simp only [Function.comp_def, plain_ofIdent]

/-- Made of plain values, lists, tuples and mappings from names. -/
inductive Named : Datum → Prop where
  | blank : Named .blank
  | flag {value : Bool} : Named (.flag value)
  | whole {value : Int} : Named (.whole value)
  | real {value : Float} : Named (.real value)
  | text {value : String} : Named (.text value)
  | list {items : List Datum} : (∀ item ∈ items, Named item) → Named (.list items)
  | tuple {items : List Datum} : (∀ item ∈ items, Named item) → Named (.tuple items)
  | mapping {table : Table Ident Datum} :
      (∀ entry ∈ table.entries, Named entry.2) → Named (ofTable table)

/-- A value is the other one or stands in it at some depth. -/
inductive Within (part : Datum) : Datum → Prop where
  | here : Within part part
  | list {item : Datum} {items : List Datum} :
      item ∈ items → Within part item → Within part (.list items)
  | tuple {item : Datum} {items : List Datum} :
      item ∈ items → Within part item → Within part (.tuple items)
  | mapping {entry : Datum × Datum} {entries : List (Datum × Datum)} :
      entry ∈ entries → Within part entry.2 → Within part (.mapping entries)

/-- A JSON value keeps a value: it is built like it, with lists for tuples, and the object in place of a
mapping has one entry for each of its keys, in order, under the plain text of the key, with what keeps
the value of the key. No two entries have one name. -/
inductive KeptBy : Datum → Json → Prop where
  | blank : KeptBy .blank .null
  | flag {value : Bool} : KeptBy (.flag value) (.flag value)
  | whole {value : Int} : KeptBy (.whole value) (.whole value)
  | real {value : Float} : KeptBy (.real value) (.real value)
  | text {value : String} : KeptBy (.text value) (.text value)
  | list {items : List Datum} {values : List Json} :
      List.Forall₂ KeptBy items values → KeptBy (.list items) (.list values)
  | tuple {items : List Datum} {values : List Json} :
      List.Forall₂ KeptBy items values → KeptBy (.tuple items) (.list values)
  | mapping {entries : List (Datum × Datum)} {fields : List (String × Json)}
      (names : fields.map Prod.fst = entries.map fun entry => entry.1.plain)
      (distinct : (fields.map Prod.fst).Nodup)
      (values : List.Forall₂ KeptBy (entries.map Prod.snd) (fields.map Prod.snd)) :
      KeptBy (.mapping entries) (.object fields)

private theorem within_ofTable_iff {part : Datum} {table : Table Ident Datum} :
    part.Within (ofTable table) ↔
      part = ofTable table ∨ ∃ entry ∈ table.entries, part.Within entry.2 := by
  constructor
  · intro within
    cases within with
    | here => exact .inl rfl
    | mapping listed inner =>
        obtain ⟨entry, held, rfl⟩ := List.mem_map.mp listed
        exact .inr ⟨entry, held, inner⟩
  · rintro (rfl | ⟨entry, held, inner⟩)
    · exact .here
    · exact .mapping (List.mem_map_of_mem held) inner

/-- What keeps a value keeps everything in it. -/
theorem Within.exists_keptBy {part value : Datum} (within : part.Within value) {json : Json}
    (kept : value.KeptBy json) : ∃ inner, part.KeptBy inner := by
  induction within generalizing json with
  | here => exact ⟨json, kept⟩
  | list listed _ ih =>
      cases kept with
      | list each =>
          obtain ⟨inner, -, kept⟩ := exists_mem_of_forall₂ each _ listed
          exact ih kept
  | tuple listed _ ih =>
      cases kept with
      | tuple each =>
          obtain ⟨inner, -, kept⟩ := exists_mem_of_forall₂ each _ listed
          exact ih kept
  | mapping listed _ ih =>
      cases kept with
      | mapping names distinct each =>
          obtain ⟨inner, -, kept⟩ := exists_mem_of_forall₂ each _ (List.mem_map_of_mem listed)
          exact ih kept

private theorem KeptBy.unspelled {table : Table Ident Datum} {json : Json}
    (kept : (ofTable table).KeptBy json) : Ident.Unspelled table.keys := by
  rw [ofTable] at kept
  cases kept with
  | mapping names distinct _ =>
      rw [names, List.map_map] at distinct
      rw [← nodup_plainEntries_iff, plainEntries, List.map_map]
      simpa only [Function.comp_def, plain_ofIdent] using distinct

private theorem keptBy_toJsonItems {items : List Datum}
    (each : ∀ item ∈ items, item.KeptBy item.toJson) :
    List.Forall₂ KeptBy items (toJsonItems items) := by
  rw [toJsonItems_eq, List.forall₂_map_right_iff, List.forall₂_same]
  exact each

/-- If no key of any mapping in it spells another, then a value is kept. -/
theorem Named.keptBy {value : Datum} (named : value.Named)
    (unspelled : ∀ table, (ofTable table).Within value → Ident.Unspelled table.keys) :
    value.KeptBy value.toJson := by
  induction named with
  | blank => exact .blank
  | flag => exact .flag
  | whole => exact .whole
  | real => exact .real
  | text => exact .text
  | list _ ih =>
      refine .list (keptBy_toJsonItems fun item listed => ih item listed fun table within => ?_)
      exact unspelled table (.list listed within)
  | tuple _ ih =>
      refine .tuple (keptBy_toJsonItems fun item listed => ih item listed fun table within => ?_)
      exact unspelled table (.tuple listed within)
  | @mapping table _ ih =>
      have distinct := (nodup_plainEntries_iff table).mpr (unspelled table .here)
      rw [toJson_ofTable, Table.entries_ofPairs _ distinct]
      refine .mapping ?_ distinct ?_
      · simp [plainEntries, plain_ofIdent]
      · rw [List.map_map, plainEntries, List.map_map, List.forall₂_map_left_iff,
          List.forall₂_map_right_iff, List.forall₂_same]
        intro entry listed
        refine ih entry listed fun inner within => unspelled inner ?_
        exact .mapping (List.mem_map_of_mem listed) within

/-- What a mapping from names becomes. Keys with one plain text share an entry, in the place of the first
and with the value of the last, and every key has its own entry if no key spells another. -/
structure Merged (table : Table Ident Datum) (fields : List (String × Json)) : Prop where
  nodup : (fields.map Prod.fst).Nodup
  names : fields.map Prod.fst = (table.keys.map Ident.plain).eraseDups
  newest : ∀ before name inner after, table.entries = before ++ (name, inner) :: after →
    (∀ later ∈ after, later.1.plain ≠ name.plain) → (name.plain, inner.toJson) ∈ fields
  length_eq_iff : fields.length = table.size ↔ Ident.Unspelled table.keys
  eq_of_unspelled : Ident.Unspelled table.keys →
    fields = table.entries.map fun entry => (entry.1.plain, entry.2.toJson)

private theorem merged_toJson (table : Table Ident Datum) :
    Merged table (Table.ofPairs (plainEntries table)).entries := by
  constructor
  case nodup => exact Table.nodup_keys _
  case names =>
    rw [← map_fst_plainEntries, ← Table.keys_ofPairs, Table.keys]
  case newest =>
    intro before name inner after listed newest
    rw [plainEntries, listed, List.map_append, List.map_cons]
    apply Table.mem_entries_of_last
    intro later member
    obtain ⟨entry, held, rfl⟩ := List.mem_map.mp member
    exact newest entry held
  case length_eq_iff =>
    have sizes : table.size = (plainEntries table).length := by
      rw [plainEntries, List.length_map, Table.size]
    rw [← nodup_plainEntries_iff, ← Table.size_ofPairs_eq_iff, sizes, Table.size]
  case eq_of_unspelled =>
    intro unspelled
    exact Table.entries_ofPairs _ ((nodup_plainEntries_iff table).mpr unspelled)

/-- The JSON value of a value made of plain values, lists, tuples and mappings from names keeps all of it
if and only if no key of any mapping in it is a text that spells another key of the same mapping. Any
mapping from names becomes an object in which keys with one plain text share an entry. -/
theorem toJson_keeps_entries {value : Datum} (named : value.Named) :
    (value.KeptBy value.toJson ↔
      ∀ table, (ofTable table).Within value → Ident.Unspelled table.keys) ∧
    ∀ table, ∃ fields, (ofTable table).toJson = .object fields ∧ Merged table fields := by
  refine ⟨⟨?_, named.keptBy⟩, fun table => ⟨_, toJson_ofTable table, merged_toJson table⟩⟩
  intro kept table within
  -- Nothing with two entries of one name keeps a mapping, so the place of the mapping is enough.
  obtain ⟨inner, kept⟩ := within.exists_keptBy kept
  exact kept.unspelled

def arrows : Table Ident Datum :=
  .ofPairs [(.tuple [.int 0, .int 1], .text "Up"), (.blank, .blank)]

def outcome : Table Ident Datum :=
  .ofPairs [(.text "policy", ofTable arrows), (.text "iterations", .whole 3)]

/-- The blank name beside the text that spells it. -/
def namesakes : Table Ident Datum :=
  .ofPairs [(.blank, .text "stay"), (.text "None", .text "go")]

private theorem namesakes_named : (ofTable namesakes).Named := by
  refine .mapping fun entry listed => ?_
  rcases listed with _ | ⟨_, _ | ⟨_, ⟨⟩⟩⟩
  · exact .text
  · exact .text

private theorem outcome_named : (ofTable outcome).Named := by
  refine .mapping fun entry listed => ?_
  rcases listed with _ | ⟨_, _ | ⟨_, ⟨⟩⟩⟩
  · refine .mapping fun inner held => ?_
    rcases held with _ | ⟨_, _ | ⟨_, ⟨⟩⟩⟩
    · exact .text
    · exact .blank
  · exact .whole

private theorem outcome_unspelled (table : Table Ident Datum)
    (within : (ofTable table).Within (ofTable outcome)) : Ident.Unspelled table.keys := by
  rcases within_ofTable_iff.mp within with same | ⟨entry, listed, within⟩
  · rw [ofTable_inj.mp same]
    decide +kernel
  · rcases listed with _ | ⟨_, _ | ⟨_, ⟨⟩⟩⟩
    · rcases within_ofTable_iff.mp within with same | ⟨inner, held, within⟩
      · rw [ofTable_inj.mp same]
        decide +kernel
      · rcases held with _ | ⟨_, _ | ⟨_, ⟨⟩⟩⟩
        · cases within
        · cases within
    · cases within

theorem toJson_keeps_entries_outcome :
    ((ofTable outcome).Named ∧ (ofTable outcome).KeptBy (ofTable outcome).toJson) ∧
      (ofTable namesakes).Named ∧ ¬ (ofTable namesakes).KeptBy (ofTable namesakes).toJson := by
  have kept := (toJson_keeps_entries outcome_named).1.mpr outcome_unspelled
  refine ⟨⟨outcome_named, kept⟩, namesakes_named, fun claimed => ?_⟩
  have unspelled := (toJson_keeps_entries namesakes_named).1.mp claimed namesakes .here
  exact absurd unspelled (by decide +kernel)

/-- Not every mapping becomes an object of as many entries. -/
theorem toJson_merges_namesakes : ¬ ∀ value : Datum, value.Named →
    ∀ table, (ofTable table).Within value →
      ∃ fields, (ofTable table).toJson = .object fields ∧ fields.length = table.size := by
  intro claimed
  obtain ⟨fields, json, whole⟩ := claimed _ namesakes_named namesakes .here
  rw [toJson_ofTable] at json
  cases json
  have unspelled := (merged_toJson namesakes).length_eq_iff.mp whole
  exact absurd unspelled (by decide +kernel)

end Datum

end MarkovDecision
