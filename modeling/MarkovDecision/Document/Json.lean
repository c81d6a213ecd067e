import MarkovDecision.Document.Datum
import MarkovDecision.Table

/-!
# JSON values

A value becomes JSON by giving up what JSON has no room for: tuples become lists, keys become their
plain texts, records become objects of their fields, and procedures and groups become texts. Of keys
with one text the first gives the place and the last the value.
-/

set_option autoImplicit false

namespace MarkovDecision

/-- A JSON value. Objects keep the order of their fields. -/
inductive Json where
  | null
  | flag (value : Bool)
  | whole (value : Int)
  | real (value : Float)
  | text (value : String)
  | list (items : List Json)
  | object (fields : List (String × Json))
  deriving Inhabited

namespace Datum

mutual

def toJson : Datum → Json
  | .blank => .null
  | .flag value => .flag value
  | .whole value => .whole value
  | .real value => .real value
  | .single value => .real value.toFloat
  | .text value => .text value
  | .list items => .list (toJsonItems items)
  | .tuple items => .list (toJsonItems items)
  | .mapping entries => .object (Table.ofPairs (toJsonEntries entries)).entries
  | .group items => .text (Datum.group items).written
  | .record _ fields => .object (toJsonFields fields)
  | .procedure path => .text path

def toJsonItems : List Datum → List Json
  | [] => []
  | item :: rest => toJson item :: toJsonItems rest

/-- The entries of a mapping, with texts for keys. -/
def toJsonEntries : List (Datum × Datum) → List (String × Json)
  | [] => []
  | (key, value) :: rest => (key.plain, toJson value) :: toJsonEntries rest

def toJsonFields : List (String × Datum) → List (String × Json)
  | [] => []
  | (name, value) :: rest => (name, toJson value) :: toJsonFields rest

end

end Datum

end MarkovDecision
