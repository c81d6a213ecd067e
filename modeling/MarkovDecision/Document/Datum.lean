import MarkovDecision.Decimal.Shortest
import MarkovDecision.Fault
import MarkovDecision.Ident.Written

/-!
# Values for documents

What a run leaves behind is written down from values that are richer than any file format: mappings
have keys of every kind, records carry the name of their kind, and a procedure is known by its
dotted path. This module holds those values, their written form, and the rule by which two of them
are the same key.
-/

set_option autoImplicit false

namespace MarkovDecision

/-- A kind of records: its name, and whether its records stay as they are once made, so that they
can be keys. -/
structure RecordKind where
  name : String
  fixed : Bool

/-- A value that a document can be made of. -/
inductive Datum where
  | blank
  | flag (value : Bool)
  | whole (value : Int)
  | real (value : Float)
  | single (value : Float32)
  | text (value : String)
  | list (items : List Datum)
  | tuple (items : List Datum)
  | mapping (entries : List (Datum × Datum))
  | group (items : List Datum)
  | record (kind : RecordKind) (fields : List (String × Datum))
  | procedure (path : String)
  deriving Inhabited

namespace Datum

/-! ## Names as values -/

mutual

def ofIdent : Ident → Datum
  | .blank => .blank
  | .int value => .whole value
  | .text value => .text value
  | .tuple items => .tuple (ofIdents items)

def ofIdents : List Ident → List Datum
  | [] => []
  | name :: rest => ofIdent name :: ofIdents rest

end

/-! ## Written forms -/

mutual

/-- The written form of a value, as characters. Texts in it are quoted. -/
def writtenChars : Datum → List Char
  | .blank => ['N', 'o', 'n', 'e']
  | .flag value => (if value then "True" else "False").toList
  | .whole value => (toString value).toList
  | .real value => (Decimal.shortest value).toList
  | .single value => (Decimal.shortestSingle value).toList
  | .text value => Text.quotedChars value.toList
  | .list items => '[' :: (writtenItems items ++ [']'])
  | .tuple items =>
    '(' :: (writtenItems items ++ (if items.length = 1 then [',', ')'] else [')']))
  | .mapping entries => '\x7b' :: (writtenEntries entries ++ ['\x7d'])
  | .group items =>
    "frozenset(".toList ++
      (if items.isEmpty then [')'] else '\x7b' :: (writtenItems items ++ ['\x7d', ')']))
  | .record kind fields => kind.name.toList ++ '(' :: (writtenFields fields ++ [')'])
  | .procedure path => path.toList

/-- Values one after the other, with commas between them. -/
def writtenItems : List Datum → List Char
  | [] => []
  | item :: rest =>
    writtenChars item ++ (if rest.isEmpty then [] else ',' :: ' ' :: writtenItems rest)

/-- The entries of a mapping, with commas between them. -/
def writtenEntries : List (Datum × Datum) → List Char
  | [] => []
  | (key, value) :: rest =>
    writtenChars key ++ ':' :: ' ' :: (writtenChars value ++
      (if rest.isEmpty then [] else ',' :: ' ' :: writtenEntries rest))

/-- The fields of a record, with commas between them. -/
def writtenFields : List (String × Datum) → List Char
  | [] => []
  | (name, value) :: rest =>
    name.toList ++ '=' :: (writtenChars value ++
      (if rest.isEmpty then [] else ',' :: ' ' :: writtenFields rest))

end

def written (value : Datum) : String := String.ofList value.writtenChars

/-- The plain form of a value: a text stands as it is, all other values are written. -/
def plain : Datum → String
  | .text value => value
  | value => value.written

/-! ## Keys -/

mutual

/-- Whether a value can be a key: nothing in it may change later. -/
def canBeKey : Datum → Bool
  | .list _ | .mapping _ => false
  | .tuple items | .group items => canAllBeKeys items
  | .record kind fields => kind.fixed && canFieldsBeKeys fields
  | _ => true

def canAllBeKeys : List Datum → Bool
  | [] => true
  | item :: rest => canBeKey item && canAllBeKeys rest

def canFieldsBeKeys : List (String × Datum) → Bool
  | [] => true
  | (_, value) :: rest => canBeKey value && canFieldsBeKeys rest

end

/-- The integer that a double is equal to, if it is one. -/
def wholeOfFloat? (number : Float) : Option Int :=
  match Decimal.Reading.ofFloat number with
  | .finite negative mantissa exponent =>
    let value := Decimal.Quotient.ofBinary mantissa exponent
    if value.numerator % value.denominator = 0 then
      let size : Int := (value.numerator / value.denominator : Nat)
      some (if negative then -size else size)
    else none
  | _ => none

/-- A value that counts as a number: an integer, or a double that is none. -/
def number? : Datum → Option (Int ⊕ Float)
  | .flag value => some (.inl (if value then 1 else 0))
  | .whole value => some (.inl value)
  | .real value => some ((wholeOfFloat? value).elim (.inr value) .inl)
  | .single value => some ((wholeOfFloat? value.toFloat).elim (.inr value.toFloat) .inl)
  | _ => none

/-- Whether two values are equal as numbers. Undefined numbers equal nothing. -/
def sameNumber (left right : Datum) : Bool :=
  match left.number?, right.number? with
  | some (.inl first), some (.inl second) => first == second
  | some (.inr first), some (.inr second) => first == second
  | _, _ => false

mutual

/-- Whether two values are the same key. Numbers are compared by value, whatever their kind. -/
def sameKey : Datum → Datum → Bool
  | .blank, .blank => true
  | .text left, .text right => left == right
  | .procedure left, .procedure right => left == right
  | .tuple left, .tuple right => sameKeys left right
  | .group left, .group right => sameKeys left right
  | .record left lefts, .record right rights =>
    left.name == right.name && sameFields lefts rights
  | left, right => sameNumber left right

def sameKeys : List Datum → List Datum → Bool
  | [], [] => true
  | left :: lefts, right :: rights => sameKey left right && sameKeys lefts rights
  | _, _ => false

/-- Whether the fields of two records agree place by place. -/
def sameFields : List (String × Datum) → List (String × Datum) → Bool
  | [], [] => true
  | (_, left) :: lefts, (_, right) :: rights => sameKey left right && sameFields lefts rights
  | _, _ => false

end

/-- Put a value under a key; a key that is there already keeps its place. -/
def putEntry (key value : Datum) : List (Datum × Datum) → List (Datum × Datum)
  | [] => [(key, value)]
  | (other, before) :: rest =>
    if sameKey other key then (other, value) :: rest
    else (other, before) :: putEntry key value rest

/-- The mapping of pairs. A repeated key keeps its first place and its last value. -/
def ofPairs {K : Type} (pairs : List (Datum × Datum)) : Except (Fault K) Datum :=
  if canAllBeKeys (pairs.map Prod.fst) then
    .ok (.mapping (pairs.foldl (fun entries pair => putEntry pair.1 pair.2 entries) []))
  else .error .wrongType

def ofMembers {K : Type} (items : List Datum) : Except (Fault K) Datum :=
  if canAllBeKeys items then .ok (.group items) else .error .wrongType

end Datum

end MarkovDecision
