import MarkovDecision.Document.Json

/-!
# Reading JSON

A JSON text is read from its characters. A number with a point or an exponent is read as the nearest
double, any other number as an integer. Two steps take at least one character, so that twice the
length of the text bounds the number of steps.
-/

set_option autoImplicit false

namespace MarkovDecision.Json

/-- A reader: what it has read from the front of the characters, and the rest. -/
abbrev Reader (Answer : Type) := List Char → Option (Answer × List Char)

/-- The rest after blanks and line breaks. -/
def skipBlanks (chars : List Char) : List Char :=
  chars.dropWhile fun char => char = ' ' || char = '\n' || char = '\r' || char = '\t'

/-! ## Texts -/

def hexValue? (char : Char) : Option Nat :=
  if '0' ≤ char ∧ char ≤ '9' then some (char.toNat - 48)
  else if 'a' ≤ char ∧ char ≤ 'f' then some (char.toNat - 87)
  else if 'A' ≤ char ∧ char ≤ 'F' then some (char.toNat - 55)
  else none

/-- A unit of 16 bits in four hexadecimal digits. -/
def readUnit : Reader Nat
  | first :: second :: third :: fourth :: rest => do
    let digits ← [first, second, third, fourth].mapM hexValue?
    return (digits.foldl (fun value digit => value * 16 + digit) 0, rest)
  | _ => none

/-- A character given by its units: a pair of surrogates, or a single unit. -/
def readEscapedUnits (chars : List Char) : Option (Char × List Char) := do
  let (unit, rest) ← readUnit chars
  match rest with
  | '\\' :: 'u' :: more =>
    if 0xD800 ≤ unit ∧ unit < 0xDC00 then
      let (low, rest) ← readUnit more
      return (Char.ofNat (0x10000 + (unit - 0xD800) * 1024 + (low - 0xDC00)), rest)
    else return (Char.ofNat unit, rest)
  | _ => return (Char.ofNat unit, rest)

/-- The character that a single letter after a backslash stands for. -/
def unescaped (letter : Char) : Char :=
  if letter = 'n' then '\n'
  else if letter = 't' then '\t'
  else if letter = 'r' then '\r'
  else if letter = 'b' then Char.ofNat 8
  else if letter = 'f' then Char.ofNat 12
  else letter

/-- The rest of a text up to its closing quote. `before` lists its characters so far, latest
first. -/
def readText : (steps : Nat) → (before : List Char) → Reader String
  | 0, _, _ => none
  | steps + 1, before, chars =>
    match chars with
    | [] => none
    | '"' :: rest => some (String.ofList before.reverse, rest)
    | '\\' :: 'u' :: rest => do
      let (char, rest) ← readEscapedUnits rest
      readText steps (char :: before) rest
    | '\\' :: letter :: rest => readText steps (unescaped letter :: before) rest
    | char :: rest => readText steps (char :: before) rest

/-! ## Numbers -/

def digitsValue (digits : List Char) : Nat :=
  digits.foldl (fun value digit => value * 10 + (digit.toNat - 48)) 0

def readDigits (chars : List Char) : List Char × List Char :=
  (chars.takeWhile Char.isDigit, chars.dropWhile Char.isDigit)

/-- The digits after a point, if there is one. -/
def readFraction : List Char → Option (List Char) × List Char
  | '.' :: rest => (some (readDigits rest).1, (readDigits rest).2)
  | chars => (none, chars)

/-- A power of ten, if there is one. -/
def readPower : List Char → Option Int × List Char
  | [] => (none, [])
  | mark :: rest =>
    if mark = 'e' ∨ mark = 'E' then
      match rest with
      | '-' :: more => (some (-(digitsValue (readDigits more).1 : Int)), (readDigits more).2)
      | '+' :: more => (some (digitsValue (readDigits more).1), (readDigits more).2)
      | more => (some (digitsValue (readDigits more).1), (readDigits more).2)
    else (none, mark :: rest)

/-- The nearest double to a decimal. -/
def nearestFloat (significand : Nat) (power : Int) : Float :=
  OfScientific.ofScientific significand (decide (power < 0)) power.natAbs

/-- A number without its sign. -/
def readMagnitude (negative : Bool) (chars : List Char) : Option (Json × List Char) :=
  let (leading, rest) := readDigits chars
  let (fraction, rest) := readFraction rest
  let (power, rest) := readPower rest
  if leading.isEmpty then none
  else if fraction.isNone && power.isNone then
    let value : Int := digitsValue leading
    some (.whole (if negative then -value else value), rest)
  else
    let decimals := fraction.getD []
    let value := nearestFloat (digitsValue (leading ++ decimals)) (power.getD 0 - decimals.length)
    some (.real (if negative then -value else value), rest)

/-- A number. -/
def readNumber : Reader Json
  | '-' :: rest => readMagnitude true rest
  | chars => readMagnitude false chars

/-! ## Values -/

def readWord (word : String) (value : Json) (chars : List Char) : Option (Json × List Char) :=
  if word.toList.isPrefixOf chars then some (value, chars.drop word.length) else none

mutual

/-- A value, with blanks allowed in front. -/
def readValue : (steps : Nat) → Reader Json
  | 0, _ => none
  | steps + 1, chars =>
    match skipBlanks chars with
    | '"' :: rest => (readText steps [] rest).map fun (chars, rest) => (.text chars, rest)
    | '[' :: rest =>
      match skipBlanks rest with
      | ']' :: rest => some (.list [], rest)
      | rest => readItems steps [] rest
    | '\x7b' :: rest =>
      match skipBlanks rest with
      | '\x7d' :: rest => some (.object [], rest)
      | rest => readFields steps [] rest
    | 't' :: rest => readWord "rue" (.flag true) rest
    | 'f' :: rest => readWord "alse" (.flag false) rest
    | 'n' :: rest => readWord "ull" .null rest
    | rest => readNumber rest

def readItems : (steps : Nat) → (before : List Json) → Reader Json
  | 0, _, _ => none
  | steps + 1, before, chars => do
    let (item, rest) ← readValue steps chars
    match skipBlanks rest with
    | ',' :: rest => readItems steps (item :: before) rest
    | ']' :: rest => return (.list (item :: before).reverse, rest)
    | _ => none

def readFields : (steps : Nat) → (before : List (String × Json)) → Reader Json
  | 0, _, _ => none
  | steps + 1, before, chars => do
    let (name, rest) ← (match skipBlanks chars with
      | '"' :: rest => readText steps [] rest
      | _ => none)
    let (value, rest) ← (match skipBlanks rest with
      | ':' :: rest => readValue steps rest
      | _ => none)
    match skipBlanks rest with
    | ',' :: rest => readFields steps ((name, value) :: before) rest
    | '\x7d' :: rest => return (.object ((name, value) :: before).reverse, rest)
    | _ => none

end

/-- The value that a text holds, with nothing but blanks around it. -/
def read? (text : String) : Option Json :=
  match readValue (2 * text.length + 2) text.toList with
  | some (value, rest) => if (skipBlanks rest).isEmpty then some value else none
  | none => none

/-- The value of a field of an object; the last one if the name is repeated. -/
def field? (value : Json) (name : String) : Option Json :=
  match value with
  | .object fields => fields.reverse.lookup name
  | _ => none

end MarkovDecision.Json
