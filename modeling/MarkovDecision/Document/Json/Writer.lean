import MarkovDecision.Document.Json
import MarkovDecision.Text.Align

/-!
# JSON texts

A JSON value is written with ASCII characters alone: over several lines, indented by two blanks for
each level of nesting, or on one line without blanks. Numbers are written so that they read back,
and the three values that are no finite number are written as words.
-/

set_option autoImplicit false

namespace MarkovDecision.Json

/-! ## Texts and numbers -/

/-- A code unit of 16 bits as an escape. -/
def unitEscape (unit : Nat) : List Char := '\\' :: 'u' :: Text.hexPadded 4 unit

/-- A character inside quotes. Characters outside ASCII are escaped by their units of 16 bits. -/
def escaped (char : Char) : List Char :=
  let code := char.toNat
  if char = '"' || char = '\\' then ['\\', char]
  else if char = '\n' then ['\\', 'n']
  else if char = '\r' then ['\\', 'r']
  else if char = '\t' then ['\\', 't']
  else if code = 8 then ['\\', 'b']
  else if code = 12 then ['\\', 'f']
  else if 32 ≤ code ∧ code ≤ 126 then [char]
  else if code < 65536 then unitEscape code
  else unitEscape (55296 + (code - 65536) / 1024) ++ unitEscape (56320 + (code - 65536) % 1024)

/-- A text between quotes. -/
def quotedText (text : String) : String :=
  String.ofList ('"' :: (text.toList.flatMap escaped ++ ['"']))

/-- A number. -/
def numberText (number : Float) : String := Decimal.shortestWith "Infinity" "NaN" number

/-! ## Over several lines -/

/-- A line break followed by the blanks of a depth of nesting. -/
def lineBreak (depth : Nat) : String := "\n" ++ Text.repeated ' ' (2 * depth)

/-- The parts of a list or an object between their brackets, each on a line of its own. -/
def bracketed (opening closing : String) (depth : Nat) (parts : List String) : String :=
  if parts.isEmpty then opening ++ closing
  else
    opening ++ lineBreak (depth + 1) ++ String.intercalate ("," ++ lineBreak (depth + 1)) parts ++
      lineBreak depth ++ closing

mutual

/-- The text of a value that stands at a depth of nesting. -/
def textAt (depth : Nat) : Json → String
  | .null => "null"
  | .flag value => if value then "true" else "false"
  | .whole value => toString value
  | .real value => numberText value
  | .text value => quotedText value
  | .list items => bracketed "[" "]" depth (itemTexts (depth + 1) items)
  | .object fields => bracketed "\x7b" "\x7d" depth (fieldTexts (depth + 1) fields)

def itemTexts (depth : Nat) : List Json → List String
  | [] => []
  | item :: rest => textAt depth item :: itemTexts depth rest

def fieldTexts (depth : Nat) : List (String × Json) → List String
  | [] => []
  | (name, value) :: rest =>
    (quotedText name ++ ": " ++ textAt depth value) :: fieldTexts depth rest

end

def document (value : Json) : String := value.textAt 0

/-! ## On one line -/

mutual

/-- Add the text of a value on one line to the text `built` so far. -/
def lineOnto (built : String) : Json → String
  | .null => built ++ "null"
  | .flag value => built ++ (if value then "true" else "false")
  | .whole value => built ++ toString value
  | .real value => built ++ numberText value
  | .text value => built ++ quotedText value
  | .list items => itemsOnto (built ++ "[") items ++ "]"
  | .object fields => fieldsOnto (built ++ "\x7b") fields ++ "\x7d"

def itemsOnto (built : String) : List Json → String
  | [] => built
  | [item] => lineOnto built item
  | item :: next :: rest => itemsOnto (lineOnto built item ++ ",") (next :: rest)

def fieldsOnto (built : String) : List (String × Json) → String
  | [] => built
  | [(name, value)] => lineOnto (built ++ quotedText name ++ ":") value
  | (name, value) :: next :: rest =>
    fieldsOnto (lineOnto (built ++ quotedText name ++ ":") value ++ ",") (next :: rest)

end

def line (value : Json) : String := value.lineOnto ""

end MarkovDecision.Json
