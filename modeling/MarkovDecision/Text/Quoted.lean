import MarkovDecision.Text.Printable

/-!
# Quoted text

A text is quoted by single quotes, or by double quotes if it holds a single quote and no double
one. Inside, the backslash, the quote in use and everything unprintable are escaped.
-/

set_option autoImplicit false

namespace MarkovDecision.Text

/-- The lower-case hexadecimal digits of a number, padded with zeros to `width`. -/
def hexPadded (width number : Nat) : List Char :=
  let digits := Nat.toDigits 16 number
  List.replicate (width - digits.length) '0' ++ digits

def quoteFor (chars : List Char) : Char :=
  if chars.contains '\'' && !chars.contains '"' then '"' else '\''

/-- A character between quotes. -/
def escaped (quote char : Char) : List Char :=
  if char == quote || char == '\\' then ['\\', char]
  else if char == '\n' then ['\\', 'n']
  else if char == '\r' then ['\\', 'r']
  else if char == '\t' then ['\\', 't']
  else if isPrintable char then [char]
  else if char.toNat < 256 then '\\' :: 'x' :: hexPadded 2 char.toNat
  else if char.toNat < 65536 then '\\' :: 'u' :: hexPadded 4 char.toNat
  else '\\' :: 'U' :: hexPadded 8 char.toNat

/-- A text between quotes. -/
def quotedChars (chars : List Char) : List Char :=
  let quote := quoteFor chars
  quote :: (chars.flatMap (escaped quote) ++ [quote])

/-- A text between quotes. -/
def quoted (text : String) : String := String.ofList (quotedChars text.toList)

end MarkovDecision.Text
