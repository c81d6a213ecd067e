import MarkovDecision.Decimal.Layout

/-!
# Rounded decimal texts

A double is rounded, from its exact value and with halves going to the even neighbour, to a number
of places after the point (`fixed`, `percent`) or to a number of significant digits (`general`).
A negative number keeps its sign even where it rounds to zero.
-/

set_option autoImplicit false

namespace MarkovDecision.Decimal

/-- The text of a number without a finite value. -/
def unboundedText (number : Reading) (explicitPlus : Bool) : String :=
  match number with
  | .notANumber => if explicitPlus then "+nan" else "nan"
  | .infinite negative => String.ofList (signText negative explicitPlus) ++ "inf"
  | .finite _ _ _ => ""

/-- The number rounded to `places` digits after the point. -/
def fixed (places : Nat) (number : Float) : String :=
  match Reading.ofFloat number with
  | .finite negative mantissa exponent =>
    let units := ((Quotient.ofBinary mantissa exponent).scaleTen places).nearest
    let digits := digitsPadded (places + 1) units
    let whole := digits.take (digits.length - places)
    let fraction := digits.drop (digits.length - places)
    let body := if fraction.isEmpty then whole else whole ++ '.' :: fraction
    String.ofList (signText negative false ++ body)
  | unbounded => unboundedText unbounded false

/-- A hundred times the number, rounded to `places` digits after the point, and a percent sign. -/
def percent (places : Nat) (number : Float) : String := fixed places (number * 100) ++ "%"

/-- The value rounded to `count` significant digits. -/
def significantDigits (count : Nat) (mantissa : Nat) (exponent : Int) : Digits :=
  let value := Quotient.ofBinary mantissa exponent
  let lowest := value.leadingPower - (count : Int) + 1
  .ofNat (value.scaleTen (-lowest)).nearest lowest

/-- The number rounded to `count` significant digits, without zeros at the end. It is written with
the point in its place if its power of ten is at least -4 and below `count`, else in scientific
form. -/
def general (count : Nat) (explicitPlus : Bool) (number : Float) : String :=
  match Reading.ofFloat number with
  | .finite negative mantissa exponent =>
    let sign := signText negative explicitPlus
    if mantissa = 0 then String.ofList (sign ++ ['0'])
    else
      let decimal := (significantDigits count mantissa exponent).trim
      if -4 ≤ decimal.power ∧ decimal.power < (count : Int) then
        String.ofList (sign ++ decimal.positional)
      else String.ofList (sign ++ decimal.scientific)
  | unbounded => unboundedText unbounded explicitPlus

end MarkovDecision.Decimal
