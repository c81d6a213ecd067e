import MarkovDecision.Decimal.Layout

/-!
# The shortest decimal that reads back

A finite number is written with the fewest digits from which rounding to nearest, in its own
precision, gives the same number; of several such decimals with that many digits the nearest one is
taken. Powers of ten from -4 to 15 are written with the point in its place, all others in scientific
form.
-/

set_option autoImplicit false

namespace MarkovDecision.Decimal

/-- A binary precision, by the numbers at which its steps change: the smallest mantissa of full
length, and the lowest exponent. -/
structure Precision where
  fullMantissa : Nat
  lowestExponent : Int

def Precision.double : Precision := ⟨Nat.pow 2 52, -1074⟩

/-- Single precision. -/
def Precision.single : Precision := ⟨Nat.pow 2 23, -149⟩

/-- The numbers that round to one number of a precision: an interval around `value` whose ends
belong to it or not, over one denominator. -/
structure Rounding where
  low : Nat
  value : Nat
  high : Nat
  denominator : Nat
  endsIncluded : Bool

/-- The numbers that round to `mantissa * 2 ^ exponent`: half a step up, and half a step down,
which is a quarter of the upper step where the exponent changes. The ends round to the even
mantissa. -/
def Rounding.ofBinary (precision : Precision) (mantissa : Nat) (exponent : Int) : Rounding :=
  let down :=
    if mantissa = precision.fullMantissa ∧ exponent ≠ precision.lowestExponent then 1 else 2
  let included := mantissa % 2 == 0
  match exponent - 2 with
  | .ofNat power =>
    ⟨(4 * mantissa - down) * Nat.pow 2 power, 4 * mantissa * Nat.pow 2 power,
      (4 * mantissa + 2) * Nat.pow 2 power, 1, included⟩
  | .negSucc power =>
    ⟨4 * mantissa - down, 4 * mantissa, 4 * mantissa + 2, Nat.pow 2 (power + 1), included⟩

/-- The multiple of `10 ^ lowest` nearest to the value among those that read back, if any does.
Only the two neighbours of the value can be nearest. -/
def Rounding.onGrid? (rounding : Rounding) (lowest : Int) : Option Nat :=
  let (unit, scale) : Nat × Nat :=
    match lowest with
    | .ofNat power => (rounding.denominator * Nat.pow 10 power, 1)
    | .negSucc power => (rounding.denominator, Nat.pow 10 (power + 1))
  let value := rounding.value * scale
  let below := value / unit
  let admits (inner outer : Nat) : Bool :=
    decide (inner < outer) || (rounding.endsIncluded && inner == outer)
  let belowIn := admits (rounding.low * scale) (below * unit)
  let aboveIn := admits ((below + 1) * unit) (rounding.high * scale)
  match belowIn, aboveIn with
  | false, false => none
  | true, false => some below
  | false, true => some (below + 1)
  | true, true =>
    let fromBelow := value - below * unit
    let fromAbove := (below + 1) * unit - value
    if fromBelow < fromAbove then some below
    else if fromAbove < fromBelow then some (below + 1)
    else if below % 2 = 0 then some below else some (below + 1)

/-- The shortest decimal that reads back as the positive number `mantissa * 2 ^ exponent`. -/
def shortestDigits (precision : Precision) (mantissa : Nat) (exponent : Int) : Digits :=
  let rounding := Rounding.ofBinary precision mantissa exponent
  let leading := (Quotient.mk rounding.value rounding.denominator).leadingPower
  let rec search : Nat → Int → Digits
    | 0, lowest => .ofNat (rounding.value / rounding.denominator) lowest
    | fuel + 1, lowest =>
      match rounding.onGrid? lowest with
      | some number => .ofNat number lowest
      | none => search fuel (lowest - 1)
  (search 18 leading).trim

/-- The positional form of a float, which always shows a digit after the point. -/
def Digits.pointed (decimal : Digits) : List Char :=
  match decimal.split with
  | (whole, []) => whole ++ ['.', '0']
  | (whole, fraction) => whole ++ '.' :: fraction

/-- The shortest text of a number of some precision, with the given texts for infinity and for no
number. -/
def Reading.shortestText (precision : Precision) (infinity noNumber : String) : Reading → String
  | .notANumber => noNumber
  | .infinite negative => if negative then "-" ++ infinity else infinity
  | .finite negative mantissa exponent =>
    let sign := signText negative false
    if mantissa = 0 then String.ofList (sign ++ ['0', '.', '0'])
    else
      let decimal := shortestDigits precision mantissa exponent
      if -4 ≤ decimal.power ∧ decimal.power < 16 then String.ofList (sign ++ decimal.pointed)
      else String.ofList (sign ++ decimal.scientific)

/-- The shortest text of a double, with the given texts for infinity and for no number. -/
def shortestWith (infinity noNumber : String) (number : Float) : String :=
  (Reading.ofFloat number).shortestText .double infinity noNumber

def shortest (number : Float) : String := shortestWith "inf" "nan" number

/-- The shortest text of a number of single precision in messages and labels. -/
def shortestSingle (number : Float32) : String :=
  (Reading.ofSingle number).shortestText .single "inf" "nan"

end MarkovDecision.Decimal
