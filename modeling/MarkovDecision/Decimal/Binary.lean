/-!
# The exact value of a double

A double is not a number, infinite, or `mantissa * 2 ^ exponent` with a sign. All decimal texts are
computed from that exact value with natural numbers, so none of them depends on rounded arithmetic.
-/

set_option autoImplicit false

namespace MarkovDecision.Decimal

/-- What a double stands for. Zero keeps its sign. -/
inductive Reading where
  | notANumber
  | infinite (negative : Bool)
  | finite (negative : Bool) (mantissa : Nat) (exponent : Int)

/-- Read the sign, exponent and fraction fields of a double. -/
def Reading.ofBits (bits : UInt64) : Reading :=
  let word := bits.toNat
  let negative := word / Nat.pow 2 63 == 1
  let biased : Nat := word / Nat.pow 2 52 % Nat.pow 2 11
  let fraction : Nat := word % Nat.pow 2 52
  if biased = 2047 then
    if fraction = 0 then .infinite negative else .notANumber
  else if biased = 0 then .finite negative fraction (-1074)
  else .finite negative (Nat.pow 2 52 + fraction) ((biased : Int) - 1075)

/-- What the double `number` stands for. -/
def Reading.ofFloat (number : Float) : Reading := .ofBits number.toBits

/-- What a number of single precision stands for, from its sign, exponent and fraction fields. -/
def Reading.ofSingle (number : Float32) : Reading :=
  let word := number.toBits.toNat
  let negative := word / Nat.pow 2 31 == 1
  let biased : Nat := word / Nat.pow 2 23 % Nat.pow 2 8
  let fraction : Nat := word % Nat.pow 2 23
  if biased = 255 then
    if fraction = 0 then .infinite negative else .notANumber
  else if biased = 0 then .finite negative fraction (-149)
  else .finite negative (Nat.pow 2 23 + fraction) ((biased : Int) - 150)

/-- A nonnegative quotient of natural numbers. -/
structure Quotient where
  numerator : Nat
  denominator : Nat

namespace Quotient

/-- The value `mantissa * 2 ^ exponent`. -/
def ofBinary (mantissa : Nat) (exponent : Int) : Quotient :=
  match exponent with
  | .ofNat power => ⟨mantissa * Nat.pow 2 power, 1⟩
  | .negSucc power => ⟨mantissa, Nat.pow 2 (power + 1)⟩

def scaleTen (value : Quotient) (power : Int) : Quotient :=
  match power with
  | .ofNat places => ⟨value.numerator * Nat.pow 10 places, value.denominator⟩
  | .negSucc places => ⟨value.numerator, value.denominator * Nat.pow 10 (places + 1)⟩

/-- The nearest natural number; a half goes to the even neighbour. -/
def nearest (value : Quotient) : Nat :=
  let below := value.numerator / value.denominator
  let twice := 2 * (value.numerator % value.denominator)
  if twice < value.denominator then below
  else if value.denominator < twice then below + 1
  else if below % 2 = 0 then below else below + 1

/-- Whether `10 ^ power` is not above the value. -/
def reachesTen (value : Quotient) (power : Int) : Bool :=
  let scaled := value.scaleTen (-power)
  decide (scaled.denominator ≤ scaled.numerator)

/-- The power of ten of the leading digit of a positive value. The lengths in bits give it up to
two steps below, and the search takes those. -/
def leadingPower (value : Quotient) : Int :=
  let bits : Int := (Nat.log2 value.numerator : Int) - (Nat.log2 value.denominator : Int)
  let start := bits * 30103 / 100000 - 2
  let rec climb : Nat → Int → Int
    | 0, power => power
    | fuel + 1, power => if value.reachesTen (power + 1) then climb fuel (power + 1) else power
  climb 6 start

end Quotient

/-- The decimal digits of a natural number, most significant first, padded with zeros in front to
at least `width` digits. -/
def digitsPadded (width number : Nat) : List Char :=
  let digits := Nat.toDigits 10 number
  List.replicate (width - digits.length) '0' ++ digits

end MarkovDecision.Decimal
