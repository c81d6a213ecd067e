/-!
# Magnitudes

A magnitude is a nonnegative number `mantissa * 2 ^ exponent`. Products, quotients and sums are cut
to a number of leading bits, so their relative error is below one unit in the last of these bits.
Quantiles are computed with magnitudes, to far more bits than a double has.
-/

set_option autoImplicit false

namespace MarkovDecision.Statistics

/-- The number `mantissa * 2 ^ exponent`. -/
structure Magnitude where
  mantissa : Nat
  exponent : Int

namespace Magnitude

/-- The number one. -/
def one : Magnitude := ⟨1, 0⟩

/-- A natural number. -/
def ofNat (number : Nat) : Magnitude := ⟨number, 0⟩

/-- The power of two of the leading bit of a positive magnitude. -/
def leading (number : Magnitude) : Int := (number.mantissa.log2 : Int) + number.exponent

def cut (bits : Nat) (number : Magnitude) : Magnitude :=
  let length := number.mantissa.log2 + 1
  if length ≤ bits then number
  else ⟨number.mantissa >>> (length - bits), number.exponent + ((length - bits : Nat) : Int)⟩

def mul (bits : Nat) (left right : Magnitude) : Magnitude :=
  cut bits ⟨left.mantissa * right.mantissa, left.exponent + right.exponent⟩

/-- The quotient; the divisor is positive. -/
def div (bits : Nat) (left right : Magnitude) : Magnitude :=
  let shift := bits + 1 + right.mantissa.log2 - left.mantissa.log2
  cut bits ⟨(left.mantissa <<< shift) / right.mantissa,
    left.exponent - right.exponent - (shift : Int)⟩

/-- The sum. A summand too small to reach the leading bits is left out. -/
def add (bits : Nat) (left right : Magnitude) : Magnitude :=
  if left.mantissa = 0 then right
  else if right.mantissa = 0 then left
  else if left.leading + (bits : Int) + 2 < right.leading then right
  else if right.leading + (bits : Int) + 2 < left.leading then left
  else
    let lowest := min left.exponent right.exponent
    cut bits ⟨(left.mantissa <<< (left.exponent - lowest).toNat) +
      (right.mantissa <<< (right.exponent - lowest).toNat), lowest⟩

def complement (bits : Nat) (number : Magnitude) : Magnitude :=
  if number.mantissa = 0 then one
  else if number.leading < -((bits : Int) + 2) then one
  else
    match number.exponent with
    | .ofNat _ => ⟨0, 0⟩
    | .negSucc power => cut bits ⟨Nat.pow 2 (power + 1) - number.mantissa, .negSucc power⟩

/-- Whether the first magnitude is not above the second. -/
def atMost (left right : Magnitude) : Bool :=
  if left.mantissa = 0 then true
  else if right.mantissa = 0 then false
  else if left.leading < right.leading then true
  else if right.leading < left.leading then false
  else
    let lowest := min left.exponent right.exponent
    decide (left.mantissa <<< (left.exponent - lowest).toNat ≤
      right.mantissa <<< (right.exponent - lowest).toNat)

/-- A power, by repeated squaring. -/
def pow (bits : Nat) (base : Magnitude) (power : Nat) : Magnitude :=
  let rec squares : Nat → Nat → Magnitude → Magnitude → Magnitude
    | 0, _, _, product => product
    | fuel + 1, rest, square, product =>
      if rest = 0 then product
      else
        squares fuel (rest / 2) (mul bits square square)
          (if rest % 2 = 1 then mul bits product square else product)
  squares (power.log2 + 2) power base one

/-- A nonnegative double, exactly. -/
def ofFloat (number : Float) : Magnitude :=
  let word := number.toBits.toNat
  let biased : Nat := word / Nat.pow 2 52 % Nat.pow 2 11
  let fraction : Nat := word % Nat.pow 2 52
  if biased = 0 then ⟨fraction, -1074⟩ else ⟨Nat.pow 2 52 + fraction, (biased : Int) - 1075⟩

def toFloat (number : Magnitude) : Float :=
  let leading := cut 60 number
  Float.scaleB (UInt64.ofNat leading.mantissa).toFloat leading.exponent

def sqrtToFloat (number : Magnitude) : Float :=
  let leading := cut 60 number
  let even : Magnitude :=
    if leading.exponent % 2 = 0 then leading
    else ⟨2 * leading.mantissa, leading.exponent - 1⟩
  Float.scaleB (UInt64.ofNat even.mantissa).toFloat.sqrt (even.exponent / 2)

end Magnitude

end MarkovDecision.Statistics
