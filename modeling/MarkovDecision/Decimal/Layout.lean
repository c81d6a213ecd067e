import MarkovDecision.Decimal.Binary

/-!
# Writing digits

A positive decimal is a row of digits, the first one before the point, and a power of ten. It is
written with the point in its place or in scientific form; an exponent has a sign and at least two
digits.
-/

set_option autoImplicit false

namespace MarkovDecision.Decimal

/-- The decimal `d.ddd * 10 ^ power`, where `digits` lists all the `d`. -/
structure Digits where
  digits : List Char
  power : Int

namespace Digits

/-- The decimal `number * 10 ^ lowest`. -/
def ofNat (number : Nat) (lowest : Int) : Digits :=
  let digits := Nat.toDigits 10 number
  ⟨digits, lowest + (digits.length : Int) - 1⟩

/-- Leave out zeros at the end; one digit stays. -/
def trim (decimal : Digits) : Digits :=
  match decimal.digits with
  | [] => decimal
  | first :: rest => ⟨first :: (rest.reverse.dropWhile (· == '0')).reverse, decimal.power⟩

/-- The digits before the point and those after it. -/
def split (decimal : Digits) : List Char × List Char :=
  match decimal.power with
  | .ofNat power =>
    let whole := decimal.digits.take (power + 1)
    (whole ++ List.replicate (power + 1 - whole.length) '0', decimal.digits.drop (power + 1))
  | .negSucc power => (['0'], List.replicate power '0' ++ decimal.digits)

/-- The exponent of the scientific form: `e`, the sign and at least two digits. -/
def exponentText (power : Int) : List Char :=
  'e' :: (if power < 0 then '-' else '+') :: digitsPadded 2 power.natAbs

/-- The scientific form; a single digit is followed by no point. -/
def scientific (decimal : Digits) : List Char :=
  match decimal.digits with
  | [] => []
  | [first] => first :: exponentText decimal.power
  | first :: rest => first :: '.' :: (rest ++ exponentText decimal.power)

/-- The positional form, without a point if nothing follows it. -/
def positional (decimal : Digits) : List Char :=
  match decimal.split with
  | (whole, []) => whole
  | (whole, fraction) => whole ++ '.' :: fraction

end Digits

/-- The sign of a written number: nothing or a plus before a positive one. -/
def signText (negative explicitPlus : Bool) : List Char :=
  if negative then ['-'] else if explicitPlus then ['+'] else []

end MarkovDecision.Decimal
