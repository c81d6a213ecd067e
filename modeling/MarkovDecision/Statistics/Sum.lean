import MarkovDecision.Scalar

/-!
# Sums by halves

A long list is added up by halves, a list of middle length by eight running totals side by side, and
a short one from left to right. With rounded numbers this loses far less than adding one by one;
with exact numbers it is the sum.
-/

set_option autoImplicit false

namespace MarkovDecision.Statistics

variable {K : Type} [Scalar K]

/-- Add the numbers to a total, from left to right. -/
def addTo (total : K) (numbers : List K) : K := numbers.foldl (· + ·) total

def plainSum : List K → K
  | [] => Scalar.zero
  | first :: rest => addTo first rest

def addLanes (totals numbers : List K) : List K := List.zipWith (· + ·) totals numbers

/-- The sum of eight totals, in pairs, and pairs of pairs. -/
def sumLanes : List K → K
  | [a, b, c, d, e, f, g, h] => ((a + b) + (c + d)) + ((e + f) + (g + h))
  | totals => plainSum totals

/-- Add blocks of eight to eight running totals, and what is left to their sum. -/
def sumBlocks (totals : List K) : (blocks : Nat) → List K → K
  | 0, rest => addTo (sumLanes totals) rest
  | blocks + 1, numbers => sumBlocks (addLanes totals (numbers.take 8)) blocks (numbers.drop 8)

/-- The sum by halves: a list of more than 128 numbers is split near its middle, at a multiple of
eight. -/
def halvedSum (numbers : List K) : K :=
  if numbers.length < 8 then plainSum numbers
  else if numbers.length ≤ 128 then
    sumBlocks (numbers.take 8) (numbers.length / 8 - 1) (numbers.drop 8)
  else
    let middle := numbers.length / 2 / 8 * 8
    halvedSum (numbers.take middle) + halvedSum (numbers.drop middle)
termination_by numbers.length
decreasing_by
  · simp only [List.length_take]
    omega
  · simp only [List.length_drop]
    omega

def sum (numbers : List K) : K := Scalar.zero + halvedSum numbers

def mean (numbers : List K) : K := sum numbers / Scalar.ofCount numbers.length

def squaredDeviations (numbers : List K) : K :=
  let middle := mean numbers
  sum (numbers.map fun number => (number - middle) * (number - middle))

end MarkovDecision.Statistics
