/-!
# Spreading a seed

A seed of any size is cut into words of 32 bits, which are hashed into a pool of four words so that
every bit of the seed reaches every word of the pool. From the pool come the words that start a
generator. All arithmetic is modulo `2 ^ 32`.
-/

set_option autoImplicit false

namespace MarkovDecision.Random

/-- The words of a seed, least significant first. Zero has one word. -/
def seedWords (seed : Nat) : List UInt32 :=
  let rec digits : Nat → Nat → List UInt32
    | 0, _ => []
    | fuel + 1, rest =>
      if rest < Nat.pow 2 32 then [UInt32.ofNat rest]
      else UInt32.ofNat (rest % Nat.pow 2 32) :: digits fuel (rest / Nat.pow 2 32)
  digits (seed.log2 / 32 + 1) seed

/-- Fold the upper half of a word onto its lower half. -/
def foldHalves (word : UInt32) : UInt32 := word ^^^ (word >>> 16)

/-- A multiplicative hash whose constant changes from one use to the next. -/
structure HashState where
  constant : UInt32
  multiplier : UInt32

def HashState.hash (state : HashState) (word : UInt32) : UInt32 × HashState :=
  let next := state.constant * state.multiplier
  (foldHalves ((word ^^^ state.constant) * next), ⟨next, state.multiplier⟩)

def combine (left right : UInt32) : UInt32 :=
  foldHalves (0xca01f9dd * left - 0x4973f715 * right)

/-- Hash words one after another. -/
def hashAll : List UInt32 → HashState → List UInt32 × HashState
  | [], state => ([], state)
  | word :: rest, state =>
    let (hashed, next) := state.hash word
    let (others, final) := hashAll rest next
    (hashed :: others, final)

/-- Combine a word into the places of a pool, hashing it anew for each place; the place `skipped`
is left alone. -/
def spread (word : UInt32) (skipped : Option Nat) :
    List UInt32 → Nat → HashState → List UInt32 × HashState
  | [], _, state => ([], state)
  | target :: rest, place, state =>
    if skipped = some place then
      let (others, final) := spread word skipped rest (place + 1) state
      (target :: others, final)
    else
      let (hashed, next) := state.hash word
      let (others, final) := spread word skipped rest (place + 1) next
      (combine target hashed :: others, final)

def stir : List Nat → List UInt32 × HashState → List UInt32 × HashState
  | [], pool => pool
  | place :: rest, (words, state) =>
    stir rest (spread (words.getD place 0) (some place) words 0 state)

/-- Combine the words that are left of a seed into every place of a pool. -/
def absorb : List UInt32 → List UInt32 × HashState → List UInt32 × HashState
  | [], pool => pool
  | word :: rest, (words, state) => absorb rest (spread word none words 0 state)

def pool (seed : Nat) : List UInt32 :=
  let words := seedWords seed
  let first := (words ++ [0, 0, 0, 0]).take 4
  let hashed := hashAll first ⟨0x43b0d7e5, 0x931e8875⟩
  (absorb (words.drop 4) (stir [0, 1, 2, 3] hashed)).1

/-- The eight words that start a generator: the pool twice over, hashed once more. -/
def startWords (seed : Nat) : List UInt32 :=
  let words := pool seed
  (hashAll (words ++ words) ⟨0x8b51f9dd, 0x58f38ded⟩).1

end MarkovDecision.Random
