import MarkovDecision.Fault
import MarkovDecision.Random.Seed
import MarkovDecision.Random.Source

/-!
# A seeded generator

A linear congruential generator with a state of 128 bits, whose output is the exclusive-or of its
halves rotated by its top bits. Words of 64 bits give uniforms in `[0, 1)`; their halves give
unbiased positions below a bound.
-/

set_option autoImplicit false

namespace MarkovDecision

/-- A generator: its state, its odd increment, and the half of a word that waits to be used. -/
structure Generator where
  state : Nat
  increment : Nat
  saved : Option Nat

namespace Generator

def multiplier : Nat := 47026247687942121848144207491837523525

/-- One step of the congruence modulo `2 ^ 128`. -/
def step (increment state : Nat) : Nat := (state * multiplier + increment) % Nat.pow 2 128

/-- A number from words of 32 bits, least significant first. -/
def ofWords : List UInt32 → Nat
  | [] => 0
  | word :: rest => word.toNat + Nat.pow 2 32 * ofWords rest

/-- The generator of a natural seed. Of the start words the first four give the state and the others
the increment, each the upper half first. -/
def ofNatSeed (seed : Nat) : Generator :=
  let words := Random.startWords seed
  let wide (offset : Nat) : Nat :=
    Nat.pow 2 64 * ofWords ((words.drop offset).take 2) + ofWords ((words.drop (offset + 2)).take 2)
  let increment := (2 * wide 4 + 1) % Nat.pow 2 128
  ⟨step increment (increment + wide 0), increment, none⟩

/-- The generator of a seed. A negative seed is refused, and without a seed a fixed one is taken. -/
def ofSeed {K : Type} : Option Int → Except (Fault K) Generator
  | none => .ok (ofNatSeed 0)
  | some (.ofNat seed) => .ok (ofNatSeed seed)
  | some (.negSucc _) => .error (.badParameter .negativeSeed)

/-- The generator for the start state at one place of a list: its seed is the base seed plus the
place. -/
def ofSeedAt {K : Type} (base : Option Int) (place : Nat) : Except (Fault K) Generator :=
  ofSeed (base.map fun seed => seed + place)

def nextWord (generator : Generator) : UInt64 × Generator :=
  let state := step generator.increment generator.state
  let mixed := UInt64.ofNat (state / Nat.pow 2 64) ^^^ UInt64.ofNat (state % Nat.pow 2 64)
  let turn := UInt64.ofNat (state / Nat.pow 2 122)
  let rotated := (mixed >>> turn) ||| (mixed <<< ((64 - turn) % 64))
  (rotated, { generator with state })

/-- The next half word: the lower half of a new word, or the upper half that was kept. -/
def nextHalf (generator : Generator) : Nat × Generator :=
  match generator.saved with
  | some half => (half, { generator with saved := none })
  | none =>
    let (word, next) := generator.nextWord
    (word.toNat % Nat.pow 2 32, { next with saved := some (word.toNat / Nat.pow 2 32) })

/-- The next uniform: the upper 53 bits of a word, divided by `2 ^ 53`. -/
def nextUniform (generator : Generator) : Float × Generator :=
  let (word, next) := generator.nextWord
  ((word >>> 11).toFloat / 9007199254740992.0, next)

/-- Draw half words until the product with the bound has a lower half that is not below the
rejection limit. The upper half of that product is the position. -/
def drawBelow (bound limit : Nat) : (fuel : Nat) → Generator → Nat × Generator
  | 0, generator => (0, generator)
  | fuel + 1, generator =>
    let (half, next) := generator.nextHalf
    let product := half * bound
    if product % Nat.pow 2 32 < limit then drawBelow bound limit fuel next
    else (product / Nat.pow 2 32, next)

/-- A position below a bound. The only position below one is not drawn. -/
def nextIndex (bound : Nat) (generator : Generator) : Nat × Generator :=
  if bound ≤ 1 then (0, generator)
  else drawBelow bound ((Nat.pow 2 32 - bound) % bound) 1000 generator

end Generator

instance : UniformSource Generator Float := ⟨Generator.nextUniform⟩

instance : IndexSource Generator := ⟨Generator.nextIndex⟩

end MarkovDecision
