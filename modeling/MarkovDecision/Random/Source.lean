/-!
# Sources of random numbers

A source of uniforms hands out numbers one by one; a source of indices picks a position below a
bound. Nothing is assumed about what they hand out, so one definition of a walk runs on a generator,
on a list of given numbers and on any other stream.
-/

set_option autoImplicit false

namespace MarkovDecision

/-- A stream of numbers of type `K`, held in states of type `Source`. -/
class UniformSource (Source : Type) (K : outParam Type) where
  uniform : Source → K × Source

/-- A stream of positions below given bounds. -/
class IndexSource (Source : Type) where
  index : (bound : Nat) → Source → Nat × Source

/-- Given numbers, handed out in order. When they are used up, `rest` is handed out. -/
structure Draws (K : Type) where
  pending : List K
  rest : K
  used : Nat

instance {K : Type} : UniformSource (Draws K) K where
  uniform draws :=
    match draws.pending with
    | [] => (draws.rest, ⟨[], draws.rest, draws.used + 1⟩)
    | first :: others => (first, ⟨others, draws.rest, draws.used + 1⟩)

end MarkovDecision
