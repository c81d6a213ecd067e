import Mathlib.Algebra.BigOperators.Group.List.Basic
import Mathlib.Algebra.Order.Field.Basic
import Mathlib.Tactic.Ring
import MarkovDecision.Proofs.Extended
import MarkovDecision.Statistics.Sum

/-!
# Sums by halves of exact numbers

In whatever order exact numbers are added, by lanes, by blocks or by halves, their sum comes out. So
the mean of returns is their arithmetic mean.
-/

set_option autoImplicit false

namespace MarkovDecision.Statistics

variable {F : Type} [Field F] [LinearOrder F]

private theorem addTo_finite (total : F) (numbers : List F) :
    addTo (.finite total) (numbers.map Extended.finite) = .finite (total + numbers.sum) :=
  Extended.foldl_add_finite numbers total

private theorem plainSum_finite (numbers : List F) :
    plainSum (numbers.map Extended.finite) = .finite numbers.sum := by
  cases numbers with
  | nil => exact Extended.zero_eq
  | cons first rest =>
      rw [List.sum_cons]
      exact addTo_finite first rest

private theorem sumLanes_finite (totals : List F) (eight : totals.length = 8) :
    sumLanes (totals.map Extended.finite) = .finite totals.sum := by
  match totals, eight with
  | [a, b, c, d, e, f, g, h], _ =>
      simp only [List.map_cons, List.map_nil, sumLanes, Extended.finite_add, List.sum_cons,
        List.sum_nil]
      congr 1
      ring

private theorem addLanes_finite (totals numbers : List F) :
    addLanes (totals.map Extended.finite) (numbers.map Extended.finite) =
      (List.zipWith (· + ·) totals numbers).map Extended.finite := by
  simp [addLanes, List.zipWith_map, List.map_zipWith]

private theorem sumBlocks_finite (blocks : Nat) (totals numbers : List F)
    (eight : totals.length = 8) (enough : 8 * blocks ≤ numbers.length) :
    sumBlocks (totals.map Extended.finite) blocks (numbers.map Extended.finite) =
      .finite (totals.sum + numbers.sum) := by
  induction blocks generalizing totals numbers with
  | zero => rw [sumBlocks, sumLanes_finite totals eight, addTo_finite]
  | succ blocks ih =>
      have block : totals.length = (numbers.take 8).length := by
        rw [eight, List.length_take]
        omega
      have lanes : (List.zipWith (· + ·) totals (numbers.take 8)).length = 8 := by
        rw [List.length_zipWith, ← block, eight, Nat.min_self]
      have rest : 8 * blocks ≤ (numbers.drop 8).length := by
        rw [List.length_drop]
        omega
      rw [sumBlocks, ← List.map_take, ← List.map_drop, addLanes_finite, ih _ _ lanes rest,
        ← List.sum_add_sum_eq_sum_zipWith_of_length_eq _ _ block, add_assoc,
        List.sum_take_add_sum_drop]

private theorem halvedSum_finite (numbers : List F) :
    halvedSum (numbers.map Extended.finite) = .finite numbers.sum := by
  -- Both halves of a long list are shorter than the list.
  induction size : numbers.length using Nat.strong_induction_on generalizing numbers with
  | h size ih =>
      subst size
      rw [halvedSum, List.length_map]
      split
      · exact plainSum_finite numbers
      · next several =>
          split
          · rw [← List.map_take, ← List.map_drop, sumBlocks_finite, List.sum_take_add_sum_drop]
            · rw [List.length_take]
              omega
            · rw [List.length_drop]
              omega
          · next long =>
              have front : (numbers.take (numbers.length / 2 / 8 * 8)).length < numbers.length := by
                rw [List.length_take]
                omega
              have back : (numbers.drop (numbers.length / 2 / 8 * 8)).length < numbers.length := by
                rw [List.length_drop]
                omega
              simp only [← List.map_take, ← List.map_drop, ih _ front _ rfl, ih _ back _ rfl,
                Extended.finite_add, List.sum_take_add_sum_drop]

theorem mean_finite [IsStrictOrderedRing F] {numbers : List F} (nonempty : numbers ≠ []) :
    mean (numbers.map Extended.finite) = .finite (numbers.sum / numbers.length) := by
  have count : (numbers.length : F) ≠ 0 :=
    Nat.cast_ne_zero.mpr (List.length_pos_iff.mpr nonempty).ne'
  rw [mean, sum, halvedSum_finite, Extended.zero_eq, Extended.finite_add, zero_add, List.length_map,
    Extended.ofCount_eq, Extended.finite_div _ _ count]

end MarkovDecision.Statistics
