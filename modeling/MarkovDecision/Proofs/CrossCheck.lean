import Mathlib.Data.Set.List
import MarkovDecision.Proofs.Ready
import MarkovDecision.Proofs.Statistics.Sum
import MarkovDecision.Proofs.Walk.StateEstimates

/-!
# Verdicts of cross-checks

A state passes a cross-check by the distance of its utility from the mean, in which the ends of the
confidence interval do not occur. If the interval lies evenly around the mean, this is the same as
lying in the interval, widened by the tolerance at both ends.
-/

set_option autoImplicit false

namespace MarkovDecision

/-! ## Reports -/

section Reports

variable {K : Type} [Scalar K]

/-- What a comparison finds for a state with a known utility. -/
def Estimate.discrepancy (estimate : Estimate K) (state : Ident) (analytic tolerance : K) :
    Discrepancy K :=
  let error := Scalar.abs (analytic - estimate.mean)
  ⟨state, analytic, estimate.mean, error, Scalar.atMost error (tolerance + estimate.halfWidth)⟩

private theorem compareEstimates_eq_ok {utility : Utility K} {estimates : Estimates K}
    {value : Ident → K}
    (covered : ∀ state ∈ estimates.keys, utility.get? state = some (value state)) (tolerance : K) :
    compareEstimates utility estimates tolerance =
      .ok (estimates.mapValues fun state estimate =>
        estimate.discrepancy state (value state) tolerance) := by
  have pairs : (estimates.entries.mapM fun entry => do
      let discrepancy ← compareState utility tolerance entry.1 entry.2
      return (entry.1, discrepancy)) =
        .ok (estimates.mapValues fun state estimate =>
          estimate.discrepancy state (value state) tolerance).entries := by
    apply mapM_eq_ok
    intro entry listed
    have found := covered entry.1 (List.mem_map_of_mem listed)
    rw [compareState, Table.demand_eq_ok found]
    rfl
  rw [compareEstimates, pairs, ok_bind, pure_eq_ok]
  apply congrArg Except.ok
  apply Table.eq_of_entries
  exact Table.entries_ofPairs _ (Table.nodup_keys _)

private theorem Estimate.trials_ofRollouts (rules : SpreadRules K) (significance : K)
    (discarded : Int) (rollouts : List (Rollout K)) :
    (Estimate.ofRollouts rules significance discarded rollouts).trials = rollouts.length := by
  rcases rollouts with _ | ⟨single, _ | ⟨second, others⟩⟩
  · rfl
  · rfl
  · simp [Estimate.ofRollouts, Estimate.ofReturns]

private theorem exists_report {utility : Utility K} {estimates : Estimates K}
    (covers : Utility.Covers utility estimates.keys) {state : Ident} {estimate : Estimate K}
    (estimated : estimates.get? state = some estimate) {analytic : K}
    (known : utility.get? state = some analytic) (tolerance : K) :
    ∃ report, compareEstimates utility estimates tolerance = .ok report ∧
      report.keys = estimates.keys ∧
      report.get? state = some (estimate.discrepancy state analytic tolerance) := by
  have covered : ∀ other ∈ estimates.keys,
      utility.get? other = some ((utility.get? other).getD Scalar.zero) := by
    intro other listed
    obtain ⟨value, found⟩ :=
      Option.isSome_iff_exists.mp ((utility.get?_isSome_iff other).mpr (covers other listed))
    simp [found]
  refine ⟨_, compareEstimates_eq_ok covered tolerance, Table.keys_mapValues _ _, ?_⟩
  simp [estimated, known]

end Reports

/-! ## Verdicts -/

variable {F : Type} [Field F] [LinearOrder F]

/-- The interval of an estimate lies evenly around a mean that is a number. -/
def Estimate.Centred (estimate : Estimate (Extended F)) : Prop :=
  ∃ (middle : F) (reach : Extended F), Scalar.atMost Scalar.zero reach = true ∧
    estimate.mean = .finite middle ∧ estimate.low = .finite middle - reach ∧
    estimate.high = .finite middle + reach

/-- The intervals on the means of at least two numbers lie evenly around these. -/
def SpreadRules.Symmetric (rules : SpreadRules (Extended F)) (significance : Extended F) : Prop :=
  ∀ samples : List F, 2 ≤ samples.length → ∃ reach : Extended F,
    Scalar.atMost Scalar.zero reach = true ∧
    rules.interval significance (samples.map .finite) =
      (Statistics.mean (samples.map .finite) - reach, Statistics.mean (samples.map .finite) + reach)

private theorem Estimate.undefined_fails {estimate : Estimate (Extended F)}
    (undefined : estimate.mean = .undefined) (state : Ident) (analytic tolerance : Extended F) :
    (estimate.discrepancy state analytic tolerance).passes = false := by
  simp only [Estimate.discrepancy, undefined]
  cases analytic <;> rfl

variable [IsStrictOrderedRing F]

private theorem Extended.half_width (middle : F) {reach : Extended F}
    (nonneg : Scalar.atMost Scalar.zero reach = true) :
    (.finite middle + reach - (.finite middle - reach)) / Scalar.two = reach := by
  rw [Extended.two_eq]
  cases reach with
  | finite reach =>
      have two : (2 : F) ≠ 0 := two_ne_zero
      rw [Extended.finite_add, Extended.finite_sub, Extended.finite_sub, Extended.finite_div _ _ two]
      congr 1
      ring
  | posInf => exact if_pos zero_le_two
  | negInf => cases nonneg
  | undefined => cases nonneg

private theorem Estimate.Centred.exists_passes_eq {estimate : Estimate (Extended F)}
    (centred : estimate.Centred) :
    ∃ (middle : F) (reach : Extended F), Scalar.atMost Scalar.zero reach = true ∧
      estimate.low = .finite middle - reach ∧ estimate.high = .finite middle + reach ∧
      ∀ state value tolerance,
        (estimate.discrepancy state (.finite value) (.finite tolerance)).passes =
          Scalar.atMost (.finite |value - middle|) (.finite tolerance + reach) := by
  obtain ⟨middle, reach, nonneg, mean, low, high⟩ := centred
  refine ⟨middle, reach, nonneg, low, high, fun state value tolerance => ?_⟩
  simp only [Estimate.discrepancy, Estimate.halfWidth, mean, low, high,
    Extended.half_width middle nonneg, Extended.finite_sub, Extended.abs_finite]

private theorem Estimate.Centred.passes_iff {estimate : Estimate (Extended F)}
    (centred : estimate.Centred) (state : Ident) (value tolerance : F) :
    (estimate.discrepancy state (.finite value) (.finite tolerance)).passes = true ↔
      Scalar.atMost (estimate.low - .finite tolerance) (.finite value) = true ∧
        Scalar.atMost (.finite value) (estimate.high + .finite tolerance) = true := by
  obtain ⟨middle, reach, nonneg, low, high, passes⟩ := centred.exists_passes_eq
  rw [passes, low, high]
  cases reach with
  | finite reach =>
      simp only [Extended.finite_sub, Extended.finite_add, Extended.atMost_finite, decide_eq_true_eq,
        abs_le]
      constructor
      · rintro ⟨above, below⟩
        constructor <;> linarith
      · rintro ⟨above, below⟩
        constructor <;> linarith
  | posInf => exact iff_of_true rfl ⟨rfl, rfl⟩
  | negInf => cases nonneg
  | undefined => cases nonneg

private theorem Estimate.Centred.passes_mono {estimate : Estimate (Extended F)}
    (centred : estimate.Centred)
    {state : Ident} {value tolerance more : F} (raised : tolerance ≤ more)
    (passed : (estimate.discrepancy state (.finite value) (.finite tolerance)).passes = true) :
    (estimate.discrepancy state (.finite value) (.finite more)).passes = true := by
  obtain ⟨middle, reach, nonneg, -, -, passes⟩ := centred.exists_passes_eq
  rw [passes] at passed ⊢
  cases reach with
  | finite reach =>
      simp only [Extended.finite_add, Extended.atMost_finite, decide_eq_true_eq] at passed ⊢
      linarith
  | posInf => rfl
  | negInf => cases nonneg
  | undefined => cases nonneg

/-! ## Estimates of rollouts -/

section Rollouts

variable {rules : SpreadRules (Extended F)} {significance : Extended F}
  (symmetric : rules.Symmetric significance) (discarded : Int)

include symmetric

private theorem Estimate.ofReturns_centred {returns : List F} (returned : returns ≠ []) :
    (Estimate.ofReturns rules significance discarded (returns.map .finite)).Centred := by
  have mean := Statistics.mean_finite returned
  rcases returns with _ | ⟨single, _ | ⟨second, others⟩⟩
  · exact absurd rfl returned
  · refine ⟨_, .finite 0, ?_, mean, ?_, ?_⟩
    · simp
    · rw [Extended.finite_sub, sub_zero]
      exact mean
    · rw [Extended.finite_add, add_zero]
      exact mean
  · obtain ⟨reach, nonneg, interval⟩ := symmetric (single :: second :: others) (by simp)
    rw [mean] at interval
    refine ⟨_, reach, nonneg, mean, ?_, ?_⟩
    · exact congrArg Prod.fst interval
    · exact congrArg Prod.snd interval

private theorem Estimate.ofRollouts_centred {rollouts : List (Rollout (Extended F))}
    (exact : ∀ rollout ∈ rollouts, ∃ total : F, rollout.total = .finite total)
    (finished : rollouts ≠ []) : (Estimate.ofRollouts rules significance discarded rollouts).Centred := by
  have listed : rollouts.map (·.total) ∈ Set.range (List.map (Extended.finite (F := F))) := by
    rw [Set.range_list_map]
    intro total member
    obtain ⟨rollout, walked, rfl⟩ := List.mem_map.mp member
    obtain ⟨number, same⟩ := exact rollout walked
    exact ⟨number, same.symm⟩
  obtain ⟨returns, totals⟩ := listed
  have present : returns ≠ [] := by
    rintro rfl
    exact finished (List.map_eq_nil_iff.mp totals.symm)
  rw [Estimate.ofRollouts, ← totals]
  exact Estimate.ofReturns_centred symmetric discarded present

end Rollouts

/-- A comparison passes a state exactly if walks were finished and the utility of the state lies in
the widened interval. So it never passes a state without finished walks, and what passes with some
tolerance passes with every greater one. -/
theorem compareEstimates_passes_iff (rules : SpreadRules (Extended F)) (significance : Extended F)
    (symmetric : rules.Symmetric significance) (rollouts : List (Rollout (Extended F)))
    (exact : ∀ rollout ∈ rollouts, ∃ total : F, rollout.total = .finite total) (discarded : Int) :
    let estimate := Estimate.ofRollouts rules significance discarded rollouts
    estimate.trials = rollouts.length ∧ estimate.samples = rollouts.map (·.total) ∧
    (rollouts = [] → estimate.mean = .undefined ∧ estimate.deviation = .undefined ∧
      estimate.low = .undefined ∧ estimate.high = .undefined) ∧
    ∀ (estimates : Estimates (Extended F)) (utility : Utility (Extended F)) (state : Ident) (value : F),
      estimates.get? state = some estimate → Utility.Covers utility estimates.keys →
      utility.get? state = some (.finite value) →
      ∃ verdict : F → Discrepancy (Extended F),
        (∀ tolerance, ∃ report, compareEstimates utility estimates (.finite tolerance) = .ok report ∧
          report.keys = estimates.keys ∧ report.get? state = some (verdict tolerance)) ∧
        (∀ tolerance, (verdict tolerance).passes = true ↔ rollouts ≠ [] ∧
          Scalar.atMost (estimate.low - .finite tolerance) (.finite value) = true ∧
          Scalar.atMost (.finite value) (estimate.high + .finite tolerance) = true) ∧
        ∀ tolerance more, tolerance ≤ more → (verdict tolerance).passes = true →
          (verdict more).passes = true := by
  intro estimate
  refine ⟨Estimate.trials_ofRollouts rules significance discarded rollouts,
    Estimate.samples_ofRollouts rules significance discarded rollouts, ?_, ?_⟩
  · rintro rfl
    exact ⟨rfl, rfl, rfl, rfl⟩
  · intro estimates utility state value estimated covers known
    refine ⟨fun tolerance => estimate.discrepancy state (.finite value) (.finite tolerance),
      fun tolerance => exists_report covers estimated known _, ?_⟩
    by_cases idle : rollouts = []
    · have undefined : estimate.mean = .undefined := by
        subst idle
        rfl
      simp [Estimate.undefined_fails undefined, idle]
    · have centred : estimate.Centred :=
        Estimate.ofRollouts_centred symmetric discarded exact idle
      refine ⟨fun tolerance => ?_, fun tolerance more raised => centred.passes_mono raised⟩
      rw [centred.passes_iff]
      exact (and_iff_right idle).symm

/-! ## Three returns -/

/-- Half the distance of the last number from the first. -/
def halfSpan (samples : List (Extended ℚ)) : Extended ℚ :=
  Scalar.abs (samples.getLastD Scalar.zero - samples.headD Scalar.zero) / Scalar.two

/-- The rules for three returns at equal distances, whose deviation is half their span. For
significance `2 / 7` Student's interval reaches five sixths of it to both sides of the mean. -/
def tripleRules : SpreadRules (Extended ℚ) where
  deviation := halfSpan
  interval _ samples :=
    let reach := .finite (5 / 6) * halfSpan samples
    (Statistics.mean samples - reach, Statistics.mean samples + reach)

private theorem halfSpan_finite (samples : List ℚ) : halfSpan (samples.map .finite) =
    .finite (|samples.getLastD 0 - samples.headD 0| / 2) := by
  rw [halfSpan, Extended.zero_eq, List.getLastD_map, List.headD_map, Extended.two_eq,
    Extended.finite_sub, Extended.abs_finite, Extended.finite_div _ _ two_ne_zero]

private theorem tripleRules_symmetric (significance : Extended ℚ) :
    tripleRules.Symmetric significance := by
  intro samples _
  refine ⟨.finite (5 / 6 * (|samples.getLastD 0 - samples.headD 0| / 2)), ?_, ?_⟩
  · rw [Extended.zero_eq, Extended.atMost_finite, decide_eq_true_eq]
    positivity
  · simp only [tripleRules, halfSpan_finite, Extended.finite_mul]

/-- Walks that return one, two and three, so the mean is two and the interval ends at `17 / 6`. A
utility of three passes with a tolerance of a sixth. -/
theorem compareEstimates_passes_iff_triple :
    let rollouts : List (Rollout (Extended ℚ)) :=
      [⟨0, .finite 1, 4, true, .int 2, []⟩, ⟨1, .finite 2, 5, true, .int 2, []⟩,
        ⟨3, .finite 3, 4, true, .int 2, []⟩]
    let estimate := Estimate.ofRollouts tripleRules (.finite (2 / 7)) 1 rollouts
    let estimates : Estimates (Extended ℚ) := .ofPairs [(.int 0, estimate)]
    let utility : Utility (Extended ℚ) := .ofPairs [(.int 2, .finite 0), (.int 0, .finite 3)]
    (tripleRules.Symmetric (.finite (2 / 7)) ∧
      (∀ rollout ∈ rollouts, ∃ total : ℚ, rollout.total = .finite total) ∧
      estimates.get? (.int 0) = some estimate ∧ Utility.Covers utility estimates.keys ∧
      utility.get? (.int 0) = some (.finite 3) ∧ (1 / 6 : ℚ) ≤ 1 / 5) ∧
    ∃ verdict : ℚ → Discrepancy (Extended ℚ),
      (∀ tolerance, ∃ report, compareEstimates utility estimates (.finite tolerance) = .ok report ∧
        report.keys = estimates.keys ∧ report.get? (.int 0) = some (verdict tolerance)) ∧
      (verdict (1 / 7)).passes = false ∧ (verdict (1 / 6)).passes = true ∧
      (verdict (1 / 5)).passes = true := by
  intro rollouts estimate estimates utility
  have symmetric := tripleRules_symmetric (.finite (2 / 7))
  have exact : ∀ rollout ∈ rollouts, ∃ total : ℚ, rollout.total = .finite total := by
    simp [rollouts]
  have covers : Utility.Covers utility estimates.keys := by
    unfold Utility.Covers
    decide +kernel
  obtain ⟨-, -, -, compared⟩ :=
    compareEstimates_passes_iff tripleRules (.finite (2 / 7)) symmetric rollouts exact 1
  obtain ⟨verdict, reported, passes, raised⟩ := compared estimates utility (.int 0) 3 rfl covers rfl
  have low : (Estimate.ofRollouts tripleRules (.finite (2 / 7)) 1 rollouts).low =
      .finite (7 / 6) := by decide +kernel
  have high : (Estimate.ofRollouts tripleRules (.finite (2 / 7)) 1 rollouts).high =
      .finite (17 / 6) := by decide +kernel
  rw [low, high] at passes
  have strict : (verdict (1 / 7)).passes = false := by
    rw [← Bool.not_eq_true, passes]
    norm_num
  have lenient : (verdict (1 / 6)).passes = true := by
    rw [passes]
    exact ⟨List.cons_ne_nil _ _, by norm_num, by norm_num⟩
  exact ⟨⟨symmetric, exact, rfl, covers, rfl, by norm_num⟩, verdict, reported, strict, lenient,
    raised _ _ (by norm_num) lenient⟩

end MarkovDecision
