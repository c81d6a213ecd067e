import Mathlib.Algebra.Order.BigOperators.Group.List
import Mathlib.Order.Interval.Set.Defs
import MarkovDecision.Proofs.Exact
import MarkovDecision.Proofs.Walk.Run

/-!
# Draws by cumulative probability

The entries of a row divide the numbers from zero to its mass into intervals, each as long as the
probability of its entry. A uniform selects the entry in whose interval it lies, and the last entry
of positive probability if it lies beyond the mass. So a draw inverts the distribution function of
the row: larger uniforms select later entries, and over a row of mass one each entry is selected by
an interval of uniforms as long as its probability. Entries of probability zero have empty intervals
wherever they stand.
-/

set_option autoImplicit false

namespace MarkovDecision

variable {F : Type} [Field F] [LinearOrder F]

theorem Row.draw?_extended_mem {row : Row F} {uniform : Extended F} {successor : Ident}
    (drawn : Row.draw? row.extended uniform = some successor) :
    ∃ entry ∈ row.entries, entry.1 = successor ∧ 0 < entry.2 := by
  obtain ⟨_, listed, same, positive⟩ := Row.draw?_mem drawn
  obtain ⟨entry, found, rfl⟩ := List.mem_map.mp listed
  rw [Extended.zero_eq, Extended.atMost_finite, decide_eq_false_iff_not] at positive
  exact ⟨entry, found, same, not_le.mp positive⟩

/-! ## Cumulative probabilities -/

/-- The sum of the probabilities before a place. -/
def massBefore (entries : List (Ident × F)) (place : Nat) : F :=
  ((entries.take place).map Prod.snd).sum

section Cumulative

variable {entries rest : List (Ident × F)} {first entry : Ident × F} {place : Nat}

omit [LinearOrder F] in
@[simp] theorem massBefore_zero (entries : List (Ident × F)) : massBefore entries 0 = 0 := rfl

omit [LinearOrder F] in
@[simp] theorem massBefore_cons_succ (first : Ident × F) (rest : List (Ident × F)) (place : Nat) :
    massBefore (first :: rest) (place + 1) = first.2 + massBefore rest place := by
  simp [massBefore]

omit [LinearOrder F] in
private theorem massBefore_succ (listed : entries[place]? = some entry) :
    massBefore entries (place + 1) = massBefore entries place + entry.2 := by
  simp [massBefore, List.take_add_one, listed]

variable [IsStrictOrderedRing F] (nonneg : ∀ entry ∈ entries, 0 ≤ entry.2)

include nonneg

private theorem massBefore_mono : Monotone (massBefore entries) := by
  refine monotone_nat_of_le_succ fun place => ?_
  cases listed : entries[place]? with
  | none => simp [massBefore, List.take_add_one, listed]
  | some entry =>
      rw [massBefore_succ listed]
      exact le_add_of_nonneg_right (nonneg entry (List.mem_of_getElem? listed))

private theorem massBefore_nonneg (place : Nat) : 0 ≤ massBefore entries place :=
  massBefore_mono nonneg (Nat.zero_le place)

private theorem massBefore_le_sum (place : Nat) :
    massBefore entries place ≤ (entries.map Prod.snd).sum := by
  have whole : massBefore entries (max place entries.length) = (entries.map Prod.snd).sum := by
    rw [massBefore, List.take_of_length_le (le_max_right _ _)]
  exact whole ▸ massBefore_mono nonneg (le_max_left _ _)

end Cumulative

/-! ## Quantiles -/

/-- The entry at which the cumulative probability passes the uniform, or the last positive one if it
never does. -/
structure QuantileAt (uniform : F) (entries : List (Ident × F)) (place : Nat) (entry : Ident × F) :
    Prop where
  listed : entries[place]? = some entry
  positive : 0 < entry.2
  reached : massBefore entries place ≤ uniform
  ends : uniform < massBefore entries (place + 1) ∨
    ∀ later, place < later → ∀ other, entries[later]? = some other → other.2 = 0

section Quantiles

variable [IsStrictOrderedRing F] {entries rest : List (Ident × F)} {first entry other : Ident × F}
  {uniform greater cumulative : F} {place later : Nat}

theorem QuantileAt.cons (quantile : QuantileAt (uniform - first.2) rest place entry) :
    QuantileAt uniform (first :: rest) (place + 1) entry := by
  refine ⟨quantile.listed, quantile.positive, ?_, ?_⟩
  · rw [massBefore_cons_succ, add_comm]
    exact le_sub_iff_add_le.mp quantile.reached
  · refine quantile.ends.imp (fun passed => ?_) fun zeros later after other listed => ?_
    · rw [massBefore_cons_succ, add_comm]
      exact sub_lt_iff_lt_add.mp passed
    · obtain ⟨later, rfl⟩ := Nat.exists_eq_add_one_of_ne_zero (Nat.ne_zero_of_lt after)
      exact zeros later (Nat.lt_of_succ_lt_succ after) other listed

/-- A draw takes the quantile of what the uniform exceeds the cumulative probability by. Over entries
of probability zero alone it takes what was taken last. -/
private theorem drawFrom_eq_last_or (nonneg : ∀ entry ∈ entries, 0 ≤ entry.2)
    (reached : cumulative ≤ uniform) (last : Option Ident) :
    (drawFrom (.finite uniform) (entries.map fun entry => (entry.1, Extended.finite entry.2))
        (.finite cumulative) last = last ∧ ∀ entry ∈ entries, entry.2 = 0) ∨
      ∃ place entry,
        drawFrom (.finite uniform) (entries.map fun entry => (entry.1, Extended.finite entry.2))
          (.finite cumulative) last = some entry.1 ∧
        QuantileAt (uniform - cumulative) entries place entry := by
  induction entries generalizing cumulative last with
  | nil => exact Or.inl ⟨rfl, fun _ absent => nomatch absent⟩
  | cons first rest ih =>
      obtain ⟨atLeast, others⟩ := List.forall_mem_cons.mp nonneg
      simp only [List.map_cons, drawFrom, Extended.zero_eq, Extended.atMost_finite,
        decide_eq_true_eq, Extended.finite_add, Extended.below_finite]
      split
      · next nonpositive =>
          have zero : first.2 = 0 := le_antisymm nonpositive atLeast
          rcases ih others reached last with ⟨same, zeros⟩ | ⟨place, entry, drawn, quantile⟩
          · exact Or.inl ⟨same, List.forall_mem_cons.mpr ⟨zero, zeros⟩⟩
          · refine Or.inr ⟨place + 1, entry, drawn, QuantileAt.cons ?_⟩
            rwa [zero, sub_zero]
      · next likely =>
          have positive : 0 < first.2 := not_le.mp likely
          have begun : massBefore (first :: rest) 0 ≤ uniform - cumulative := sub_nonneg.mpr reached
          split
          · next passed =>
              refine Or.inr ⟨0, first, rfl, rfl, positive, begun, Or.inl ?_⟩
              rw [massBefore_cons_succ, massBefore_zero, add_zero]
              exact sub_lt_iff_lt_add'.mpr passed
          · next beyond =>
              rcases ih others (not_lt.mp beyond) (Option.some first.1) with
                ⟨same, zeros⟩ | ⟨place, entry, drawn, quantile⟩
              · refine Or.inr ⟨0, first, same, rfl, positive, begun, Or.inr ?_⟩
                intro later after other listed
                obtain ⟨later, rfl⟩ := Nat.exists_eq_add_one_of_ne_zero (Nat.ne_zero_of_lt after)
                exact zeros other (List.mem_of_getElem? listed)
              · refine Or.inr ⟨place + 1, entry, drawn, QuantileAt.cons ?_⟩
                rwa [sub_sub]

private theorem quantileAt_of_between (listed : entries[place]? = some entry)
    (reached : massBefore entries place ≤ uniform)
    (passed : uniform < massBefore entries (place + 1)) :
    QuantileAt uniform entries place entry := by
  refine ⟨listed, ?_, reached, Or.inl passed⟩
  rw [massBefore_succ listed] at passed
  exact pos_of_lt_add_right (reached.trans_lt passed)

omit [IsStrictOrderedRing F] in
private theorem QuantileAt.lt_massBefore (quantile : QuantileAt uniform entries place entry)
    (below : uniform < (entries.map Prod.snd).sum) :
    uniform < massBefore entries (place + 1) := by
  rcases quantile.ends with passed | zeros
  · exact passed
  · -- The entries after the place add nothing, so the whole sum is reached there.
    have beyond : ((entries.drop (place + 1)).map Prod.snd).sum = 0 := by
      refine List.sum_eq_zero fun number member => ?_
      obtain ⟨other, dropped, rfl⟩ := List.mem_map.mp member
      obtain ⟨offset, listed⟩ := List.mem_iff_getElem?.mp dropped
      rw [List.getElem?_drop] at listed
      exact zeros _ (by omega) other listed
    rw [← List.take_append_drop (place + 1) entries, List.map_append, List.sum_append, beyond,
      add_zero] at below
    exact below

variable (nonneg : ∀ entry ∈ entries, 0 ≤ entry.2)

include nonneg

theorem QuantileAt.le (quantile : QuantileAt uniform entries place entry)
    (next : QuantileAt greater entries later other) (below : uniform ≤ greater) : place ≤ later := by
  by_contra earlier
  have after : later < place := not_le.mp earlier
  rcases next.ends with passed | zeros
  · have reached := massBefore_mono nonneg (Nat.succ_le_of_lt after)
    exact absurd passed (not_lt.mpr (reached.trans (quantile.reached.trans below)))
  · exact quantile.positive.ne' (zeros place after entry quantile.listed)

private theorem QuantileAt.place_eq (quantile : QuantileAt uniform entries place entry)
    (again : QuantileAt uniform entries later other) : place = later :=
  le_antisymm (quantile.le nonneg again le_rfl) (again.le nonneg quantile le_rfl)

theorem QuantileAt.last (quantile : QuantileAt uniform entries place entry)
    (beyond : (entries.map Prod.snd).sum ≤ uniform) :
    ∀ later, place < later → ∀ other, entries[later]? = some other → other.2 = 0 :=
  quantile.ends.resolve_left
    (not_lt.mpr ((massBefore_le_sum nonneg (place + 1)).trans beyond))

end Quantiles

/-! ## Rows -/

/-- A draw with the uniform takes the entry at the place. -/
def Row.Selects (row : Row F) (uniform : F) (place : Nat) : Prop :=
  ∃ entry, row.entries[place]? = some entry ∧
    Row.draw? row.extended (.finite uniform) = some entry.1

omit [Field F] [LinearOrder F] in
private theorem Row.place_eq_of_getElem? {row : Row F} {place later : Nat} {entry other : Ident × F}
    (listed : row.entries[place]? = some entry) (again : row.entries[later]? = some other)
    (same : entry.1 = other.1) : place = later := by
  have named : row.keys[place]? = some entry.1 := by rw [Table.keys, List.getElem?_map, listed]; rfl
  have renamed : row.keys[later]? = some other.1 := by rw [Table.keys, List.getElem?_map, again]; rfl
  obtain ⟨within, -⟩ := List.getElem?_eq_some_iff.mp named
  refine (List.getElem?_inj within row.keys_nodup).mp ?_
  rw [named, renamed, same]

section Rows

variable [IsStrictOrderedRing F] {row : Row F} (nonneg : ∀ entry ∈ row.entries, 0 ≤ entry.2)
  (massive : 0 < row.mass) {uniform greater : F} (start : 0 ≤ uniform) {place later : Nat}

include nonneg massive start

/-- A draw takes the quantile of the uniform. -/
theorem Row.exists_quantileAt :
    ∃ place entry, QuantileAt uniform row.entries place entry ∧
      Row.draw? row.extended (.finite uniform) = some entry.1 := by
  have drawn : Row.draw? row.extended (.finite uniform) = drawFrom (.finite uniform)
      (row.entries.map fun entry => (entry.1, Extended.finite entry.2)) (.finite 0) none := by
    rw [Row.draw?, Extended.zero_eq]
    rfl
  rcases drawFrom_eq_last_or nonneg start none with ⟨-, zeros⟩ | ⟨place, entry, taken, quantile⟩
  · have empty : row.mass = 0 := by
      refine List.sum_eq_zero fun number member => ?_
      obtain ⟨entry, listed, rfl⟩ := List.mem_map.mp member
      exact zeros entry listed
    exact absurd empty massive.ne'
  · rw [sub_zero] at quantile
    exact ⟨place, entry, quantile, drawn.trans taken⟩

private theorem Row.selects_iff :
    row.Selects uniform place ↔ ∃ entry, QuantileAt uniform row.entries place entry := by
  obtain ⟨taken, found, quantile, drawn⟩ := Row.exists_quantileAt nonneg massive start
  constructor
  · rintro ⟨entry, listed, same⟩
    cases Row.place_eq_of_getElem? quantile.listed listed
      (Option.some.inj (drawn.symm.trans same))
    exact ⟨found, quantile⟩
  · rintro ⟨entry, again⟩
    cases quantile.place_eq nonneg again
    exact ⟨found, quantile.listed, drawn⟩

theorem Row.Selects.le (selects : row.Selects uniform place) (below : uniform ≤ greater)
    (next : row.Selects greater later) : place ≤ later := by
  obtain ⟨entry, quantile⟩ := (Row.selects_iff nonneg massive start).mp selects
  obtain ⟨other, following⟩ := (Row.selects_iff nonneg massive (start.trans below)).mp next
  exact quantile.le nonneg following below

end Rows

variable [IsStrictOrderedRing F]

theorem Row.Stochastic.exists_interval {row : Row F} {states : List Ident}
    (fine : row.Stochastic states) {entry : Ident × F} (listed : entry ∈ row.entries) :
    ∃ low : F, 0 ≤ low ∧ low + entry.2 ≤ 1 ∧ ∀ uniform, low ≤ uniform → uniform < low + entry.2 →
      Row.draw? row.extended (.finite uniform) = some entry.1 := by
  obtain ⟨place, found⟩ := List.mem_iff_getElem?.mp listed
  have start := massBefore_nonneg fine.nonneg place
  have stop := massBefore_le_sum fine.nonneg (place + 1)
  rw [← Row.mass, fine.mass_eq, massBefore_succ found] at stop
  refine ⟨_, start, stop, fun uniform reached exceeded => ?_⟩
  rw [← massBefore_succ found] at exceeded
  have quantile := quantileAt_of_between found reached exceeded
  have massive : 0 < row.mass := fine.mass_eq ▸ zero_lt_one
  obtain ⟨other, again, drawn⟩ :=
    (Row.selects_iff fine.nonneg massive (start.trans reached)).mpr ⟨entry, quantile⟩
  rwa [Option.some.inj (found.symm.trans again)]

/-- A draw inverts the distribution function of its row.

1. It takes one uniform from its source and selects an entry of positive probability: the only one
   whose interval of cumulative probabilities holds the uniform, or the last one if the uniform is not
   below the mass.
2. Greater uniforms select no earlier entry.
3. Over a row of mass one, the uniforms that select an entry form its interval, which is as long as its
   probability. -/
theorem Row.sample_inverts (row : Row F) (nonneg : ∀ entry ∈ row.entries, 0 ≤ entry.2)
    (massive : 0 < row.mass) :
    (∀ {Source : Type} [UniformSource Source (Extended F)] (source : Source) (uniform : F),
      (UniformSource.uniform source).1 = .finite uniform → 0 ≤ uniform →
        ∃ place entry, row.entries[place]? = some entry ∧ 0 < entry.2 ∧
          Row.draw? row.extended (.finite uniform) = some entry.1 ∧
          Row.sample row.extended source = (entry.1, (UniformSource.uniform source).2) ∧
          (uniform < row.mass →
            massBefore row.entries place ≤ uniform ∧
            uniform < massBefore row.entries (place + 1) ∧
            ∀ other, massBefore row.entries other ≤ uniform →
              uniform < massBefore row.entries (other + 1) → other = place) ∧
          (row.mass ≤ uniform → ∀ later, place < later →
            ∀ other, row.entries[later]? = some other → other.2 = 0)) ∧
    (∀ lower upper place later, 0 ≤ lower → lower ≤ upper → row.Selects lower place →
      row.Selects upper later → place ≤ later) ∧
    (row.mass = 1 → ∀ place entry, row.entries[place]? = some entry →
      {uniform | 0 ≤ uniform ∧ uniform < 1 ∧ row.Selects uniform place} =
        Set.Ico (massBefore row.entries place) (massBefore row.entries (place + 1)) ∧
      massBefore row.entries (place + 1) - massBefore row.entries place = entry.2) := by
  refine ⟨?_, ?_, ?_⟩
  · intro Source _ source uniform given start
    obtain ⟨place, entry, quantile, drawn⟩ := Row.exists_quantileAt nonneg massive start
    refine ⟨place, entry, quantile.listed, quantile.positive, drawn,
      Row.sample_of_draw? (given ▸ drawn), fun below => ?_, quantile.last nonneg⟩
    refine ⟨quantile.reached, quantile.lt_massBefore below, fun other reached passed => ?_⟩
    cases listed : row.entries[other]? with
    | some found =>
        exact (quantileAt_of_between listed reached passed).place_eq nonneg quantile
    | none =>
        -- Past the end nothing is added, so no interval starts there.
        rw [massBefore, List.take_add_one, listed, Option.toList_none, List.append_nil] at passed
        exact absurd passed (not_lt.mpr reached)
  · intro lower upper place later start below selects next
    exact selects.le nonneg massive start below next
  · intro whole place entry listed
    refine ⟨?_, by rw [massBefore_succ listed, add_sub_cancel_left]⟩
    ext uniform
    constructor
    · rintro ⟨start, stop, selects⟩
      obtain ⟨found, quantile⟩ := (Row.selects_iff nonneg massive start).mp selects
      exact ⟨quantile.reached, quantile.lt_massBefore (stop.trans_eq whole.symm)⟩
    · rintro ⟨reached, passed⟩
      have start := (massBefore_nonneg nonneg place).trans reached
      have stop := passed.trans_le (massBefore_le_sum nonneg (place + 1))
      rw [← Row.mass, whole] at stop
      exact ⟨start, stop, (Row.selects_iff nonneg massive start).mpr
        ⟨entry, quantileAt_of_between listed reached passed⟩⟩

/-- A row of mass one with an entry of probability zero in its middle: one half selects the last
entry. -/
theorem Row.sample_inverts_middle :
    let row : Row ℚ := .ofPairs [(.int 1, 1 / 2), (.int 3, 0), (.int 2, 1 / 2)]
    let draws : Draws (Extended ℚ) := ⟨[.finite (1 / 2)], .finite 0, 0⟩
    ((∀ entry ∈ row.entries, 0 ≤ entry.2) ∧ 0 < row.mass) ∧
    (∃ place entry, row.entries[place]? = some entry ∧ 0 < entry.2 ∧
      Row.draw? row.extended (.finite (1 / 2)) = some entry.1 ∧
      Row.sample row.extended draws = (entry.1, (UniformSource.uniform draws).2) ∧
      massBefore row.entries place ≤ 1 / 2 ∧ 1 / 2 < massBefore row.entries (place + 1)) ∧
    (Row.sample row.extended draws).1 = .int 2 ∧
    {uniform | 0 ≤ uniform ∧ uniform < 1 ∧ row.Selects uniform 2} =
      Set.Ico (massBefore row.entries 2) (massBefore row.entries 3) := by
  intro row draws
  have nonneg : ∀ entry ∈ row.entries, 0 ≤ entry.2 := by decide +kernel
  have massive : 0 < row.mass := by decide +kernel
  have whole : row.mass = 1 := by decide +kernel
  obtain ⟨samples, -, intervals⟩ := Row.sample_inverts row nonneg massive
  obtain ⟨place, entry, listed, positive, drawn, sampled, inside, -⟩ :=
    samples draws (1 / 2) rfl (by norm_num)
  obtain ⟨reached, passed, -⟩ := inside (by rw [whole]; norm_num)
  exact ⟨⟨nonneg, massive⟩, ⟨place, entry, listed, positive, drawn, sampled, reached, passed⟩,
    by decide +kernel, (intervals whole 2 (.int 2, 1 / 2) (by decide +kernel)).1⟩

end MarkovDecision
