import MarkovDecision.Proofs.Exact

/-!
# Which rows pass their check

The check refuses what compares in the wrong way: a probability below zero, one above zero on a
successor that is not admitted, a total whose distance from one is above the tolerance. On numbers and
infinities it accepts exactly the distributions. An undefined probability compares with nothing, and
neither does the total that it enters, so a row with one is accepted whatever its other entries sum up
to.
-/

set_option autoImplicit false

namespace MarkovDecision

/-! ## Sums of extended numbers -/

namespace Extended

variable {F : Type} [Field F] [LinearOrder F]

/-- A finite number itself, and zero for the other values. -/
def part : Extended F → F
  | .finite value => value
  | _ => 0

private theorem eq_of_not_below {value : Extended F}
    (atLeast : Scalar.below value Scalar.zero = false) :
    value = .undefined ∨ value = .posInf ∨ ∃ number, value = .finite number := by
  cases value with
  | finite number => exact Or.inr (Or.inr ⟨number, rfl⟩)
  | posInf => exact Or.inr (Or.inl rfl)
  | negInf => rw [zero_eq] at atLeast; cases atLeast
  | undefined => exact Or.inl rfl

private theorem foldl_add_of_undefined {values : List (Extended F)} (listed : .undefined ∈ values)
    (sum : Extended F) : values.foldl (· + ·) sum = .undefined := by
  have stays : ∀ others : List (Extended F), others.foldl (· + ·) .undefined = .undefined := by
    intro others
    induction others with
    | nil => rfl
    | cons value rest ih => exact ih
  induction values generalizing sum with
  | nil => cases listed
  | cons value rest ih =>
      rcases List.mem_cons.mp listed with rfl | later
      · have lost : sum + .undefined = .undefined := by cases sum <;> rfl
        rw [List.foldl_cons, lost, stays]
      · exact ih later _

private theorem foldl_add_of_posInf {values : List (Extended F)}
    (numbers : ∀ value ∈ values, value = .posInf ∨ ∃ number, value = .finite number)
    (listed : .posInf ∈ values) (sum : F) : values.foldl (· + ·) (.finite sum) = .posInf := by
  have stays : ∀ others : List (Extended F),
      (∀ value ∈ others, value = .posInf ∨ ∃ number, value = .finite number) →
        others.foldl (· + ·) .posInf = .posInf := by
    intro others numbers
    induction others with
    | nil => rfl
    | cons value rest ih =>
        obtain ⟨here, later⟩ := List.forall_mem_cons.mp numbers
        rcases here with rfl | ⟨number, rfl⟩
        · exact ih later
        · exact ih later
  induction values generalizing sum with
  | nil => cases listed
  | cons value rest ih =>
      obtain ⟨here, later⟩ := List.forall_mem_cons.mp numbers
      rcases here with rfl | ⟨number, rfl⟩
      · exact stays rest later
      · exact ih later (by simpa using listed) (sum + number)

end Extended

/-! ## The verdict -/

section Verdict

variable {F : Type} [Field F] [LinearOrder F] {row : Row (Extended F)} {admits : Ident → Bool}
  {state action : Ident}

omit [LinearOrder F] in
private theorem Row.exists_eq_extended
    (numbers : ∀ value ∈ row.values, ∃ number, value = .finite number) :
    ∃ plain : Row F, row = plain.extended := by
  refine ⟨row.mapValues fun _ value => value.part, Table.eq_of_entries ?_⟩
  have same : ∀ entry ∈ row.entries, (entry.1, Extended.finite entry.2.part) = entry := by
    intro entry member
    obtain ⟨number, value_eq⟩ := numbers entry.2 (List.mem_map_of_mem member)
    exact Prod.ext rfl (by rw [value_eq]; rfl)
  calc row.entries = row.entries.map id := (List.map_id _).symm
    _ = row.entries.map fun entry => (entry.1, .finite entry.2.part) :=
        List.map_congr_left fun entry member => (same entry member).symm
    _ = _ := by simp [Table.extended, Table.mapValues, Function.comp_def]

/-- The total of a row without entries below zero passes if it is undefined or close to one. An
infinite total does not. -/
theorem Row.total_passes_iff
    (atLeast : ∀ entry ∈ row.entries, Scalar.below entry.2 Scalar.zero = false) :
    Scalar.below massTolerance (Scalar.abs (row.total - Scalar.one)) = false ↔
      .undefined ∈ row.values ∨
        ∃ plain : Row F, row = plain.extended ∧ |plain.mass - 1| ≤ 1 / 10 ^ 9 := by
  by_cases lost : .undefined ∈ row.values
  · have undefined : row.total = .undefined := Extended.foldl_add_of_undefined lost _
    rw [undefined]
    exact iff_of_true rfl (Or.inl lost)
  have numbers : ∀ value ∈ row.values, value = .posInf ∨ ∃ number, value = .finite number := by
    intro value listed
    obtain ⟨entry, member, rfl⟩ := List.mem_map.mp listed
    refine (Extended.eq_of_not_below (atLeast entry member)).resolve_left fun same => ?_
    exact lost (same ▸ listed)
  by_cases infinite : .posInf ∈ row.values
  · have total : row.total = .posInf := by
      rw [Row.total, Extended.zero_eq, Extended.foldl_add_of_posInf numbers infinite]
    rw [total]
    refine iff_of_false (by rw [Extended.one_eq]; exact Bool.noConfusion) ?_
    rintro (listed | ⟨plain, rfl, _⟩)
    · exact lost listed
    · simp [Table.values, Table.extended, Table.mapValues] at infinite
  · obtain ⟨plain, rfl⟩ : ∃ plain : Row F, row = plain.extended :=
      Row.exists_eq_extended fun value listed =>
        (numbers value listed).resolve_left fun same => infinite (same ▸ listed)
    rw [plain.total_near_iff]
    constructor
    · intro near
      exact Or.inr ⟨plain, rfl, near⟩
    · rintro (listed | ⟨other, same, near⟩)
      · exact absurd listed lost
      · have masses : Extended.finite plain.mass = .finite other.mass := by
          rw [← Row.total_extended, same, Row.total_extended]
        rwa [Extended.finite.inj masses]

private theorem checkRow_passes_iff : checkRow row state action admits = .ok () ↔
    (∀ entry ∈ row.entries, Scalar.below entry.2 Scalar.zero = false) ∧
      (∀ entry ∈ row.entries, Scalar.below Scalar.zero entry.2 = true → admits entry.1 = true) ∧
      (.undefined ∈ row.values ∨
        ∃ plain : Row F, row = plain.extended ∧ |plain.mass - 1| ≤ 1 / 10 ^ 9) := by
  rw [checkRow_eq_ok_iff, forall₂_and, and_assoc]
  exact and_congr_right fun atLeast => and_congr_right fun _ => Row.total_passes_iff atLeast

/-- What the check of a row decides, and what it reports. It passes a row when no entry is below
zero, every entry above zero is on an admitted successor, and the row has an undefined entry or has
numbers only, with a total close to one. Otherwise it reports the first bad entry, or the total if
every entry is good. On rows without undefined entries it passes the distributions and no others. -/
theorem checkRow_verdict (row : Row (Extended F)) (state action : Ident) (admits : Ident → Bool) :
    (checkRow row state action admits = .ok () ↔
      (∀ entry ∈ row.entries, Scalar.below entry.2 Scalar.zero = false) ∧
      (∀ entry ∈ row.entries, Scalar.below Scalar.zero entry.2 = true → admits entry.1 = true) ∧
      (.undefined ∈ row.values ∨
        ∃ plain : Row F, row = plain.extended ∧ |plain.mass - 1| ≤ 1 / 10 ^ 9)) ∧
    (∀ defect, row.entries.findSome? (entryDefect? admits state action) = some defect →
      checkRow row state action admits = .error (.malformed defect)) ∧
    (row.entries.findSome? (entryDefect? admits state action) = none →
      checkRow row state action admits ≠ .ok () →
        checkRow row state action admits =
          .error (.malformed (.wrongTotal state action row.total))) ∧
    (.undefined ∉ row.values → (checkRow row state action admits = .ok () ↔
      ∃ plain : Row F, row = plain.extended ∧ plain.Accepted admits)) := by
  refine ⟨checkRow_passes_iff, fun defect first => checkRow_of_defect first, ?_, ?_⟩
  · intro clean refused
    rw [checkRow_of_clean clean] at refused ⊢
    split
    · rfl
    · next passes => exact absurd (if_neg passes) refused
  · intro defined
    constructor
    · intro passed
      obtain ⟨_, _, listed | ⟨plain, rfl, _⟩⟩ := checkRow_passes_iff.mp passed
      · exact absurd listed defined
      · exact ⟨plain, rfl, (checkRow_extended_iff plain state action admits).mp passed⟩
    · rintro ⟨plain, rfl, accepted⟩
      exact (checkRow_extended_iff plain state action admits).mpr accepted

/-- A row whose first entry is undefined, with whatever entry after it. -/
def vague (rest : ℚ) : Row (Extended ℚ) :=
  .ofPairs [(.int 0, .undefined), (.int 1, .finite rest)]

/-- Beside an undefined entry five times the whole mass passes. A negative mass is reported. -/
theorem checkRow_verdict_vague :
    checkRow (vague 5) (.int 0) (.text "go") (fun _ => true) = .ok () ∧
      checkRow (vague (-5)) (.int 0) (.text "go") (fun _ => true) =
        .error (.malformed
          (.negativeProbability (.finite (-5)) (.int 0) (.text "go") (.int 1))) := by
  obtain ⟨passes, _⟩ := checkRow_verdict (vague 5) (.int 0) (.text "go") (fun _ => true)
  obtain ⟨_, reports, _⟩ := checkRow_verdict (vague (-5)) (.int 0) (.text "go") (fun _ => true)
  refine ⟨passes.mpr ⟨by decide +kernel, fun _ _ _ => rfl, Or.inl (by decide +kernel)⟩, ?_⟩
  exact reports _ rfl

/-- Not every row that passes is a distribution. -/
theorem checkRow_passes_vague : ¬ ∀ (row : Row (Extended ℚ)) (state action : Ident)
    (admits : Ident → Bool), checkRow row state action admits = .ok () ↔
      ∃ plain : Row ℚ, row = plain.extended ∧ plain.Accepted admits := by
  intro claimed
  have passed : checkRow (vague 5) (.int 0) (.text "go") (fun _ => true) = .ok () :=
    checkRow_passes_iff.mpr ⟨by decide +kernel, fun _ _ _ => rfl, Or.inl (by decide +kernel)⟩
  obtain ⟨plain, same, _⟩ := (claimed _ _ _ _).mp passed
  have listed : .undefined ∈ Table.values (vague 5) := by decide +kernel
  rw [same] at listed
  simp [Table.values, Table.extended, Table.mapValues] at listed

end Verdict

end MarkovDecision
