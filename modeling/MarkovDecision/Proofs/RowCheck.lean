import MarkovDecision.Proofs.Inquiry

/-!
# What the check of a row comes to

The check goes through the entries of a row in order and stops at the first bad one; only if there is
none does it look at the total. This holds for all numbers, whether or not they can be compared.
-/

set_option autoImplicit false

namespace MarkovDecision

theorem findSome?_cons_or {Item Found : Type} (find : Item → Option Found) (item : Item)
    (rest : List Item) : (item :: rest).findSome? find = (find item).or (rest.findSome? find) := by
  rw [List.findSome?_cons]
  cases find item <;> rfl

variable {K : Type} [Scalar K]

/-- What is wrong with an entry of a row, if anything. -/
def entryDefect? (admits : Ident → Bool) (state action : Ident) (entry : Ident × K) :
    Option (Defect K) :=
  if Scalar.below entry.2 Scalar.zero then
    some (.negativeProbability entry.2 state action entry.1)
  else if Scalar.below Scalar.zero entry.2 && !admits entry.1 then
    some (.unknownSuccessor state action entry.1)
  else none

/-- The entries added up in their order. -/
def Row.total (row : Row K) : K := row.values.foldl (· + ·) Scalar.zero

variable {admits : Ident → Bool} {state action : Ident} {row : Row K}

private theorem entryDefect?_eq_none_iff {entry : Ident × K} :
    entryDefect? admits state action entry = none ↔ Scalar.below entry.2 Scalar.zero = false ∧
      (Scalar.below Scalar.zero entry.2 = true → admits entry.1 = true) := by
  unfold entryDefect?
  cases Scalar.below entry.2 Scalar.zero <;> cases Scalar.below Scalar.zero entry.2 <;>
    cases admits entry.1 <;> simp

private theorem rowMass_eq (entries : List (Ident × K)) (sum : K) :
    rowMass admits state action entries sum =
      match entries.findSome? (entryDefect? admits state action) with
      | some defect => .error (.malformed defect)
      | none => .ok ((entries.map Prod.snd).foldl (· + ·) sum) := by
  induction entries generalizing sum with
  | nil => rfl
  | cons entry rest ih =>
      rw [rowMass, findSome?_cons_or, ih, entryDefect?]
      split
      · rfl
      · split
        · rfl
        · rfl

theorem checkRow_of_defect {defect : Defect K}
    (first : row.entries.findSome? (entryDefect? admits state action) = some defect) :
    checkRow row state action admits = .error (.malformed defect) := by
  rw [checkRow, rowMass_eq, first]
  rfl

theorem checkRow_of_clean
    (clean : row.entries.findSome? (entryDefect? admits state action) = none) :
    checkRow row state action admits =
      if Scalar.below massTolerance (Scalar.abs (row.total - Scalar.one)) then
        .error (.malformed (.wrongTotal state action row.total))
      else .ok () := by
  rw [checkRow, rowMass_eq, clean]
  rfl

theorem checkRow_eq_ok_iff : checkRow row state action admits = .ok () ↔
    (∀ entry ∈ row.entries, Scalar.below entry.2 Scalar.zero = false ∧
        (Scalar.below Scalar.zero entry.2 = true → admits entry.1 = true)) ∧
      Scalar.below massTolerance (Scalar.abs (row.total - Scalar.one)) = false := by
  cases first : row.entries.findSome? (entryDefect? admits state action) with
  | some defect =>
      obtain ⟨entry, member, bad⟩ := List.exists_of_findSome?_eq_some first
      rw [checkRow_of_defect first]
      refine iff_of_false nofun fun ⟨clean, _⟩ => ?_
      rw [entryDefect?_eq_none_iff.mpr (clean entry member)] at bad
      cases bad
  | none =>
      have clean := List.findSome?_eq_none_iff.mp first
      rw [checkRow_of_clean first]
      split
      · next wrong => exact iff_of_false nofun fun ⟨_, passes⟩ => by simp [wrong] at passes
      · next passes =>
          exact iff_of_true rfl
            ⟨fun entry member => entryDefect?_eq_none_iff.mp (clean entry member),
              Bool.not_eq_true _ ▸ passes⟩

theorem checkRow_fault {fault : Fault K} (run : checkRow row state action admits = .error fault) :
    ∃ defect, fault = .malformed defect := by
  cases first : row.entries.findSome? (entryDefect? admits state action) with
  | some defect =>
      rw [checkRow_of_defect first] at run
      cases run
      exact ⟨defect, rfl⟩
  | none =>
      rw [checkRow_of_clean first] at run
      split at run
      · cases run
        exact ⟨_, rfl⟩
      · cases run

theorem Model.row_eq_ok_iff {model : Model K} :
    model.row state action = .ok row ↔ model.rowTable.get? (state, action) = some row ∧
      checkRow row state action model.knows = .ok () := by
  unfold Model.row Model.rawRow
  constructor
  · intro run
    obtain ⟨written, raw, run⟩ := bind_eq_ok_iff.mp run
    obtain ⟨_, passed, run⟩ := bind_eq_ok_iff.mp run
    cases run
    split at raw
    · next stored =>
        cases raw
        exact ⟨stored, passed⟩
    · cases raw
  · rintro ⟨stored, passed⟩
    rw [stored]
    exact bind_eq_ok_iff.mpr ⟨row, rfl, bind_eq_ok_iff.mpr ⟨(), passed, rfl⟩⟩

end MarkovDecision
