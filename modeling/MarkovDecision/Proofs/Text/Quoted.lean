import Mathlib.Data.Nat.Digits.Lemmas
import MarkovDecision.Text.Quoted

/-!
# Quoted text is unambiguous

Every escape sequence can be read back together with the place where it ends, and none begins with
the quote in use. So a quoted text ends at its first bare quote, and what is read up to there is the
text.
-/

set_option autoImplicit false

namespace MarkovDecision.Text

/-! ## Hexadecimal digits -/

/-- The value of a lower-case hexadecimal digit. -/
def digitValue (digit : Char) : Nat :=
  if digit.toNat < 'a'.toNat then digit.toNat - '0'.toNat else digit.toNat - 'a'.toNat + 10

def hexNumber (digits : List Char) : Nat :=
  digits.foldl (fun value digit => 16 * value + digitValue digit) 0

private theorem digitValue_digitChar {value : Nat} (small : value < 16) :
    digitValue value.digitChar = value := by
  have each : ∀ digit < 16, digitValue digit.digitChar = digit := by decide
  exact each value small

private theorem hexNumber_append_singleton (digits : List Char) (last : Char) :
    hexNumber (digits ++ [last]) = 16 * hexNumber digits + digitValue last := by
  rw [hexNumber, List.foldl_append]
  rfl

private theorem hexNumber_toDigits (number : Nat) :
    hexNumber (Nat.toDigits 16 number) = number := by
  induction number using Nat.strong_induction_on with
  | _ number ih =>
      rw [Nat.toDigits_eq_if (by decide)]
      split
      · next small =>
          change 16 * 0 + digitValue number.digitChar = number
          rw [digitValue_digitChar small, Nat.mul_zero, Nat.zero_add]
      · next large =>
          have last : number % 16 < 16 := Nat.mod_lt _ (by decide)
          rw [hexNumber_append_singleton, ih (number / 16) (by omega), digitValue_digitChar last,
            Nat.div_add_mod]

/-- Zeros in front do not count. -/
private theorem hexNumber_hexPadded (width number : Nat) :
    hexNumber (hexPadded width number) = number := by
  have zeros : ∀ count, (List.replicate count '0').foldl
      (fun value digit => 16 * value + digitValue digit) 0 = 0 := by
    intro count
    induction count with
    | zero => rfl
    | succ count ih =>
        rw [List.replicate_succ, List.foldl_cons]
        exact ih
  rw [hexNumber, hexPadded, List.foldl_append, zeros]
  exact hexNumber_toDigits number

private theorem length_hexPadded {width number : Nat} (positive : 0 < width)
    (fits : number < 16 ^ width) :
    (hexPadded width number).length = width := by
  have short : (Nat.toDigits 16 number).length ≤ width :=
    (Nat.length_toDigits_le_iff (by decide) positive).mpr fits
  simp only [hexPadded, List.length_append, List.length_replicate]
  omega

/-! ## Escape sequences -/

/-- The character that stands in front, escaped or bare, and what follows it. -/
def unescaped : List Char → Option (Char × List Char)
  | '\\' :: 'n' :: rest => some ('\n', rest)
  | '\\' :: 'r' :: rest => some ('\r', rest)
  | '\\' :: 't' :: rest => some ('\t', rest)
  | '\\' :: 'x' :: rest => some (Char.ofNat (hexNumber (rest.take 2)), rest.drop 2)
  | '\\' :: 'u' :: rest => some (Char.ofNat (hexNumber (rest.take 4)), rest.drop 4)
  | '\\' :: 'U' :: rest => some (Char.ofNat (hexNumber (rest.take 8)), rest.drop 8)
  | '\\' :: char :: rest => some (char, rest)
  | char :: rest => some (char, rest)
  | [] => none

private theorem unescaped_hexPadded {width : Nat} {char : Char} (rest : List Char)
    (positive : 0 < width) (fits : char.toNat < 16 ^ width) :
    (Char.ofNat (hexNumber ((hexPadded width char.toNat ++ rest).take width)),
      (hexPadded width char.toNat ++ rest).drop width) = (char, rest) := by
  have length := length_hexPadded positive fits
  rw [List.take_left' length, List.drop_left' length, hexNumber_hexPadded, Char.ofNat_toNat]

/-- The two quotes. -/
def IsQuote (quote : Char) : Prop := quote = '\'' ∨ quote = '"'

theorem isQuote_quoteFor (chars : List Char) : IsQuote (quoteFor chars) := by
  unfold quoteFor
  split
  · exact .inr rfl
  · exact .inl rfl

variable {quote : Char}

/-- The last escape sequence has room for every character. -/
private theorem toNat_lt_hexPadded (char : Char) : char.toNat < 16 ^ 8 := by
  rcases char.valid with low | ⟨-, high⟩
  · exact low.trans (by decide)
  · exact high.trans (by decide)

private theorem unescaped_escaped (isQuote : IsQuote quote) (char : Char) (rest : List Char) :
    unescaped (escaped quote char ++ rest) = some (char, rest) := by
  unfold escaped
  split_ifs with special newline carriage tab printable small medium
  · rw [Bool.or_eq_true, beq_iff_eq, beq_iff_eq] at special
    rcases special with rfl | rfl
    · rcases isQuote with rfl | rfl <;> rfl
    · rfl
  · rw [beq_iff_eq.mp newline]
    rfl
  · rw [beq_iff_eq.mp carriage]
    rfl
  · rw [beq_iff_eq.mp tab]
    rfl
  · have bare : char ≠ '\\' := fun same => special (by simp [same])
    simp [unescaped, bare]
  · exact congrArg some (unescaped_hexPadded rest (by decide) small)
  · exact congrArg some (unescaped_hexPadded rest (by decide) medium)
  · exact congrArg some (unescaped_hexPadded rest (by decide) (toNat_lt_hexPadded char))

/-- No character is escaped to something that begins with the quote in use. -/
private theorem escaped_append_ne (isQuote : IsQuote quote) (char : Char) (rest after : List Char) :
    escaped quote char ++ rest ≠ quote :: after := by
  intro same
  have bare : unescaped (quote :: after) = some (quote, after) := by
    rcases isQuote with rfl | rfl <;> rfl
  have read := unescaped_escaped isQuote char rest
  rw [same, bare] at read
  cases read
  -- Only a quote reads as the quote, and the quote itself gets a backslash.
  have backslash : escaped quote quote = ['\\', quote] := by simp [escaped]
  rw [backslash] at same
  cases same

/-! ## Quoted texts -/

private theorem escapedBody_append_inj (isQuote : IsQuote quote) {lefts rights : List Char}
    {leftRest rightRest : List Char} (same : lefts.flatMap (escaped quote) ++ quote :: leftRest =
      rights.flatMap (escaped quote) ++ quote :: rightRest) :
    lefts = rights ∧ leftRest = rightRest := by
  induction lefts generalizing rights with
  | nil =>
      cases rights with
      | nil =>
          cases same
          exact ⟨rfl, rfl⟩
      | cons right others =>
          rw [List.flatMap_cons, List.append_assoc] at same
          exact absurd same.symm (escaped_append_ne isQuote _ _ _)
  | cons left rest ih =>
      rw [List.flatMap_cons, List.append_assoc] at same
      cases rights with
      | nil => exact absurd same (escaped_append_ne isQuote _ _ _)
      | cons right others =>
          rw [List.flatMap_cons, List.append_assoc] at same
          have read := congrArg unescaped same
          rw [unescaped_escaped isQuote, unescaped_escaped isQuote, Option.some.injEq,
            Prod.mk.injEq] at read
          obtain ⟨rfl, tails⟩ := read
          obtain ⟨rfl, rests⟩ := ih tails
          exact ⟨rfl, rests⟩

/-- Where a quoted text begins, it is known which text it is and where it ends. -/
theorem quotedChars_append_inj {left right leftRest rightRest : List Char}
    (same : quotedChars left ++ leftRest = quotedChars right ++ rightRest) :
    left = right ∧ leftRest = rightRest := by
  simp only [quotedChars, List.cons_append, List.append_assoc, List.cons.injEq] at same
  obtain ⟨quotes, bodies⟩ := same
  rw [quotes] at bodies
  exact escapedBody_append_inj (isQuote_quoteFor right) bodies

end MarkovDecision.Text
