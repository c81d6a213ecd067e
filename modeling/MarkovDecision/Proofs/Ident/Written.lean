import Mathlib.Data.List.Basic
import Std.Data.String.ToInt
import MarkovDecision.Ident.Written
import MarkovDecision.Proofs.Text.Quoted

/-!
# Written names tell names apart

A written name shows by its first character of which kind the name is. A number goes on as long as
there are digits, a text up to its closing quote, and in a tuple every name is followed by a comma or
by the closing bracket. So a name that is followed by one of these, or by nothing, can be told from
every other name, and two names with one written form are the same name.
-/

set_option autoImplicit false

namespace MarkovDecision.Ident

/-! ## First characters -/

/-- The kinds of names. -/
inductive Kind where
  | blank
  | int
  | text
  | tuple

def kind : Ident → Kind
  | .blank => .blank
  | .int _ => .int
  | .text _ => .text
  | .tuple _ => .tuple

/-- The characters that numbers are written with. -/
def isNumeral (char : Char) : Bool := char.isDigit || char == '-'

/-- The kind of a name whose written form begins with a character. -/
def kindFrom (char : Char) : Option Kind :=
  if isNumeral char then some .int
  else if char = '\'' ∨ char = '"' then some .text
  else if char = '(' then some .tuple
  else if char = 'N' then some .blank
  else none

private theorem isNumeral_of_mem_written {value : Int} {char : Char}
    (member : char ∈ (toString value).toList) : isNumeral char = true := by
  have digits : ∀ number : Nat, char ∈ number.repr.toList → isNumeral char = true := by
    intro number listed
    rw [Nat.repr_eq_ofList_toDigits, String.toList_ofList] at listed
    rw [isNumeral, Nat.isDigit_of_mem_toDigits (by decide) (by decide) listed, Bool.true_or]
  change char ∈ value.repr.toList at member
  rw [Int.repr_eq_if] at member
  split at member
  · exact digits _ member
  · rw [String.toList_append, List.mem_append] at member
    rcases member with sign | number
    · rw [List.mem_singleton.mp sign]
      rfl
    · exact digits _ number

private theorem written_int_ne_nil (value : Int) : (toString value).toList ≠ [] := by
  have digits : ∀ number : Nat, number.repr.toList ≠ [] := by
    intro number
    rw [Nat.repr_eq_ofList_toDigits, String.toList_ofList]
    exact Nat.toDigits_ne_nil
  change value.repr.toList ≠ []
  rw [Int.repr_eq_if]
  split
  · exact digits _
  · rw [String.toList_append]
    exact List.append_ne_nil_of_right_ne_nil _ (digits _)

/-- Every written name begins with a character that shows its kind. -/
private theorem exists_lead (name : Ident) :
    ∃ char rest, name.writtenChars = char :: rest ∧ kindFrom char = some name.kind := by
  cases name with
  | blank => exact ⟨'N', _, rfl, rfl⟩
  | int value =>
      obtain ⟨char, rest, written⟩ := List.exists_cons_of_ne_nil (written_int_ne_nil value)
      have numeral : isNumeral char = true := isNumeral_of_mem_written (written ▸ List.mem_cons_self)
      exact ⟨char, rest, written, if_pos numeral⟩
  | text value =>
      refine ⟨Text.quoteFor value.toList, _, rfl, ?_⟩
      rcases Text.isQuote_quoteFor value.toList with single | double
      · rw [single]
        rfl
      · rw [double]
        rfl
  | tuple items =>
      match items with
      | [] => exact ⟨'(', _, rfl, rfl⟩
      | [_] => exact ⟨'(', _, rfl, rfl⟩
      | _ :: _ :: _ => exact ⟨'(', _, rfl, rfl⟩

variable {leftRest rightRest : List Char}

private theorem kind_eq_of_append {left right : Ident}
    (same : left.writtenChars ++ leftRest = right.writtenChars ++ rightRest) :
    left.kind = right.kind := by
  obtain ⟨leftLead, lefts, leftWritten, leftKind⟩ := left.exists_lead
  obtain ⟨rightLead, rights, rightWritten, rightKind⟩ := right.exists_lead
  rw [leftWritten, rightWritten] at same
  have leads : leftLead = rightLead := (List.cons.inj same).1
  rw [leads, rightKind] at leftKind
  exact (Option.some.inj leftKind).symm

private theorem writtenChars_append_ne (name : Ident) (rest after : List Char) :
    name.writtenChars ++ rest ≠ ')' :: after := by
  intro same
  obtain ⟨lead, others, written, shown⟩ := name.exists_lead
  rw [written] at same
  cases same
  cases shown

/-! ## Where names end -/

/-- What may follow a name: nothing, a comma or a closing bracket. -/
def Ends (rest : List Char) : Prop := ∀ char ∈ rest.head?, char = ',' ∨ char = ')'

private theorem ends_nil : Ends [] := fun _ absent => nomatch absent

private theorem ends_comma (rest : List Char) : Ends (',' :: rest) := by
  rintro _ ⟨⟩
  exact .inl rfl

private theorem ends_writtenRest (items : List Ident) (rest : List Char) :
    Ends (writtenRest items ++ rest) := by
  cases items with
  | nil =>
      rintro _ ⟨⟩
      exact .inr rfl
  | cons item others => exact ends_comma _

private theorem Ends.takeWhile_isNumeral {rest : List Char} (ends : Ends rest) :
    rest.takeWhile isNumeral = [] := by
  cases rest with
  | nil => rfl
  | cons char others =>
      rcases ends char rfl with rfl | rfl <;> rfl

private theorem takeWhile_written_int (value : Int) {rest : List Char} (ends : Ends rest) :
    ((toString value).toList ++ rest).takeWhile isNumeral = (toString value).toList := by
  rw [List.takeWhile_append_of_pos fun _ member => isNumeral_of_mem_written member,
    ends.takeWhile_isNumeral, List.append_nil]

private theorem written_int_append_inj {left right : Int} (leftEnds : Ends leftRest)
    (rightEnds : Ends rightRest)
    (same : (toString left).toList ++ leftRest = (toString right).toList ++ rightRest) :
    left = right ∧ leftRest = rightRest := by
  have numerals := congrArg (List.takeWhile isNumeral) same
  rw [takeWhile_written_int left leftEnds, takeWhile_written_int right rightEnds] at numerals
  have values : left = right := Int.repr_inj.mp (String.toList_inj.mp numerals)
  subst values
  exact ⟨rfl, List.append_cancel_left same⟩

/-! ## Names -/

/-- A tuple after its first name. A single name keeps a comma. -/
def afterFirst : List Ident → List Char
  | [] => [',', ')']
  | item :: rest => writtenRest (item :: rest)

private theorem writtenChars_tuple_cons (first : Ident) (rest : List Ident) :
    (Ident.tuple (first :: rest)).writtenChars = '(' :: (first.writtenChars ++ afterFirst rest) := by
  cases rest <;> rfl

private theorem ends_afterFirst (items : List Ident) (rest : List Char) :
    Ends (afterFirst items ++ rest) := by
  cases items with
  | nil => exact ends_comma _
  | cons item others => exact ends_comma _

mutual

private theorem writtenChars_append_inj : ∀ (left right : Ident) {leftRest rightRest : List Char},
    Ends leftRest → Ends rightRest →
    left.writtenChars ++ leftRest = right.writtenChars ++ rightRest →
    left = right ∧ leftRest = rightRest
  | .blank, .blank, _, _, _, _, same => ⟨rfl, List.append_cancel_left same⟩
  | .int left, .int right, _, _, leftEnds, rightEnds, same => by
      obtain ⟨rfl, rests⟩ := written_int_append_inj leftEnds rightEnds same
      exact ⟨rfl, rests⟩
  | .text left, .text right, _, _, _, _, same => by
      obtain ⟨texts, rests⟩ := Text.quotedChars_append_inj same
      exact ⟨congrArg Ident.text (String.toList_inj.mp texts), rests⟩
  | .tuple [], .tuple [], _, _, _, _, same => ⟨rfl, List.append_cancel_left same⟩
  | .tuple [], .tuple (other :: others), _, _, _, _, same => by
      rw [writtenChars_tuple_cons, List.cons_append, List.append_assoc] at same
      exact absurd (List.cons.inj same).2.symm (other.writtenChars_append_ne _ _)
  | .tuple (first :: rest), .tuple [], _, _, _, _, same => by
      rw [writtenChars_tuple_cons, List.cons_append, List.append_assoc] at same
      exact absurd (List.cons.inj same).2 (first.writtenChars_append_ne _ _)
  | .tuple (first :: rest), .tuple (other :: others), _, _, _, _, same => by
      rw [writtenChars_tuple_cons, writtenChars_tuple_cons, List.cons_append, List.cons_append,
        List.append_assoc, List.append_assoc] at same
      obtain ⟨rfl, tails⟩ := writtenChars_append_inj first other (ends_afterFirst _ _)
        (ends_afterFirst _ _) (List.cons.inj same).2
      obtain ⟨rfl, rests⟩ := afterFirst_append_inj rest others tails
      exact ⟨rfl, rests⟩
  | .blank, .int _, _, _, _, _, same | .blank, .text _, _, _, _, _, same
  | .blank, .tuple _, _, _, _, _, same | .int _, .blank, _, _, _, _, same
  | .int _, .text _, _, _, _, _, same | .int _, .tuple _, _, _, _, _, same
  | .text _, .blank, _, _, _, _, same | .text _, .int _, _, _, _, _, same
  | .text _, .tuple _, _, _, _, _, same | .tuple _, .blank, _, _, _, _, same
  | .tuple _, .int _, _, _, _, _, same | .tuple _, .text _, _, _, _, _, same =>
      nomatch kind_eq_of_append same

private theorem afterFirst_append_inj :
    ∀ (lefts rights : List Ident) {leftRest rightRest : List Char},
    afterFirst lefts ++ leftRest = afterFirst rights ++ rightRest →
    lefts = rights ∧ leftRest = rightRest
  | [], [], _, _, same => ⟨rfl, List.append_cancel_left same⟩
  | [], _ :: _, _, _, same => nomatch (List.cons.inj (List.cons.inj same).2).1
  | _ :: _, [], _, _, same => nomatch (List.cons.inj (List.cons.inj same).2).1
  | left :: lefts, right :: rights, _, _, same =>
      writtenRest_append_inj (left :: lefts) (right :: rights) same

private theorem writtenRest_append_inj :
    ∀ (lefts rights : List Ident) {leftRest rightRest : List Char},
    writtenRest lefts ++ leftRest = writtenRest rights ++ rightRest →
    lefts = rights ∧ leftRest = rightRest
  | [], [], _, _, same => ⟨rfl, List.append_cancel_left same⟩
  | [], _ :: _, _, _, same => nomatch (List.cons.inj same).1
  | _ :: _, [], _, _, same => nomatch (List.cons.inj same).1
  | left :: lefts, right :: rights, _, _, same => by
      simp only [writtenRest, List.cons_append, List.append_assoc, List.cons.injEq, true_and] at same
      obtain ⟨rfl, tails⟩ := writtenChars_append_inj left right (ends_writtenRest _ _)
        (ends_writtenRest _ _) same
      obtain ⟨rfl, rests⟩ := writtenRest_append_inj lefts rights tails
      exact ⟨rfl, rests⟩

end

/-- Two names with one written form are the same name. -/
theorem written_inj {left right : Ident} : left.written = right.written ↔ left = right := by
  constructor
  · intro same
    have chars : left.writtenChars ++ [] = right.writtenChars ++ [] :=
      congrArg (· ++ []) (String.ofList_inj.mp same)
    exact (writtenChars_append_inj left right ends_nil ends_nil chars).1
  · rintro rfl
    rfl

end MarkovDecision.Ident
