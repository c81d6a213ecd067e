/-!
# Identifiers of states and actions

States and actions are named by integers, texts, one blank name, and tuples of names nested to
any depth. Two names are the same only if they are built alike: the number zero, the text of its
digit, the blank name and the empty tuple are four different names.
-/

set_option autoImplicit false

namespace MarkovDecision

/-- The name of a state or of an action. -/
inductive Ident where
  | blank
  | int (value : Int)
  | text (value : String)
  | tuple (items : List Ident)
  deriving Inhabited

namespace Ident

mutual

def same : Ident → Ident → Bool
  | .blank, .blank => true
  | .int left, .int right => left == right
  | .text left, .text right => left == right
  | .tuple left, .tuple right => sameItems left right
  | _, _ => false

/-- Whether two lists of names have one length and agree place by place. -/
def sameItems : List Ident → List Ident → Bool
  | [], [] => true
  | left :: lefts, right :: rights => same left right && sameItems lefts rights
  | _, _ => false

end

mutual

private theorem eq_of_same : ∀ left right : Ident, same left right = true → left = right
  | .blank, .blank, _ => rfl
  | .int left, .int right, agree => by simpa [same] using agree
  | .text left, .text right, agree => by simpa [same] using agree
  | .tuple left, .tuple right, agree => by
      rw [eq_of_sameItems left right (by simpa [same] using agree)]
  | .blank, .int _, agree | .blank, .text _, agree | .blank, .tuple _, agree
  | .int _, .blank, agree | .int _, .text _, agree | .int _, .tuple _, agree
  | .text _, .blank, agree | .text _, .int _, agree | .text _, .tuple _, agree
  | .tuple _, .blank, agree | .tuple _, .int _, agree | .tuple _, .text _, agree => by
      simp [same] at agree

private theorem eq_of_sameItems :
    ∀ lefts rights : List Ident, sameItems lefts rights = true → lefts = rights
  | [], [], _ => rfl
  | left :: lefts, right :: rights, agree => by
      simp only [sameItems, Bool.and_eq_true] at agree
      rw [eq_of_same left right agree.1, eq_of_sameItems lefts rights agree.2]
  | [], _ :: _, agree | _ :: _, [], agree => by simp [sameItems] at agree

end

mutual

private theorem same_self : ∀ name : Ident, same name name = true
  | .blank => rfl
  | .int _ => by simp [same]
  | .text _ => by simp [same]
  | .tuple items => by simp only [same]; exact sameItems_self items

private theorem sameItems_self : ∀ names : List Ident, sameItems names names = true
  | [] => rfl
  | name :: names => by simp [sameItems, same_self name, sameItems_self names]

end

private theorem same_iff_eq {left right : Ident} : same left right = true ↔ left = right :=
  ⟨eq_of_same left right, fun equal => equal ▸ same_self left⟩

instance : DecidableEq Ident := fun _ _ => decidable_of_iff _ same_iff_eq

mutual

def hashName : Ident → UInt64
  | .blank => 11
  | .int value => mixHash 13 (hash value)
  | .text value => mixHash 17 (hash value)
  | .tuple items => mixHash 19 (hashNames items)

/-- A hash of a list of names that depends on their order. -/
def hashNames : List Ident → UInt64
  | [] => 7
  | name :: names => mixHash (hashName name) (hashNames names)

end

instance : Hashable Ident := ⟨hashName⟩

end Ident

end MarkovDecision
