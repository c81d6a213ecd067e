/-!
# Text in columns

Texts are padded with blanks to a width; a text that is longer stays as it is.
-/

set_option autoImplicit false

namespace MarkovDecision.Text

def repeated (char : Char) (count : Nat) : String := String.ofList (List.replicate count char)

def alignLeft (width : Nat) (text : String) : String :=
  String.ofList (text.toList ++ List.replicate (width - text.length) ' ')

def alignRight (width : Nat) (text : String) : String :=
  String.ofList (List.replicate (width - text.length) ' ' ++ text.toList)

/-- The text between blanks. Of an odd number of blanks the larger part goes to the left in a field
of odd width and to the right in a field of even width. -/
def center (width : Nat) (text : String) : String :=
  let blanks := width - text.length
  let left := blanks / 2 + blanks % 2 * (width % 2)
  String.ofList
    (List.replicate left ' ' ++ text.toList ++ List.replicate (blanks - left) ' ')

end MarkovDecision.Text
