import MarkovDecision.Ident
import MarkovDecision.Text.Quoted

/-!
# Names in messages and labels

The written form of a name tells names apart that are built differently: texts are quoted, and a
tuple of one name keeps a comma.
-/

set_option autoImplicit false

namespace MarkovDecision.Ident

mutual

/-- The written form of a name, as characters. -/
def writtenChars : Ident → List Char
  | .blank => ['N', 'o', 'n', 'e']
  | .int value => (toString value).toList
  | .text value => Text.quotedChars value.toList
  | .tuple [] => ['(', ')']
  | .tuple [item] => '(' :: (writtenChars item ++ [',', ')'])
  | .tuple (first :: second :: rest) =>
    '(' :: (writtenChars first ++ writtenRest (second :: rest))

/-- The rest of a tuple after its first name. -/
def writtenRest : List Ident → List Char
  | [] => [')']
  | item :: rest => ',' :: ' ' :: (writtenChars item ++ writtenRest rest)

end

def written (name : Ident) : String := String.ofList name.writtenChars

/-- The plain form of a name: a text stands as it is, all other names are written. -/
def plain : Ident → String
  | .text value => value
  | name => name.written

end MarkovDecision.Ident
