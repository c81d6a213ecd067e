/-!
# Paths

A path is a text whose parts are separated by slashes. The last part is the name of the file; a dot
in it that comes after another character than a dot starts its extension.
-/

set_option autoImplicit false

namespace MarkovDecision.Text.Path

/-- The characters up to the last slash, that slash included, and the name after it. -/
def splitName (path : List Char) : List Char × List Char :=
  let name := (path.reverse.takeWhile (· != '/')).reverse
  (path.take (path.length - name.length), name)

/-- The name of a file without its extension. -/
def stem (name : List Char) : List Char :=
  let fromEnd := name.reverse.dropWhile (· != '.')
  let before := (fromEnd.drop 1).reverse
  if before.all (· == '.') then name else before

/-- The path without the extension of its name. -/
def withoutExtension (path : String) : String :=
  let (folder, name) := splitName path.toList
  String.ofList (folder ++ stem name)

def fileName (path : String) : String := String.ofList (splitName path.toList).2

/-- The folder that a path leads into; empty if the path is a name alone. -/
def folder (path : String) : String :=
  let before := (splitName path.toList).1
  let trimmed := (before.reverse.dropWhile (· == '/')).reverse
  String.ofList (if trimmed.isEmpty then before else trimmed)

def join (folder name : String) : String :=
  if folder.isEmpty || folder.endsWith "/" then folder ++ name else folder ++ "/" ++ name

/-- Go through the parts of a path. `before` lists the parts kept so far, latest first. -/
def resolve : List String → (before : List String) → List String
  | [], before => before.reverse
  | part :: rest, before =>
    if part.isEmpty || part == "." then resolve rest before
    else if part == ".." then resolve rest (before.drop 1)
    else resolve rest (part :: before)

/-- The path without parts that lead nowhere. -/
def normal (path : String) : String := String.intercalate "/" (resolve (path.splitOn "/") [])

end MarkovDecision.Text.Path
