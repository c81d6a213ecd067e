import MarkovDecision.Document.Datum

/-!
# Sheets of rows

A sheet lists rows under fixed columns. A row names the columns it fills; the others stay empty, and
a column that the sheet does not have is refused. Fields are separated by commas, lines end with
carriage return and line feed, and a field is quoted only where it would be misread otherwise.
-/

set_option autoImplicit false

namespace MarkovDecision

/-- A row of a sheet: values under names of columns. -/
abbrev SheetRow := List (String × Datum)

namespace Sheet

def fieldText : Datum → String
  | .blank => ""
  | value => value.plain

def needsQuotes (text : String) : Bool :=
  text.toList.any fun char => char = ',' || char = '"' || char = '\r' || char = '\n'

/-- A field as it stands in a line. Inside quotes a quote is written twice. -/
def delimited (text : String) : String :=
  if needsQuotes text then
    String.ofList ('"' ::
      (text.toList.flatMap (fun char => if char = '"' then ['"', '"'] else [char]) ++ ['"']))
  else text

def line (fields : List String) : String :=
  String.intercalate "," (fields.map delimited) ++ "\r\n"

/-- Refuse a row that fills a column that the sheet does not have. -/
def checkRow {K : Type} (columns : List String) (row : SheetRow) : Except (Fault K) Unit :=
  let unknown := (row.map Prod.fst).filter fun name => !columns.contains name
  if unknown.isEmpty then .ok () else .error (.badParameter (.unknownColumns unknown))

/-- The texts of the fields of a row, column by column. -/
def rowTexts (columns : List String) (row : SheetRow) : List String :=
  columns.map fun column =>
    match row.find? fun field => field.1 == column with
    | some (_, value) => fieldText value
    | none => ""

/-- A sheet with its columns in the first line. -/
def document (columns : List String) (rows : List SheetRow) : String :=
  String.join (line columns :: rows.map fun row => line (rowTexts columns row))

end Sheet

end MarkovDecision
