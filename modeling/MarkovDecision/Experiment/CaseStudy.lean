import MarkovDecision.Document.Records
import MarkovDecision.Grid.Model
import MarkovDecision.Model.Validation

/-!
# Case studies

A case study is a way to build a model: a chain or a grid, with parameters or with the standard
ones, or a model that is given as it is, under the dotted path of its builder.
-/

set_option autoImplicit false

namespace MarkovDecision

/-- A way to build a model. -/
inductive CaseStudy where
  | chain (parameters : Option (Chain Float))
  | grid (parameters : Option (Grid Float))
  | given (builder : String) (model : Model Float)

namespace CaseStudy

def builder : CaseStudy → String
  | .chain _ => Procedure.buildChain.path
  | .grid _ => Procedure.buildGrid.path
  | .given path _ => path

/-- The parameters of a builder by name; none if it has only standard ones. -/
def named (parameters : Option Datum) : Datum :=
  .mapping (parameters.toList.map fun value => (.text "config", value))

def parameters : CaseStudy → Datum
  | .chain parameters => named (parameters.map .ofChain)
  | .grid parameters => named (parameters.map .ofGrid)
  | .given _ _ => named none

/-- The model of a case study, and its grid if it has one. -/
def build : CaseStudy → Except (Fault Float) (Model Float × Option (Grid Float))
  | .chain parameters => .ok ((parameters.getD .standard).model, none)
  | .grid parameters => do
    let grid := parameters.getD .standard
    let model ← grid.model
    return (model, some grid)
  | .given _ model => .ok (model, none)

end CaseStudy

end MarkovDecision
