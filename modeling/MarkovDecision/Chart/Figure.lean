/-!
# Figures as drawing steps

A figure is the list of steps that draw it: marks on the axes first, then their titles, and at last
what is to be done with the picture. Whoever renders a figure goes through its steps in order.
-/

set_option autoImplicit false

namespace MarkovDecision.Chart

/-- A step of drawing a figure. -/
inductive Stroke where
  | line (places : List Nat) (heights : List Float) (label : String)
  | logLine (places : List Nat) (heights : List Float) (colour label : String)
  | level (height : Float) (colour dash label : String)
  | upright (place : Float) (colour : String) (dash : Option String) (label : String)
  | band (low high : Float) (colour label : String)
  | histogram (samples : List Float) (bins : Nat) (colour : String)
  /-- Bars of one width, with or without error bars. -/
  | bars (places heights : List Float) (width : Float) (errors : Option (List Float))
      (colour label : String)
  | ticks (places : List Nat)
  | tickLabels (texts : List String)
  | horizontalTitle (text : String)
  | verticalTitle (text : String)
  | title (text : String)
  | legend
  /-- Grid lines along both axes, or along the heights alone. -/
  | gridLines (both : Bool)
  | save (path : String)
  | display
  | close

/-- A figure: its size and the steps that draw it. -/
structure Figure where
  width : Nat
  height : Nat
  strokes : List Stroke

/-- What is to be done with a finished figure. -/
structure Delivery where
  savePath : Option String
  display : Bool

/-- What a plot comes to: its figure, unless there is nothing to draw, and the lines it prints. -/
structure Plot where
  figure : Option Figure
  printed : List String

/-- The path that a figure is saved to. An empty path saves nothing. -/
def Delivery.target? (delivery : Delivery) : Option String :=
  delivery.savePath.filter fun path => !path.isEmpty

/-- The last steps of a figure. -/
def Delivery.strokes (delivery : Delivery) : List Stroke :=
  delivery.target?.toList.map .save ++ [if delivery.display then .display else .close]

def Plot.drawn (width height : Nat) (strokes : List Stroke) (delivery : Delivery) : Plot :=
  ⟨some ⟨width, height, strokes ++ delivery.strokes⟩,
    delivery.target?.toList.map fun path => "Figure saved to " ++ path⟩

def Plot.missing (reason : String) : Plot := ⟨none, [reason]⟩

end MarkovDecision.Chart
