import MarkovDecision.Chart.Figure
import MarkovDecision.Document.Json

/-!
# Figures as scripts

A figure is handed to a renderer as a list of calls. A call names a method of the axes, of the
figure or of the plotting surface, and has arguments by position and by name.
-/

set_option autoImplicit false

namespace MarkovDecision.Chart

/-- A call of a renderer. -/
structure Call where
  target : String
  arguments : List Json
  options : List (String × Json)

def ofPlaces (places : List Nat) : Json := .list (places.map fun place : Nat => .whole place)

def ofNumbers (numbers : List Float) : Json := .list (numbers.map .real)

/-- The options of a mark: its colour and its label. -/
def styled (colour label : String) : List (String × Json) :=
  [("color", .text colour), ("label", .text label)]

def dashed (dash : String) : String × Json := ("linestyle", .text dash)

def Stroke.call : Stroke → Call
  | .line places heights label =>
    ⟨"ax.plot", [ofPlaces places, ofNumbers heights], [("label", .text label)]⟩
  | .logLine places heights colour label =>
    ⟨"ax.semilogy", [ofPlaces places, ofNumbers heights], styled colour label⟩
  | .level height colour dash label =>
    ⟨"ax.axhline", [.real height], dashed dash :: styled colour label⟩
  | .upright place colour dash label =>
    ⟨"ax.axvline", [.real place], dash.toList.map dashed ++ styled colour label⟩
  | .band low high colour label => ⟨"ax.axvspan", [.real low, .real high], styled colour label⟩
  | .histogram samples bins colour =>
    ⟨"ax.hist", [ofNumbers samples], [("bins", .whole bins), ("color", .text colour)]⟩
  | .bars places heights width errors colour label =>
    ⟨"ax.bar", [ofNumbers places, ofNumbers heights, .real width],
      errors.toList.map (fun lengths => ("yerr", ofNumbers lengths)) ++ styled colour label⟩
  | .ticks places => ⟨"ax.set_xticks", [ofPlaces places], []⟩
  | .tickLabels texts => ⟨"ax.set_xticklabels", [.list (texts.map .text)], []⟩
  | .horizontalTitle text => ⟨"ax.set_xlabel", [.text text], []⟩
  | .verticalTitle text => ⟨"ax.set_ylabel", [.text text], []⟩
  | .title text => ⟨"ax.set_title", [.text text], []⟩
  | .legend => ⟨"ax.legend", [], []⟩
  | .gridLines both => ⟨"ax.grid", if both then [.flag true] else [], []⟩
  | .save path => ⟨"fig.savefig", [.text path], []⟩
  | .display => ⟨"plt.show", [], []⟩
  | .close => ⟨"plt.close", [], []⟩

/-- A call as a list of its target, its arguments and its options. -/
def Call.json (call : Call) : Json :=
  .list [.text call.target, .list call.arguments, .object call.options]

/-- The script of a figure: its size and its calls. -/
def Figure.script (figure : Figure) : Json :=
  .object [("figsize", ofPlaces [figure.width, figure.height]),
    ("calls", .list (figure.strokes.map fun stroke => stroke.call.json))]

end MarkovDecision.Chart
