import PatternCovering.Network
import PatternCovering.Report

/-!
# Reports of windows, arcs and networks

An open side of a window is reported as an infinity.
-/

namespace PatternCovering

instance : Reportable (Window Datum) where
  report window := .object [("min", .of (Window.reportLower window.lower)),
    ("max", .of (Window.reportUpper window.upper)), ("name", .of window.name),
    ("repr", .of window.shown)]

instance : Reportable Attributes where
  report
    | .table entries => .of entries
    | .other given => .of given

/-- What is reported of every arc. -/
def Arc.fields (arc : Arc Datum Datum) : List (String × Report) :=
  [("index", .of arc.index), ("source", .of arc.source), ("target", .of arc.target),
    ("cost", .of arc.cost), ("consumption", .of arc.consumption), ("item", .of arc.item),
    ("attributes", .of arc.attributes)]

instance : Reportable (Arc Datum Datum) := ⟨fun arc => .object arc.fields⟩

/-- The report of an arc on its own, with how it is shown. -/
def Arc.details (arc : Arc Datum Datum) : Report :=
  .object (arc.fields ++ [("covers_item", .of arc.coversItem), ("is_loop", .of arc.isLoop),
    ("repr", .of arc.shown)])

/-- The report of a network with what keeps it from being used. -/
def Network.report (network : Network Datum Datum) : Except Fault Report := do
  return .object [("nodes", .of network.names), ("arcs", .of network.arcs),
    ("outgoing", .of network.outgoing), ("windows", .of network.windows),
    ("source", .of network.source), ("sink", .of network.sink), ("max_item", .of network.maxItem),
    ("issues", .of (← network.issues)), ("repr", .of network.shown),
    ("num_arcs", .of network.arcs.size), ("num_resources", .of network.numResources)]

end PatternCovering
