import PatternCovering.Column.Pool
import PatternCovering.Report

/-!
# Reports of columns

The attributes of a column are reported as pairs, those that were given before the arcs and the
resources of the path it was read off.
-/

namespace PatternCovering

/-- The path of a column as attributes. -/
def Trail.attributes (trail : Trail Datum) : Table Datum :=
  [(.text "arc_indices", .list trail.arcs), (.text "resources", .list trail.resources)]

/-- The attributes of a column, given or from its path. -/
def Column.allAttributes (column : Column Datum) : Table Datum :=
  column.attributes ++ (column.trail.map Trail.attributes).getD []

instance : Reportable (Column Datum) where
  report column := .object [("counts", .of column.counts), ("cost", .of column.cost),
    ("id", .of column.id), ("reduced_cost", .of column.reducedCost), ("value", .of column.value),
    ("attributes", .of column.allAttributes)]

/-- The identifiers of columns. -/
def Column.idsReport (columns : List (Column Datum)) : Report := .of (columns.map (·.id))

end PatternCovering
