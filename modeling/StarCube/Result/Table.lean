import StarCube.Failure
import StarCube.Query
import StarCube.Result.Row

/-!
The result of a query as a table: the columns of its levels in the order of the select list, then
those of its measures, with the members that occur and the display of each measure.
-/

namespace StarCube

/-- How a measure is displayed. -/
structure MeasureInfo where
  dataType : MeasureType
  formatString : Option String
  aggregation : Aggregation
deriving DecidableEq, Repr

namespace Measure

def info (measure : Measure) : MeasureInfo :=
  ⟨measure.dataType, measure.formatString, measure.aggregation⟩

end Measure

/-- A query result in several dimensions. -/
structure ResultTable where
  dimensions : List String
  measures : List String
  data : List (List Value)
  members : Keyed (List Value)
  measureInfo : Keyed MeasureInfo
deriving Repr

namespace ResultTable

/-- All columns, those of levels first. -/
def columns (table : ResultTable) : List String :=
  table.dimensions ++ table.measures

/-- The number of rows and of columns. -/
def shape (table : ResultTable) : Nat × Nat :=
  (table.data.length, table.columns.length)

/-- Adds a value to the members seen, unless it is absent or one of them. -/
def addMember (members : List Value) (value : Value) : Except Failure (List Value) :=
  if value.isNull then .ok members
  else if !value.isMember then .error .kinds
  else if members.any (·.same value) then .ok members
  else .ok (members ++ [value])

/-- The different values of a column, each once, in the order of first occurrence. -/
def membersOf (column : List Value) : Except Failure (List Value) :=
  column.foldlM addMember []

end ResultTable

namespace Query

/-- The measures of the select list, as the cube defines them. -/
def measuresOf (query : Query) (cube : Cube) : Except Failure (List Measure) :=
  query.measures.mapM fun name => (cube.requireMeasure name).mapError Failure.reference

/-- Shapes the rows of a result. -/
def table (query : Query) (cube : Cube) (rows : List Row) : Except Failure ResultTable := do
  let measures ← query.measuresOf cube
  let labels := query.levels.map LevelRef.label
  let names := measures.map Measure.name
  let data := rows.map fun row => (labels ++ names).map row.cell
  let members ← labels.mapM fun label => do
    let found ← ResultTable.membersOf (rows.map (·.cell label))
    return (label, found)
  return {
    dimensions := labels
    measures := names
    data := data
    members := Keyed.putAll [] members
    measureInfo := Keyed.putAll [] (measures.map fun measure => (measure.name, measure.info)) }

end Query

end StarCube
