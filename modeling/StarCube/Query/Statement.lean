import StarCube.Failure
import StarCube.Query
import StarCube.Sql.Statement

/-!
The statement of a query. Each item of the select list and each condition is resolved against the
cube by itself; the statement is then put together from what they resolve to. Every identifier that
is written comes from the cube and has been checked, with the labels of levels as the one exception:
those are checked as the query gives them.
-/

namespace StarCube

/-- Returns a text that is an identifier. -/
def requireIdentifier (what text : String) : Except Failure String :=
  (checkIdentifier what text).mapError Failure.identifier

/-- What an item of the select list resolves to. -/
inductive ResolvedItem where
  | aggregated (measure : Measure)
  | grouped (dimension : Dimension) (level : Level) (label : String)
deriving DecidableEq, Repr

/-- What a condition resolves to. -/
structure ResolvedCondition where
  dimension : Dimension
  level : Level
  predicate : Predicate
deriving Repr

namespace Dimension

/-- Checks the names by which a dimension is joined. -/
def checkJoin (dimension : Dimension) : Except Failure Unit := do
  discard (requireIdentifier "table name" dimension.table)
  discard (requireIdentifier "column name" dimension.factKey)
  discard (requireIdentifier "column name" dimension.keyColumn)

/-- The join of a dimension to the facts. -/
def join (dimension : Dimension) : Join :=
  ⟨dimension.table, dimension.tableAlias, ⟨Statement.factAlias, dimension.factKey⟩,
    ⟨dimension.tableAlias, dimension.keyColumn⟩⟩

/-- A column of the dimension table. -/
def ref (dimension : Dimension) (column : String) : ColumnRef :=
  ⟨dimension.tableAlias, column⟩

end Dimension

namespace Cube

/-- The dimension of a name, which can be joined. -/
def joinable (cube : Cube) (name : String) : Except Failure Dimension := do
  let dimension ← (cube.requireDimension name).mapError Failure.reference
  dimension.checkJoin
  return dimension

def resolveMeasure (cube : Cube) (name : String) : Except Failure ResolvedItem := do
  let measure ← (cube.requireMeasure name).mapError Failure.reference
  discard (requireIdentifier "column name" measure.column)
  discard (requireIdentifier "measure name" measure.name)
  return .aggregated measure

/-- A level with the dimension that it is a level of. -/
def resolveLevel (cube : Cube) (ref : LevelRef) : Except Failure (Dimension × Level) := do
  let dimension ← cube.joinable ref.dimension
  let level ← (dimension.resolveLevel ref.level ref.hierarchy).mapError Failure.reference
  discard (requireIdentifier "column name" level.column)
  return (dimension, level)

def resolveItem (cube : Cube) : SelectItem → Except Failure ResolvedItem
  | .measure name => cube.resolveMeasure name
  | .level ref => do
      let (dimension, level) ← cube.resolveLevel ref
      discard (requireIdentifier "column name" level.sortColumn)
      let label ← requireIdentifier "column alias" ref.label
      return .grouped dimension level label

/-- Resolves the items of a select list; `seen` holds the labels before them. -/
def resolveItems (cube : Cube) (seen : List String) :
    List SelectItem → Except Failure (List ResolvedItem)
  | [] => .ok []
  | item :: rest => do
      if seen.contains item.label then throw (.semantic (.repeatedLabel item.label))
      let first ← cube.resolveItem item
      let others ← resolveItems cube (item.label :: seen) rest
      return first :: others

def resolveCondition (cube : Cube) (predicate : Predicate) : Except Failure ResolvedCondition := do
  let (dimension, level) ← cube.resolveLevel predicate.ref
  return ⟨dimension, level, predicate⟩

end Cube

namespace ResolvedItem

/-- The dimension that an item needs. -/
def dimension? : ResolvedItem → Option Dimension
  | .aggregated _ => none
  | .grouped dimension _ _ => some dimension

def column : ResolvedItem → OutputColumn
  | .aggregated measure =>
      .aggregate measure.aggregation ⟨Statement.factAlias, measure.column⟩ measure.name
  | .grouped dimension level label => .plain (dimension.ref level.column) label

/-- The columns by which an item groups the facts: that of its members and the one that sorts them,
because an ordered column has to be a grouped one. -/
def groups : ResolvedItem → List ColumnRef
  | .aggregated _ => []
  | .grouped dimension level _ => [dimension.ref level.column, dimension.ref level.sortColumn]

/-- The column that an item orders the result by. -/
def order? : ResolvedItem → Option ColumnRef
  | .aggregated _ => none
  | .grouped dimension level _ => some (dimension.ref level.sortColumn)

end ResolvedItem

namespace ResolvedCondition

def condition (resolved : ResolvedCondition) : Condition :=
  let ref := resolved.dimension.ref resolved.level.column
  match resolved.predicate with
  | .equals _ value => .equals ref value
  | .among _ values => .among ref values

end ResolvedCondition

namespace Statement

/-- The dimensions that are mentioned, in the order of first mention. -/
def mentioned (items : List ResolvedItem) (conditions : List ResolvedCondition) :
    List Dimension :=
  (items.filterMap ResolvedItem.dimension? ++
    conditions.map ResolvedCondition.dimension).eraseDups

/-- Puts a statement together. -/
def ofResolved (items : List ResolvedItem) (conditions : List ResolvedCondition)
    (factTable : String) : Statement where
  columns := items.map ResolvedItem.column
  factTable := factTable
  joins := (mentioned items conditions).map Dimension.join
  conditions := conditions.map ResolvedCondition.condition
  groups := distinctColumns (items.flatMap ResolvedItem.groups)
  orders := distinctColumns (items.filterMap ResolvedItem.order?)

end Statement

namespace Query

/-- The statement of a query over a cube. -/
def statement (query : Query) (cube : Cube) : Except Failure Statement := do
  let items ← cube.resolveItems [] query.select
  let conditions ← query.conditions.mapM cube.resolveCondition
  let factTable ← requireIdentifier "table name" cube.factTable
  return .ofResolved items conditions factTable

end Query

end StarCube
