import StarCube.Engine.Execution
import StarCube.Query.MemberReference

/-!
Enumeration of the current members of a hierarchy, from the table of its dimension alone. A member
has a value for each level column, coarsest first.
-/

namespace StarCube

/-- A statement for the distinct members of a hierarchy. -/
structure MemberStatement where
  columns : List String
  table : String
  flagColumn : String
  orders : List String
deriving DecidableEq, Repr

namespace MemberStatement

/-- The columns selected: those that order the members are, because distinct rows are asked for. -/
def selected (statement : MemberStatement) : List String :=
  statement.columns ++
    statement.orders.filter fun column => !statement.columns.contains column

/-- The text of a statement. -/
def text (statement : MemberStatement) : String :=
  "SELECT DISTINCT " ++ Statement.listed statement.selected ++ "\nFROM " ++ statement.table ++
    "\nWHERE " ++ statement.flagColumn ++ " = ?\nORDER BY " ++ Statement.listed statement.orders

end MemberStatement

namespace Hierarchy

/-- The columns of the levels, each once. -/
def columns (hierarchy : Hierarchy) : List String :=
  (hierarchy.levels.map Level.column).eraseDups

/-- The columns that sort the levels, each once. -/
def sortColumns (hierarchy : Hierarchy) : List String :=
  (hierarchy.levels.map Level.sortColumn).eraseDups

/-- Checks the columns of all levels. -/
def checkColumns (hierarchy : Hierarchy) : Except Failure Unit :=
  hierarchy.levels.forM fun level => do
    discard (requireIdentifier "column name" level.column)
    discard (requireIdentifier "column name" level.sortColumn)

end Hierarchy

namespace Cube

/-- The dimension and the hierarchy whose members are asked for: the first hierarchy if none is
named. -/
def memberHierarchy (cube : Cube) (name dimension : String) (hierarchy : Option String) :
    Except Failure (Dimension × Hierarchy) := do
  let found ← match cube.dimension? dimension with
    | some found => pure found
    | none => throw (.reference (.unknownDimension dimension (some name)))
  let chosen ← match hierarchy with
    | some hierarchy => (found.requireHierarchy hierarchy).mapError Failure.reference
    | none => found.firstHierarchy
  return (found, chosen)

end Cube

/-- The statement for the members of a hierarchy. -/
def memberStatement (dimension : Dimension) (hierarchy : Hierarchy) (flagColumn : String) :
    Except Failure MemberStatement := do
  hierarchy.checkColumns
  let table ← requireIdentifier "table name" dimension.table
  return ⟨hierarchy.columns, table, flagColumn, hierarchy.sortColumns⟩

/-- The values of the level columns of a row. -/
def memberOf (columns : List String) (row : Row) : Row :=
  columns.map fun column => (column, row.exactCell column)

/-- Two members are the same if their values are, one by one. -/
def sameMember (left right : Row) : Bool :=
  Value.sameItems (left.map Prod.snd) (right.map Prod.snd)

/-- Adds a member unless it is one of those seen. -/
def addMember (members : List Row) (member : Row) : Except Failure (List Row) :=
  if member.any fun entry => !entry.2.isMember then .error .kinds
  else if members.any (sameMember · member) then .ok members
  else .ok (members ++ [member])

/-- The different members of the rows of a store, in the order of first occurrence. -/
def distinctMembers (columns : List String) (rows : List Row) : Except Failure (List Row) :=
  (rows.map (memberOf columns)).foldlM addMember []

namespace Procedure

/-- The current members of a hierarchy of a dimension. -/
def members (cube dimension : String) (hierarchy : Option String) : Procedure (List Row) :=
  operation cube "get_dimension_members" do
    let state ← engine
    let definition ← ofExcept (state.catalog.require cube)
    let (found, chosen) ← ofExcept (definition.memberHierarchy cube dimension hierarchy)
    let statement ← ofExcept (memberStatement found chosen state.settings.currentFlagColumn)
    let rows ← leasing definition.tables (send statement.text [.bool true] .null)
    ofExcept (distinctMembers statement.columns rows)

end Procedure

end StarCube
