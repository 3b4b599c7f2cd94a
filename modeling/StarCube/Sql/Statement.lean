import StarCube.Cube.Measure
import StarCube.Value

/-!
Statements that aggregate facts: a select list over the fact table and the dimension tables joined
to it, with conditions, groups and an order. Values never stand in the text of a statement: each
place of a value is a question mark, and the values are listed in the order of their places.
-/

namespace StarCube

/-- A column of a table that is known by an alias. -/
structure ColumnRef where
  tableAlias : String
  column : String
deriving DecidableEq, Repr

namespace ColumnRef

def text (ref : ColumnRef) : String :=
  ref.tableAlias ++ "." ++ ref.column

end ColumnRef

/-- A column of the result. -/
inductive OutputColumn where
  | aggregate (aggregation : Aggregation) (ref : ColumnRef) (label : String)
  | plain (ref : ColumnRef) (label : String)
deriving DecidableEq, Repr

namespace OutputColumn

def label : OutputColumn → String
  | .aggregate _ _ label => label
  | .plain _ label => label

def text : OutputColumn → String
  | .aggregate aggregation ref label => aggregation.applied ref.text ++ " AS " ++ label
  | .plain ref label => ref.text ++ " AS " ++ label

end OutputColumn

/-- A dimension table joined to the facts by its key. -/
structure Join where
  table : String
  tableAlias : String
  factKey : ColumnRef
  keyColumn : ColumnRef
deriving DecidableEq, Repr

namespace Join

def text (join : Join) : String :=
  "LEFT JOIN " ++ join.table ++ " " ++ join.tableAlias ++ " ON " ++ join.factKey.text ++ " = " ++
    join.keyColumn.text

end Join

/-- A condition on the rows. -/
inductive Condition where
  | equals (ref : ColumnRef) (value : Value)
  | among (ref : ColumnRef) (values : List Value)
deriving Repr

namespace Condition

/-- The values of a condition, in the order of their places. -/
def values : Condition → List Value
  | .equals _ value => [value]
  | .among _ values => values

/-- The text of a condition. To be among no values is what no row is. -/
def text : Condition → String
  | .equals ref _ => ref.text ++ " = ?"
  | .among _ [] => "1 = 0"
  | .among ref values =>
      ref.text ++ " IN (" ++ String.intercalate ", " (values.map fun _ => "?") ++ ")"

end Condition

/-- A statement over the facts. -/
structure Statement where
  columns : List OutputColumn
  factTable : String
  joins : List Join
  conditions : List Condition
  groups : List ColumnRef
  orders : List ColumnRef
deriving Repr

namespace Statement

/-- The alias of the fact table. -/
def factAlias : String := "fact"

/-- Texts with commas between them. -/
def listed (texts : List String) : String :=
  String.intercalate ", " texts

/-- The lines of a statement. -/
def lines (statement : Statement) : List String :=
  ("SELECT " ++ listed (statement.columns.map OutputColumn.text)) ::
    ("FROM " ++ statement.factTable ++ " " ++ factAlias) ::
    statement.joins.map Join.text ++
    (if statement.conditions.isEmpty then []
      else ["WHERE " ++ String.intercalate " AND " (statement.conditions.map Condition.text)]) ++
    (if statement.groups.isEmpty then []
      else
        ["GROUP BY " ++ listed (statement.groups.map ColumnRef.text),
          "ORDER BY " ++ listed (statement.orders.map ColumnRef.text)])

/-- The text of a statement. -/
def text (statement : Statement) : String :=
  String.intercalate "\n" statement.lines

/-- The values to bind, in the order of their places. -/
def params (statement : Statement) : List Value :=
  statement.conditions.flatMap Condition.values

/-- Adds a column to a list unless one of the same text is in it. -/
def addColumn (refs : List ColumnRef) (ref : ColumnRef) : List ColumnRef :=
  if refs.any (·.text == ref.text) then refs else refs ++ [ref]

/-- The columns of a list, each text once, in the order of first occurrence. -/
def distinctColumns (refs : List ColumnRef) : List ColumnRef :=
  refs.foldl addColumn []

end Statement

end StarCube
