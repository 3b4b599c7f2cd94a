import StarCube.Document.Reader
import StarCube.Keyed
import StarCube.Text.LowerCase

/-!
Results of a store: columns and rows of cells, as they are reported and as rows keyed by column.
-/

namespace StarCube

/-- A row of a result, keyed by column. -/
abbrev Row := Keyed Value

namespace Row

/-- A row from the columns and the cells. A column that is repeated keeps its first place and its
last cell; columns without a cell and cells without a column are dropped. -/
def ofCells (columns : List String) (cells : List Value) : Row :=
  Keyed.putAll [] (columns.zip cells)

/-- The cell of a column. Where no column has just that name, the first one that differs in letter
case only is taken, because some stores fold the case of labels. -/
def cell (row : Row) (column : String) : Value :=
  match row.get? column with
  | some value => value
  | none =>
      match row.find? fun entry => Text.lowerCase entry.1 == Text.lowerCase column with
      | some entry => entry.2
      | none => .null

/-- The cell of a column of just that name. -/
def exactCell (row : Row) (column : String) : Value :=
  (row.get? column).getD .null

end Row

/-- What a store answers to a query. -/
structure QueryResult where
  columns : List String
  data : List (List Value)
deriving Repr

namespace QueryResult

/-- The rows of a result, keyed by column. -/
def rows (result : QueryResult) : List Row :=
  result.data.map (Row.ofCells result.columns)

/-- A cell of any kind. A document that is more than a value stands for none. -/
def cellOf : Document → Reading Value
  | .value content => .ok content
  | _ => .ok .null

/-- Reads a result from its columns and its rows. -/
def ofDocuments (columns data : Document) : Reading QueryResult :=
  QueryResult.mk <$> (Document.asList Document.asText columns).within "columns" <*>
    (Document.asList (Document.asList cellOf) data).within "data"

end QueryResult

end StarCube
