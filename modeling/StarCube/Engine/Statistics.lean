import StarCube.Engine.Execution

/-!
Statistics of a cube: how many facts it has, over which dates they range, and how many current
members each dimension has. The store is asked for all of this side by side, and the failure that
comes first is that of the whole.
-/

namespace StarCube

/-- The size and the coverage of a cube. -/
structure CubeStatistics where
  cube : String
  factTable : String
  records : Int
  earliest : Value
  latest : Value
  /-- The number of members by dimension. -/
  dimensions : List (String × Int)
  measures : Nat
  calculatedMembers : Nat
  version : Int
  refreshedAt : Option Instant
deriving Repr

/-- The statement that counts the facts and finds their first and last date. -/
def factStatement (table dateColumn : String) : String :=
  "SELECT COUNT(*) AS total_records, MIN(" ++ dateColumn ++ ") AS earliest_date, MAX(" ++
    dateColumn ++ ") AS latest_date\nFROM " ++ table

/-- The statement that counts the current members of a dimension. -/
def countStatement (table keyColumn flagColumn : String) : String :=
  "SELECT COUNT(DISTINCT " ++ keyColumn ++ ") AS member_count\nFROM " ++ table ++ "\nWHERE " ++
    flagColumn ++ " = ?"

/-- The first row; an empty one if there is none. -/
def firstRow (rows : List Row) : Row :=
  rows.headD []

/-- The count in a column of a row. -/
def countIn (row : Row) (column : String) : Except Failure Int :=
  ((row.exactCell column).toCount).mapError Failure.conversion

/-- The question for the facts. -/
def factQuestion (settings : Settings) (table : String) : Question :=
  let sql := factStatement table settings.statisticsDateColumn
  ⟨⟨sql, [], settings.timeout⟩, rowsOf sql⟩

/-- The question for the number of the current members of a dimension. An answer without such a
number is its failure. -/
def memberQuestion (settings : Settings) (table keyColumn : String) : Question :=
  let sql := countStatement table keyColumn settings.currentFlagColumn
  ⟨⟨sql, [.bool true], settings.timeout⟩, fun answer => do
    let rows ← rowsOf sql answer
    discard (countIn (firstRow rows) "member_count")
    return rows⟩

/-- The question for a dimension, whose table and key are to be written into it. -/
def countQuestion (settings : Settings) (dimension : Dimension) : Except Failure Question := do
  let table ← requireIdentifier "table name" dimension.table
  let keyColumn ← requireIdentifier "column name" dimension.keyColumn
  return memberQuestion settings table keyColumn

/-- The questions for the statistics of a cube: that for the facts, and one for each dimension. -/
def Cube.questions (cube : Cube) (settings : Settings) (table : String) :
    List (Except Failure Question) :=
  .ok (factQuestion settings table) :: cube.dimensions.map (countQuestion settings)

/-- The number of the members of each dimension, from the rows that tell of it. -/
def memberCounts (dimensions : List Dimension) (counts : List (List Row)) :
    Except Failure (List (String × Int)) :=
  (dimensions.zip counts).mapM fun (dimension, rows) =>
    (countIn (firstRow rows) "member_count").map (dimension.name, ·)

/-- The statistics that the rows tell which have been asked for. -/
def CatalogEntry.statistics (entry : CatalogEntry) (rows : List (List Row)) :
    Except Failure CubeStatistics := do
  let cube := entry.published
  let counts ← memberCounts cube.dimensions (rows.drop 1)
  let fact := firstRow (rows.headD [])
  let records ← countIn fact "total_records"
  return {
    cube := cube.name
    factTable := cube.factTable
    records := records
    earliest := fact.exactCell "earliest_date"
    latest := fact.exactCell "latest_date"
    dimensions := counts
    measures := cube.measures.length
    calculatedMembers := cube.calculatedMembers.length
    version := entry.version
    refreshedAt := entry.refreshedAt }

namespace Procedure

/-- Asks questions side by side. -/
def ask (questions : List (Except Failure Question)) : Procedure (List (List Row)) :=
  .gather (.ofQuestions questions) ofExcept

/-- The statistics of a cube. -/
def statistics (cube : String) : Procedure CubeStatistics :=
  operation cube "get_cube_statistics" do
    let state ← engine
    let entry ← ofExcept (state.catalog.entry cube)
    let published := entry.published
    let table ← ofExcept (requireIdentifier "table name" published.factTable)
    let rows ← leasing published.tables (ask (published.questions state.settings table))
    ofExcept (entry.statistics rows)

end Procedure

end StarCube
