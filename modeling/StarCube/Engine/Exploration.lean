import StarCube.Engine.Execution
import StarCube.Query.MemberReference
import StarCube.Result.Growth

/-!
Exploration of a cube by queries that are put together from references: slices, drill-down, rankings
and growth rates. They are compiled and run as a query text is.
-/

namespace StarCube

namespace Query

/-- The values that a filter admits: a list of them, or a single one. -/
def filterValues : Value → List Value
  | .list items => items
  | value => [value]

/-- The query of measures by levels, restricted by filters. -/
def ofSlice (cube : Cube) (name : String) (dimensions measures : List String)
    (filters : Keyed Value) : Except Failure Query := do
  let levels ← dimensions.mapM cube.levelRef
  let conditions ← filters.mapM fun filter => do
    let level ← cube.levelRef filter.1
    return Predicate.among level (filterValues filter.2)
  return ⟨levels.map SelectItem.level ++ measures.map SelectItem.measure, name, conditions⟩

/-- The levels of a drill path that are not selected yet. -/
def pathLevels (cube : Cube) (selected : List String) :
    List String → Except Failure (List LevelRef)
  | [] => .ok []
  | reference :: rest => do
      let level ← cube.levelRef reference
      if selected.contains level.label then pathLevels cube selected rest
      else
        let others ← pathLevels cube (level.label :: selected) rest
        return level :: others

/-- The query with the levels of a drill path in front of its select list. -/
def drilled (query : Query) (cube : Cube) (path : List String) : Except Failure Query := do
  let levels ← pathLevels cube (query.levels.map LevelRef.label) path
  return { query with select := levels.map SelectItem.level ++ query.select }

/-- The query of one measure by one level. -/
def ofSeries (cube : Cube) (name dimension measure : String) : Except Failure Query := do
  let level ← cube.levelRef dimension
  return ⟨[.level level, .measure measure], name, []⟩

end Query

namespace Procedure

/-- Aggregates measures by levels. -/
def sliceAndDice (cube : String) (dimensions measures : List String) (filters : Keyed Value) :
    Procedure ResultTable :=
  operation cube "slice_and_dice" do
    let definition ← requireCube cube
    let query ← ofExcept (Query.ofSlice definition cube dimensions measures filters)
    runQuery query

/-- Runs a query again with further levels in front. -/
def drillQuery (query : Query) (path : List String) : Procedure ResultTable := do
  let definition ← requireCube query.cube
  let drilled ← ofExcept (query.drilled definition path)
  runQuery drilled

/-- Runs a query text with the levels of a path in front of its select list. -/
def drillDown (cube text : String) (path : List String) : Procedure ResultTable :=
  operation cube "drill_down" do
    let prepared ← prepareLogged cube text
    drillQuery prepared.query path

/-- The rows of one measure by one level, for which a count is asked. -/
def series (cube dimension measure what : String) (count : Int) : Procedure ResultTable := do
  if count < 0 then fail (.negative what)
  else
    let definition ← requireCube cube
    let query ← ofExcept (Query.ofSeries definition cube dimension measure)
    runQuery query

/-- The first members of a level by a measure. -/
def rankings (cube dimension measure : String) (count : Option Int) : Procedure (List Ranked) := do
  let state ← engine
  let count := count.getD state.settings.defaultTopN
  operation cube "calculate_rankings" do
    let table ← series cube dimension measure "top_n" count
    ofExcept (table.ranking count.toNat)

/-- The growth of a measure along a level. -/
def growthRates (cube dimension measure : String) (count : Option Int) :
    Procedure (List GrowthPoint) := do
  let state ← engine
  let count := count.getD state.settings.defaultGrowthPeriods
  operation cube "calculate_growth_rates" do
    let table ← series cube dimension measure "periods" count
    ofExcept (table.growth count.toNat)

end Procedure

end StarCube
