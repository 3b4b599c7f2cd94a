import StarCube.Cube.Dimension
import StarCube.Cube.Measure

/-!
Cubes: a fact table with its measures, the dimensions by which the facts are grouped, and calculated
members. A cube is a description only; its tables live in the store.
-/

namespace StarCube

/-- The definition of a cube. -/
structure Cube where
  name : String
  description : String
  factTable : String
  dimensions : List Dimension
  measures : List Measure
  calculatedMembers : List CalculatedMember
deriving DecidableEq, Repr

namespace Cube

/-- The first dimension of a name. -/
def dimension? (cube : Cube) (name : String) : Option Dimension :=
  cube.dimensions.find? (·.name == name)

/-- The first measure of a name. -/
def measure? (cube : Cube) (name : String) : Option Measure :=
  cube.measures.find? (·.name == name)

/-- The first calculated member of a name. -/
def calculatedMember? (cube : Cube) (name : String) : Option CalculatedMember :=
  cube.calculatedMembers.find? (·.name == name)

/-- The fact table, then the tables of the dimensions, each once. -/
def tables (cube : Cube) : List String :=
  (cube.factTable :: cube.dimensions.map Dimension.table).eraseDups

/-- The same cube over renamed tables. -/
def renameTables (cube : Cube) (rename : String → String) : Cube :=
  { cube with
    factTable := rename cube.factTable
    dimensions := cube.dimensions.map fun dimension =>
      { dimension with table := rename dimension.table } }

end Cube

end StarCube
