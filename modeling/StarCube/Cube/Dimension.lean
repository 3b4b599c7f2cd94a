import StarCube.Text.LowerCase

/-!
Dimensions of a cube: each has a table of its own and one or more hierarchies, the ordered paths by
which its members are drilled down, coarsest level first.
-/

namespace StarCube

/-- A level of a hierarchy: the column of its members, and the column that orders them if it is
another one. -/
structure Level where
  name : String
  column : String
  orderBy : Option String
deriving DecidableEq, Repr

namespace Level

/-- The column by which the members are sorted. An empty one counts as not given. -/
def sortColumn (level : Level) : String :=
  match level.orderBy with
  | some column => if column.isEmpty then level.column else column
  | none => level.column

end Level

/-- A drill-down path. -/
structure Hierarchy where
  name : String
  levels : List Level
deriving DecidableEq, Repr

namespace Hierarchy

/-- The first level of a name. -/
def level? (hierarchy : Hierarchy) (name : String) : Option Level :=
  hierarchy.levels.find? (·.name == name)

end Hierarchy

/-- What the values of an attribute are. -/
inductive AttributeType where
  | string
  | number
  | date
  | boolean
deriving DecidableEq, Repr

namespace AttributeType

def all : List AttributeType :=
  [.string, .number, .date, .boolean]

def name : AttributeType → String
  | .string => "string"
  | .number => "number"
  | .date => "date"
  | .boolean => "boolean"

end AttributeType

/-- A descriptive column outside the hierarchies. -/
structure Attribute where
  name : String
  column : String
  dataType : AttributeType
deriving DecidableEq, Repr

/-- A dimension of a cube. -/
structure Dimension where
  name : String
  table : String
  keyColumn : String
  nameColumn : String
  hierarchies : List Hierarchy
  attributes : List Attribute
deriving DecidableEq, Repr

namespace Dimension

/-- The column of the fact table that refers to this dimension. -/
def factKey (dimension : Dimension) : String :=
  Text.lowerCase dimension.name ++ "_key"

/-- The alias under which the table of this dimension is joined. -/
def tableAlias (dimension : Dimension) : String :=
  "d_" ++ Text.lowerCase dimension.name

/-- The first hierarchy of a name. -/
def hierarchy? (dimension : Dimension) (name : String) : Option Hierarchy :=
  dimension.hierarchies.find? (·.name == name)

/-- The first level of a name in any hierarchy, in the order of declaration. -/
def findLevel? (dimension : Dimension) (name : String) : Option Level :=
  dimension.hierarchies.findSome? (·.level? name)

end Dimension

end StarCube
