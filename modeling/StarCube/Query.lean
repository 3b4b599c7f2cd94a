import StarCube.Value

/-!
Queries of cubes: the measures and levels to select, the cube, and the predicates that restrict it.
Only the form is fixed here; whether the names exist is decided against a cube.
-/

namespace StarCube

/-- A level of a dimension, in a named hierarchy or in whichever has it first. -/
structure LevelRef where
  dimension : String
  level : String
  hierarchy : Option String
deriving DecidableEq, Repr

namespace LevelRef

/-- The label under which a level is selected. -/
def label (ref : LevelRef) : String :=
  ref.dimension ++ "_" ++ ref.level

end LevelRef

/-- An item of a select list. -/
inductive SelectItem where
  | measure (name : String)
  | level (ref : LevelRef)
deriving DecidableEq, Repr

namespace SelectItem

/-- The label of the column that an item selects. -/
def label : SelectItem → String
  | .measure name => name
  | .level ref => ref.label

def measure? : SelectItem → Option String
  | .measure name => some name
  | .level _ => none

def level? : SelectItem → Option LevelRef
  | .measure _ => none
  | .level ref => some ref

end SelectItem

/-- A condition on the members of a level. -/
inductive Predicate where
  | equals (ref : LevelRef) (value : Value)
  | among (ref : LevelRef) (values : List Value)
deriving Repr

namespace Predicate

def ref : Predicate → LevelRef
  | .equals ref _ => ref
  | .among ref _ => ref

/-- The values that a condition compares with, in order. -/
def values : Predicate → List Value
  | .equals _ value => [value]
  | .among _ values => values

end Predicate

/-- A query of one cube. -/
structure Query where
  select : List SelectItem
  cube : String
  conditions : List Predicate
deriving Repr

namespace Query

/-- The measures of the select list. -/
def measures (query : Query) : List String :=
  query.select.filterMap SelectItem.measure?

/-- The levels of the select list. -/
def levels (query : Query) : List LevelRef :=
  query.select.filterMap SelectItem.level?

end Query

end StarCube
