import StarCube.Cube
import StarCube.Sql.Identifier

/-!
The consistency of a cube: names without collisions, hierarchies with levels, identifiers that may
be written into statements, and formulas over measures of the cube. The first fault found is the one
reported.
-/

namespace StarCube

/-- The names of a list that occurred before, in the order in which they recur. -/
def recurring (seen : List String) : List String → List String
  | [] => []
  | name :: rest =>
      if seen.contains name then name :: recurring seen rest else recurring (name :: seen) rest

/-- The names that occur more than once, each once. -/
def duplicates (names : List String) : List String :=
  (recurring [] names).eraseDups

/-- Why a cube is inconsistent. -/
inductive SchemaReason where
  | emptyName
  | duplicateDimensions (names : List String)
  | duplicateMeasures (names : List String)
  | duplicateMembers (names : List String)
  | identifier (fault : IdentifierFault)
  | noHierarchies (dimension : String)
  | noLevels (hierarchy dimension : String)
  | duplicateLevels (hierarchy : String) (names : List String)
  | malformedMember (member : String) (fault : FormulaFault)
  | unknownMeasures (member : String) (names : List String)
  /-- A reason that is given as text. -/
  | stated (reason : String)
deriving DecidableEq, Repr

namespace SchemaReason

/-- Names with commas between them. -/
def listed (names : List String) : String :=
  String.intercalate ", " names

def message : SchemaReason → String
  | .emptyName => "cube name must not be empty"
  | .duplicateDimensions names => "duplicate dimension names: " ++ listed names
  | .duplicateMeasures names => "duplicate measure names: " ++ listed names
  | .duplicateMembers names => "duplicate measure or calculated member names: " ++ listed names
  | .identifier fault => fault.message
  | .noHierarchies dimension => "dimension '" ++ dimension ++ "' has no hierarchies"
  | .noLevels hierarchy dimension =>
      "hierarchy '" ++ hierarchy ++ "' of dimension '" ++ dimension ++ "' has no levels"
  | .duplicateLevels hierarchy names =>
      "duplicate level names in hierarchy '" ++ hierarchy ++ "': " ++ listed names
  | .malformedMember member fault => "calculated member '" ++ member ++ "': " ++ fault.message
  | .unknownMeasures member names =>
      "calculated member '" ++ member ++ "' references unknown measures: " ++ listed names
  | .stated reason => reason

end SchemaReason

/-- Refuses names of which some occur more than once. -/
def checkDistinct (reason : List String → SchemaReason) (names : List String) :
    Except SchemaReason Unit :=
  if duplicates names = [] then .ok () else .error (reason (duplicates names))

/-- Refuses what is no identifier. -/
def checkRole (what text : String) : Except SchemaReason Unit :=
  match checkIdentifier what text with
  | .ok _ => .ok ()
  | .error fault => .error (.identifier fault)

namespace Level

def check (level : Level) : Except SchemaReason Unit := do
  checkRole "level name" level.name
  checkRole "level column" level.column
  checkRole "level order column" level.sortColumn

end Level

namespace Hierarchy

def check (dimension : String) (hierarchy : Hierarchy) : Except SchemaReason Unit := do
  if hierarchy.levels = [] then throw (.noLevels hierarchy.name dimension)
  checkDistinct (.duplicateLevels hierarchy.name) (hierarchy.levels.map Level.name)
  hierarchy.levels.forM Level.check

end Hierarchy

namespace Dimension

def check (dimension : Dimension) : Except SchemaReason Unit := do
  checkRole "dimension name" dimension.name
  checkRole "dimension table" dimension.table
  checkRole "key column" dimension.keyColumn
  checkRole "name column" dimension.nameColumn
  dimension.attributes.forM fun described =>
    checkRole "attribute column" described.column
  if dimension.hierarchies = [] then throw (.noHierarchies dimension.name)
  dimension.hierarchies.forM (Hierarchy.check dimension.name)

end Dimension

namespace Measure

def check (measure : Measure) : Except SchemaReason Unit := do
  checkRole "measure name" measure.name
  checkRole "measure column" measure.column

end Measure

namespace CalculatedMember

/-- Checks that the formula can be read and refers to the given measures only. -/
def check (known : List String) (member : CalculatedMember) : Except SchemaReason Unit :=
  match member.measures with
  | .error fault => .error (.malformedMember member.name fault)
  | .ok measures =>
      let unknown := measures.filter fun measure => !known.contains measure
      if unknown = [] then .ok () else .error (.unknownMeasures member.name unknown)

end CalculatedMember

namespace Cube

/-- Checks a cube for consistency. -/
def check (cube : Cube) : Except SchemaReason Unit := do
  let measures := cube.measures.map Measure.name
  if cube.name.isEmpty then throw .emptyName
  checkDistinct .duplicateDimensions (cube.dimensions.map Dimension.name)
  checkDistinct .duplicateMeasures measures
  checkDistinct .duplicateMembers (measures ++ cube.calculatedMembers.map CalculatedMember.name)
  checkRole "fact table" cube.factTable
  cube.measures.forM Measure.check
  cube.dimensions.forM Dimension.check
  cube.calculatedMembers.forM (CalculatedMember.check measures)

end Cube

end StarCube
