import StarCube.Cube

/-!
References to the parts of a cube, and what a message says when there is no such part.
-/

namespace StarCube

/-- A reference to something that is not there. -/
inductive ReferenceFault where
  | unknownCube (cube : String)
  | unknownDimension (dimension : String) (cube : Option String)
  | unknownMeasure (measure : String) (cube : Option String)
  | unknownLevel (dimension level : String) (hierarchy : Option String)
  | unknownHierarchy (dimension hierarchy : String)
deriving DecidableEq, Repr

namespace ReferenceFault

/-- The end of a message that names the cube; an empty name is not mentioned. -/
def inCube : Option String → String
  | none => ""
  | some cube => if cube.isEmpty then "" else " in cube '" ++ cube ++ "'"

/-- Where a level was looked for; an empty name of a hierarchy is not mentioned. -/
def scope : Option String → String
  | none => "any hierarchy"
  | some hierarchy =>
      if hierarchy.isEmpty then "any hierarchy" else "hierarchy '" ++ hierarchy ++ "'"

def message : ReferenceFault → String
  | .unknownCube cube => "Cube '" ++ cube ++ "' not found"
  | .unknownDimension dimension cube => "Dimension '" ++ dimension ++ "' not found" ++ inCube cube
  | .unknownMeasure measure cube => "Measure '" ++ measure ++ "' not found" ++ inCube cube
  | .unknownLevel dimension level hierarchy =>
      "Level '" ++ level ++ "' not found in " ++ scope hierarchy ++ " of dimension '" ++
        dimension ++ "'"
  | .unknownHierarchy dimension hierarchy =>
      "Hierarchy '" ++ hierarchy ++ "' not found in dimension '" ++ dimension ++ "'"

end ReferenceFault

namespace Dimension

/-- The hierarchy of a name. -/
def requireHierarchy (dimension : Dimension) (name : String) : Except ReferenceFault Hierarchy :=
  match dimension.hierarchy? name with
  | some hierarchy => .ok hierarchy
  | none => .error (.unknownHierarchy dimension.name name)

/-- The level of a name. With a hierarchy only that one is searched; without one all hierarchies
are, in the order of declaration. -/
def resolveLevel (dimension : Dimension) (level : String) (hierarchy : Option String) :
    Except ReferenceFault Level := do
  let found ← match hierarchy with
    | none => pure (dimension.findLevel? level)
    | some name => (dimension.requireHierarchy name).map (·.level? level)
  match found with
  | some found => .ok found
  | none => .error (.unknownLevel dimension.name level hierarchy)

end Dimension

namespace Cube

/-- The dimension of a name. -/
def requireDimension (cube : Cube) (name : String) : Except ReferenceFault Dimension :=
  match cube.dimension? name with
  | some dimension => .ok dimension
  | none => .error (.unknownDimension name (some cube.name))

/-- The measure of a name. -/
def requireMeasure (cube : Cube) (name : String) : Except ReferenceFault Measure :=
  match cube.measure? name with
  | some measure => .ok measure
  | none => .error (.unknownMeasure name (some cube.name))

end Cube

end StarCube
