import StarCube.Cube.Reference
import StarCube.Cube.Schema
import StarCube.Document
import StarCube.Query.Token
import StarCube.Sql.Placeholder
import StarCube.Text.Display

/-!
What can go wrong, as one type. A failure has a kind by which it is reported, a message and details.
The engine's own failures are told apart from those of the values it is given and of the store.
-/

namespace StarCube

/-- Why a query does not fit a cube, other than by a missing reference. -/
inductive SemanticReason where
  /-- The query names another cube than the one it was submitted for. -/
  | otherCube (named submitted : String)
  | repeatedLabel (label : String)
  /-- A reason that is given as text. -/
  | stated (reason : String)
deriving DecidableEq, Repr

namespace SemanticReason

def message : SemanticReason → String
  | .otherCube named submitted =>
      "Query selects FROM '" ++ named ++ "' but was submitted for cube '" ++ submitted ++ "'"
  | .repeatedLabel label => "Column '" ++ label ++ "' is selected more than once"
  | .stated reason => reason

end SemanticReason

/-- A failure that a store reports. -/
inductive StoreFault where
  | query (message statement : String)
  | connection (message : String) (url : Option String)
  | timeout (message : String)
  | value (message : String)
deriving DecidableEq, Repr

namespace StoreFault

def message : StoreFault → String
  | .query message _ => message
  | .connection message _ => message
  | .timeout message => message
  | .value message => message

/-- The kind by which a fault of the store is reported. -/
def kind : StoreFault → String
  | .query .. => "QueryError"
  | .connection .. => "ConnectionError"
  | .timeout _ => "TimeoutError"
  | .value _ => "ValueError"

end StoreFault

/-- What can go wrong. -/
inductive Failure where
  | engine (reason : String)
  | catalog (reason : String)
  | duplicateCube (cube : String)
  | schema (cube : String) (reason : SchemaReason)
  | misread (line : Int) (column : Option Int) (reason : SyntaxReason)
  | semantic (reason : SemanticReason)
  | reference (fault : ReferenceFault)
  | execution (cause : Failure) (sql : Option String)
  | refresh (cube : String) (cause : Failure)
  | identifier (fault : IdentifierFault)
  | formula (fault : FormulaFault)
  /-- A text that refers to no level of a dimension. -/
  | memberReference (text : String)
  /-- A negative count where one of none or more is asked for. -/
  | negative (what : String)
  /-- The first hierarchy or the last level was asked for where there is none. -/
  | noneToTake
  | staleVersion (cube : String) (version current : Int)
  | keptVersions (least : Nat)
  | missingAddress
  | conversion (fault : ConversionFault)
  /-- Values of kinds that cannot be compared or be members of a set. -/
  | kinds
  /-- A decimal was compared with a number, and one of the two is no number. -/
  | undefinedOrder
  | document (issues : List Issue)
  | binds (fault : BindFault)
  | store (fault : StoreFault)
  /-- A failure that is known by its kind and message only. -/
  | stated (kind message : String)
deriving Repr

namespace Failure

instance : Inhabited Failure := ⟨.kinds⟩

/-- The kind by which a failure is reported. -/
def kind : Failure → String
  | .engine _ => "CubeEngineError"
  | .catalog _ => "CatalogError"
  | .duplicateCube _ => "DuplicateCubeError"
  | .schema .. => "SchemaError"
  | .misread .. => "QuerySyntaxError"
  | .semantic _ => "SemanticError"
  | .reference (.unknownCube _) => "UnknownCubeError"
  | .reference (.unknownDimension ..) => "UnknownDimensionError"
  | .reference (.unknownMeasure ..) => "UnknownMeasureError"
  | .reference (.unknownLevel ..) => "UnknownLevelError"
  | .reference (.unknownHierarchy ..) => "UnknownHierarchyError"
  | .execution .. => "ExecutionError"
  | .refresh .. => "RefreshError"
  | .identifier _ => "ValueError"
  | .formula _ => "ExpressionError"
  | .memberReference _ => "ValueError"
  | .negative _ => "ValueError"
  | .noneToTake => "IndexError"
  | .staleVersion .. => "ValueError"
  | .keptVersions _ => "ValueError"
  | .missingAddress => "ValueError"
  | .conversion .tooLarge => "OverflowError"
  | .conversion .tooManyPlaces => "MemoryError"
  | .conversion .infiniteFloat => "OverflowError"
  | .conversion .infiniteDecimal => "OverflowError"
  | .conversion .kind => "TypeError"
  | .conversion _ => "ValueError"
  | .kinds => "TypeError"
  | .undefinedOrder => "InvalidOperation"
  | .document _ => "ValidationError"
  | .binds _ => "QueryError"
  | .store fault => fault.kind
  | .stated kind _ => kind

/-- The message of a failure. One of an execution or a refresh repeats that of its cause. -/
def message : Failure → String
  | .engine reason => reason
  | .catalog reason => reason
  | .duplicateCube cube => "Cube '" ++ cube ++ "' is already registered"
  | .schema cube reason => "Invalid cube '" ++ cube ++ "': " ++ reason.message
  | .misread line column reason =>
      "Syntax error at line " ++ toString line ++
        (match column with
          | some column => ", column " ++ toString column
          | none => "") ++ ": " ++ reason.message
  | .semantic reason => reason.message
  | .reference fault => fault.message
  | .execution cause _ => "Query execution failed: " ++ cause.message
  | .refresh cube cause => "Refresh of cube '" ++ cube ++ "' failed: " ++ cause.message
  | .identifier fault => fault.message
  | .formula fault => fault.message
  | .memberReference text => "Invalid dimension reference: " ++ Text.display text
  | .negative what => what ++ " must not be negative"
  | .noneToTake => "list index out of range"
  | .staleVersion cube version current =>
      "Version " ++ toString version ++ " of cube '" ++ cube ++ "' is not newer than " ++
        toString current
  | .keptVersions least => "keep_versions must be at least " ++ toString least
  | .missingAddress => "connection_params must include a database 'url'"
  | .conversion fault => fault.message
  | .kinds => ""
  | .undefinedOrder => "[<class 'decimal.InvalidOperation'>]"
  | .document _ => ""
  | .binds fault => fault.message
  | .store fault => fault.message
  | .stated _ message => message

/-- The failures of the engine itself. -/
def isEngine : Failure → Bool
  | .engine _ => true
  | .catalog _ => true
  | .duplicateCube _ => true
  | .schema .. => true
  | .misread .. => true
  | .semantic _ => true
  | .reference _ => true
  | .execution .. => true
  | .refresh .. => true
  | _ => false

/-- A detail that is only there if it is known. -/
def optional (name : String) : Option String → List (String × Value)
  | some content => [(name, .text content)]
  | none => []

/-- What a failure of the engine is about, by name. -/
def details : Failure → List (String × Value)
  | .duplicateCube cube => [("cube_name", .text cube)]
  | .schema cube reason => [("cube_name", .text cube), ("reason", .text reason.message)]
  | .misread line column reason =>
      ("line", .int line) ::
        ((column.map fun column => ("column", Value.int column)).toList ++
          [("reason", .text reason.message)])
  | .reference (.unknownCube cube) => [("cube_name", .text cube)]
  | .reference (.unknownDimension dimension cube) =>
      optional "cube_name" cube ++ [("dimension", .text dimension)]
  | .reference (.unknownMeasure measure cube) =>
      optional "cube_name" cube ++ [("measure", .text measure)]
  | .reference (.unknownLevel dimension level hierarchy) =>
      [("dimension", .text dimension), ("level", .text level)] ++ optional "hierarchy" hierarchy
  | .reference (.unknownHierarchy dimension hierarchy) =>
      [("dimension", .text dimension), ("hierarchy", .text hierarchy)]
  | .refresh cube _ => [("cube_name", .text cube)]
  | _ => []

/-- The failure that a fault of query text is. -/
def ofQueryText : QueryTextFault → Failure
  | .misread line column reason => .misread line (some (column : Int)) reason
  | .numeral fault => .conversion fault

end Failure

end StarCube
