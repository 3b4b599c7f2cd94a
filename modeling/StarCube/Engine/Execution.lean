import StarCube.Engine.Procedure
import StarCube.Query.Parser
import StarCube.Query.Statement
import StarCube.Result.Table

/-!
Execution of queries: a statement is compiled against the published definition of a cube, sent to
the store while a lease is held on the tables of that definition, and its rows are shaped into a
table. A failure of the store is the cause of an execution failure.
-/

namespace StarCube

namespace Settings

/-- The time limit for queries that are given none. -/
def timeout (settings : Settings) : Value :=
  match settings.queryTimeout with
  | some seconds => .float seconds
  | none => .null

end Settings

namespace Procedure

/-- Goes on with the rows that the store answers. -/
def answered (request : StoreQuery) (answer : Except Failure QueryResult) : Procedure (List Row) :=
  .context id fun context =>
    .emit (context.report request answer) (ofExcept (rowsOf request.sql answer))

/-- Sends a statement with its values to the store. -/
def send (sql : String) (params : List Value) (timeout : Value) : Procedure (List Row) := do
  let state ← engine
  let limit := if timeout.isNull then state.settings.timeout else timeout
  let request : StoreQuery := ⟨sql, params, limit⟩
  .query request (answered request)

/-- The published definition of a cube. -/
def requireCube (name : String) : Procedure Cube := do
  let state ← engine
  ofExcept (state.catalog.require name)

/-- The statement of a query over a cube. -/
def compile (query : Query) (cube : Cube) : Procedure Statement := do
  let statement ← ofExcept (query.statement cube)
  log .debug "cube_query_compiled"
    [("cube", textField cube.name), ("joins", numberField statement.joins.length),
     ("params", numberField statement.params.length)]
  return statement

/-- Sends the statement of a query and shapes the answer. -/
def evaluate (query : Query) (cube : Cube) (statement : Statement) : Procedure ResultTable := do
  let rows ← leasing cube.tables (send statement.text statement.params .null)
  ofExcept (query.table cube rows)

/-- Runs a query. -/
def runQuery (query : Query) : Procedure ResultTable := do
  let cube ← requireCube query.cube
  let statement ← compile query cube
  evaluate query cube statement

/-- A query text that was submitted for a cube, with its statement. -/
structure Prepared where
  cube : Cube
  query : Query
  statement : Statement

/-- Reads and compiles a query text that is submitted for a cube. -/
def prepare (cube text : String) : Procedure Prepared := do
  let definition ← requireCube cube
  let query ← ofExcept ((Query.parse text).mapError Failure.ofQueryText)
  if query.cube ≠ definition.name then
    fail (.semantic (.otherCube query.cube definition.name))
  else
    let statement ← compile query definition
    return ⟨definition, query, statement⟩

/-- The fields by which a log tells of a failure of the engine. -/
def failureFields (failure : Failure) : Keyed Document :=
  ("error_type", textField failure.kind) :: ("message", textField failure.message) ::
    failure.details.map fun detail => (detail.1, .value detail.2)

/-- Prepares a query text; a failure of the engine's own is logged. -/
def prepareLogged (cube text : String) : Procedure Prepared :=
  (prepare cube text).attempt fun outcome =>
    match outcome with
    | .ok prepared => .done (.ok prepared)
    | .error failure => do
        if failure.isEngine then log .warning "cube_query_rejected" (failureFields failure)
        fail failure

/-- Binds the cube and the name of an operation around its log calls. -/
def operation {α : Type} (cube name : String) (procedure : Procedure α) : Procedure α :=
  within [("cube", textField cube), ("operation", textField name)] procedure

/-- The statement of a query text, which is not sent. -/
def compileQuery (cube text : String) : Procedure Statement := do
  let prepared ← prepare cube text
  return prepared.statement

/-- Runs a query text that is submitted for a cube. -/
def executeQuery (cube text : String) : Procedure ResultTable :=
  operation cube "execute_query" do
    let prepared ← prepareLogged cube text
    evaluate prepared.query prepared.cube prepared.statement

end Procedure

end StarCube
