import StarCube.Failure
import StarCube.Keyed
import StarCube.Log
import StarCube.Masking
import StarCube.Result.Row

/-!
Connectors to a warehouse. A connector holds an open database or none, and a status. What a database
answers at the time of a call is given to the call, so that each may succeed or fail. Texts of the
database are masked before they are passed on.
-/

namespace StarCube

/-- The state that a connection is in. -/
inductive ConnectionStatus where
  | disconnected
  | connecting
  | connected
  | error
deriving DecidableEq, Repr

namespace ConnectionStatus

def name : ConnectionStatus → String
  | .disconnected => "disconnected"
  | .connecting => "connecting"
  | .connected => "connected"
  | .error => "error"

end ConnectionStatus

/-- Why a database does not answer a statement. -/
inductive DatabaseFault where
  | timeout
  | failed (text : String)
deriving DecidableEq, Repr

/-- How a database behaves, by the states `σ` that an open one can be in. -/
structure Database (σ : Type) where
  dialect : String
  /-- Opens the database at an address. -/
  create : String → Except String σ
  /-- Answers a trivial query. -/
  probe : σ → Except String Unit
  dispose : σ → Except String Unit
  query : σ → BoundStatement → Except DatabaseFault QueryResult × σ
  execute : σ → String → Except String Unit × σ

/-- What a time limit means for a query. -/
inductive Deadline where
  | unlimited
  | ahead
  /-- The limit is negative, or no number: it has passed before the query starts. -/
  | passed
  /-- The limit cannot be added to a time. -/
  | unusable
deriving DecidableEq, Repr

namespace Deadline

/-- The meaning of a limit in seconds. An empty one limits nothing. -/
def ofValue (limit : Value) : Deadline :=
  if limit.isEmpty then .unlimited
  else
    match limit with
    | .bool _ => .ahead
    | .int n =>
        if n < 0 then .passed else if (Binary64.ofInt n).isInfinite then .unusable else .ahead
    | .float x => if x.isNaN || x.isNegative then .passed else .ahead
    | .decimal (.finite negative _ _) => if negative then .passed else .unusable
    | .decimal (.infinite negative) => if negative then .passed else .unusable
    | _ => .unusable

end Deadline

/-- What a call of a connector fails with. -/
inductive ConnectorFault where
  | notConnected (statement : String)
  | binds (fault : BindFault)
  /-- No connection could be opened; both texts are masked. -/
  | unreachable (text url : String)
  /-- The database could not be closed. -/
  | disposal (text : String)
  | timeout
  | query (text statement : String)
  | failedStatement (text statement : String)
  /-- The address is no text, so no options can be read off it. -/
  | addressKind (address : Value)
  /-- No connection could be opened, and the address is no text that can be masked. -/
  | addressUnmasked
deriving Repr

namespace ConnectorFault

/-- The failure that a fault of a connector is. -/
def failure : ConnectorFault → Failure
  | .notConnected statement => .store (.query "Not connected to warehouse" statement)
  | .binds fault => .binds fault
  | .unreachable text url =>
      .store (.connection ("Failed to connect to warehouse: " ++ text) (some url))
  | .disposal text => .stated "DisposalError" text
  | .timeout => .store (.timeout "")
  | .query text statement => .store (.query text statement)
  | .failedStatement text statement => .store (.query ("Statement failed: " ++ text) statement)
  | .addressKind address =>
      match address.kindName with
      | some kind =>
          .stated "AttributeError" ("'" ++ kind ++ "' object has no attribute 'startswith'")
      | none => .kinds
  | .addressUnmasked => .kinds

end ConnectorFault

/-- The options with which a database is opened. -/
inductive EngineOptions where
  /-- A database in a file or in memory; one in memory is shared by all of its users. -/
  | embedded (echo : Value) (shared : Bool)
  /-- A database server, with the limits of the pool that are given. -/
  | pooled (echo : Value) (pool : Keyed Value)
deriving Repr

/-- A connector with the database it holds, if any. -/
structure Connector (σ : Type) where
  params : Keyed Value
  /-- The address of the database: a text, unless something else was given in its place. -/
  address : Value
  status : ConnectionStatus
  held : Option σ

namespace Connector

variable {σ : Type}

/-- A connector that is not connected yet. Its parameters have to name an address. -/
def create (params : Keyed Value) : Except Failure (Connector σ) :=
  match params.get? "url" with
  | some address =>
      if address.isEmpty then .error .missingAddress
      else .ok ⟨params, address, .disconnected, none⟩
  | none => .error .missingAddress

/-- The names of the parameters that limit a pool. -/
def poolNames : List String :=
  ["pool_size", "max_overflow", "pool_timeout", "pool_recycle"]

/-- One text occurs in another. -/
def occursIn (part : List Char) : List Char → Bool
  | [] => part.isEmpty
  | c :: rest => part.isPrefixOf (c :: rest) || occursIn part rest

/-- The options for a database at an address. -/
def optionsAt (params : Keyed Value) (url : String) : EngineOptions :=
  let echo := (params.get? "echo").getD (.bool false)
  if "sqlite".toList.isPrefixOf url.toList then
    .embedded echo (occursIn ":memory:".toList url.toList)
  else
    .pooled echo (poolNames.filterMap fun name =>
      match params.get? name with
      | some value => if value.isNull then none else some (name, value)
      | none => none)

/-- The options with which the database is opened. -/
def options (connector : Connector σ) : Except ConnectorFault EngineOptions :=
  match connector.address with
  | .text url => .ok (optionsAt connector.params url)
  | address => .error (.addressKind address)

/-- The connector after it could not open its database for a reason with a text. -/
def refused (connector : Connector σ) (url text : String) :
    Except ConnectorFault Unit × Connector σ :=
  (.error (.unreachable (maskCredentials text) (maskCredentials url)),
    { connector with status := .error, held := none })

/-- Gives up a connection that could not be opened. If the database cannot be closed, it is still
held. -/
def abandon (connector : Connector σ) (database : Database σ) (opened : σ) (url text : String) :
    Except ConnectorFault Unit × Connector σ :=
  match database.dispose opened with
  | .ok _ => connector.refused url text
  | .error fault =>
      (.error (.disposal fault), { connector with status := .error, held := some opened })

/-- Opens the database and sees that it answers. A connector that holds one is left as it is. -/
def connect (connector : Connector σ) (database : Database σ) :
    Except ConnectorFault Unit × Connector σ :=
  match connector.held with
  | some _ => (.ok (), connector)
  | none =>
      match connector.address with
      | .text url =>
          match database.create url with
          | .error text => connector.refused url text
          | .ok opened =>
              match database.probe opened with
              | .ok _ => (.ok (), { connector with status := .connected, held := some opened })
              | .error text => connector.abandon database opened url text
      | _ => (.error .addressUnmasked, { connector with status := .error })

/-- Closes the database, if one is held. -/
def disconnect (connector : Connector σ) (database : Database σ) :
    Except ConnectorFault Unit × Connector σ :=
  match connector.held with
  | none => (.ok (), { connector with status := .disconnected })
  | some opened =>
      match database.dispose opened with
      | .ok _ => (.ok (), { connector with status := .disconnected, held := none })
      | .error text => (.error (.disposal text), connector)

/-- Whether the database answers. -/
def test (connector : Connector σ) (database : Database σ) : Bool :=
  match connector.held with
  | none => false
  | some opened =>
      match database.probe opened with
      | .ok _ => true
      | .error _ => false

/-- The record of a connection that was opened. -/
def openedRecord (database : Database σ) (context : LogContext) : LogRecord :=
  context.record .info "warehouse_connected" [("dialect", .value (.text database.dialect))]

/-- Sends a bound statement to an open database. -/
def send (connector : Connector σ) (database : Database σ) (opened : σ) (sql : String)
    (bound : BoundStatement) : Except ConnectorFault QueryResult × Connector σ :=
  let (answer, after) := database.query opened bound
  let connector := { connector with held := some after }
  match answer with
  | .ok result => (.ok result, connector)
  | .error .timeout => (.error .timeout, connector)
  | .error (.failed text) => (.error (.query (maskCredentials text) sql), connector)

/-- Sends a statement whose placeholders are bound to values, with a time limit. -/
def query (connector : Connector σ) (database : Database σ) (sql : String) (params : List Value)
    (limit : Value) : Except ConnectorFault QueryResult × Connector σ :=
  match connector.held with
  | none => (.error (.notConnected sql), connector)
  | some opened =>
      match bindPlaceholders sql params with
      | .error fault => (.error (.binds fault), connector)
      | .ok bound =>
          match Deadline.ofValue limit with
          | .passed => (.error .timeout, connector)
          | .unusable => (.error (.query "The time limit is no number of seconds" sql), connector)
          | _ => connector.send database opened sql bound

/-- Executes statements on an open database up to the first that fails. -/
def executeFrom (database : Database σ) (opened : σ) :
    List String → Except ConnectorFault Unit × σ
  | [] => (.ok (), opened)
  | statement :: rest =>
      match database.execute opened statement with
      | (.ok _, after) => executeFrom database after rest
      | (.error text, after) => (.error (.failedStatement (maskCredentials text) statement), after)

/-- Executes statements one after the other. -/
def execute (connector : Connector σ) (database : Database σ) (statements : List String) :
    Except ConnectorFault Unit × Connector σ :=
  match connector.held with
  | none => (.error (.notConnected (String.intercalate "; " statements)), connector)
  | some opened =>
      let (outcome, after) := executeFrom database opened statements
      (outcome, { connector with held := some after })

end Connector

end StarCube
