import StarCube.Engine
import StarCube.Engine.Gathering

/-!
Procedures: what an operation of the engine does, step by step. A step reads and changes the state
of the engine at once, changes what is bound around log calls, writes a log record, waits for its
turn to refresh a cube, or asks the store. Between two steps other procedures may take steps of
their own, so a procedure shows all places where they can come in between.
-/

namespace StarCube

/-- An operation under way. -/
inductive Procedure (α : Type) where
  | done (outcome : Except Failure α)
  /-- Changes the state of the engine and goes on with the state before. -/
  | access (update : Engine → Engine) (next : Engine → Procedure α)
  /-- Changes the log context of the procedure and goes on with the context before. -/
  | context (update : LogContext → LogContext) (next : LogContext → Procedure α)
  | emit (record : LogRecord) (next : Procedure α)
  /-- Waits until no other procedure refreshes the cube, and keeps others waiting from then on. -/
  | acquire (cube : String) (next : Procedure α)
  | query (request : StoreQuery) (next : Except Failure QueryResult → Procedure α)
  /-- Waits for the answers to several questions, each of which is told to the log as it comes in,
  and goes on with what they have come to. -/
  | gather (gathering : Gathering) (next : Except Failure (List (List Row)) → Procedure α)
  | execute (statements : List String) (next : Except Failure Unit → Procedure α)

namespace Procedure

variable {α β : Type}

/-- Goes on with what a procedure gives; a failure ends the whole. -/
def bind (procedure : Procedure α) (f : α → Procedure β) : Procedure β :=
  match procedure with
  | .done (.ok value) => f value
  | .done (.error failure) => .done (.error failure)
  | .access update next => .access update fun engine => (next engine).bind f
  | .context update next => .context update fun context => (next context).bind f
  | .emit record next => .emit record (next.bind f)
  | .acquire cube next => .acquire cube (next.bind f)
  | .query request next => .query request fun answer => (next answer).bind f
  | .gather gathering next => .gather gathering fun outcome => (next outcome).bind f
  | .execute statements next => .execute statements fun answer => (next answer).bind f

/-- Goes on after a procedure in either case. -/
def attempt (procedure : Procedure α) (f : Except Failure α → Procedure β) : Procedure β :=
  match procedure with
  | .done outcome => f outcome
  | .access update next => .access update fun engine => (next engine).attempt f
  | .context update next => .context update fun context => (next context).attempt f
  | .emit record next => .emit record (next.attempt f)
  | .acquire cube next => .acquire cube (next.attempt f)
  | .query request next => .query request fun answer => (next answer).attempt f
  | .gather gathering next => .gather gathering fun outcome => (next outcome).attempt f
  | .execute statements next => .execute statements fun answer => (next answer).attempt f

instance : Monad Procedure where
  pure value := .done (.ok value)
  bind := bind

instance : Inhabited (Procedure α) := ⟨.done (.error default)⟩

/-- Ends with a failure. -/
def fail (failure : Failure) : Procedure α :=
  .done (.error failure)

/-- To go on with what a procedure gives is to go on after it, and to end with its failure. -/
theorem bind_eq_attempt (procedure : Procedure α) (f : α → Procedure β) :
    procedure >>= f = procedure.attempt fun
      | .ok value => f value
      | .error failure => fail failure := by
  show procedure.bind f = _
  induction procedure with
  | done outcome => cases outcome <;> rfl
  | access update next ih => exact congrArg _ (funext ih)
  | context update next ih => exact congrArg _ (funext ih)
  | emit record next ih => exact congrArg _ ih
  | acquire cube next ih => exact congrArg _ ih
  | query request next ih => exact congrArg _ (funext ih)
  | gather gathering next ih => exact congrArg _ (funext ih)
  | execute statements next ih => exact congrArg _ (funext ih)

/-- Goes on with a result that has been computed. -/
def ofExcept (outcome : Except Failure α) : Procedure α :=
  .done outcome

/-- The state of the engine. -/
def engine : Procedure Engine :=
  .access id fun engine => .done (.ok engine)

/-- Changes the state of the engine. -/
def update (change : Engine → Engine) : Procedure Unit :=
  .access change fun _ => .done (.ok ())

/-- Changes the catalog, or fails and leaves it as it is. -/
def changeCatalog (change : Catalog → Except Failure Catalog) : Procedure Unit :=
  .access
    (fun engine =>
      match change engine.catalog with
      | .ok catalog => { engine with catalog := catalog }
      | .error _ => engine)
    (fun engine => .done ((change engine.catalog).map fun _ => ()))

/-- Does a clean-up after a procedure in either case. -/
def ensuring (procedure : Procedure α) (cleanup : Procedure Unit) : Procedure α :=
  procedure.attempt fun outcome => cleanup.bind fun _ => .done outcome

/-- Writes a log record with fields of its own. -/
def log (level : LogLevel) (event : String) (fields : Keyed Document) : Procedure Unit :=
  .context id fun context => .emit (context.record level event fields) (.done (.ok ()))

/-- Binds fields around the log calls of a procedure. -/
def within (fields : Keyed Document) (procedure : Procedure α) : Procedure α :=
  .context (·.bind fields) fun before =>
    procedure.ensuring (.context (fun context => { context with bound := before.bound })
      fun _ => .done (.ok ()))

/-- Holds a lease on tables while a procedure runs. -/
def leasing (tables : List String) (procedure : Procedure α) : Procedure α :=
  (update (·.lease tables)).bind fun _ => procedure.ensuring (update (·.release tables))

/-- Refreshes of one cube come one after the other. -/
def exclusively (cube : String) (procedure : Procedure α) : Procedure α :=
  .acquire cube (procedure.ensuring
    (update fun engine => { engine with locks := engine.locks.erase cube }))

end Procedure

/-- What a procedure runs in: where the state of the engine and the log context of the procedure are
kept, where log records go, and the store. -/
structure Host (m : Type → Type) where
  /-- Changes the state of the engine and gives the state before. -/
  access : (Engine → Engine) → m Engine
  /-- Changes the log context of the procedure and gives the context before. -/
  context : (LogContext → LogContext) → m LogContext
  emit : LogRecord → m Unit
  query : StoreQuery → m (Except Failure QueryResult)
  /-- Chooses the question that is answered next; none to let the procedure go on if it can. -/
  choose : Gathering → m (Option Nat)
  execute : List String → m (Except Failure Unit)

section Run

variable {m : Type → Type} [Monad m]

/-- Answers come in to open questions, one after the other and at most a number of them. Where none
is waited for they only come in if the host chooses so. What an answer changes of the log context is
its own. -/
def Gathering.hear (host : Host m) (waits : Gathering → Bool) : Nat → Gathering → m Gathering
  | 0, gathering => pure gathering
  | n + 1, gathering => do
      let chosen ← host.choose gathering
      match gathering.next? (waits gathering) chosen with
      | none => pure gathering
      | some (index, question) => do
          let before ← host.context id
          let answer ← host.query question.request
          let context ← host.context fun _ => before
          host.emit (context.report question.request answer)
          (gathering.settle index (question.outcome answer)).hear host waits n

/-- Questions of which some may still be open when the procedure that has asked them goes on, with
its log context at that moment. -/
structure Leftover where
  context : LogContext
  gathering : Gathering

/-- All that is left open is answered in the end. -/
def Leftover.finish (host : Host m) (left : Leftover) : m Unit := do
  let before ← host.context fun _ => left.context
  discard (left.gathering.hear host (fun _ => true) left.gathering.parts.length)
  discard (host.context fun _ => before)

namespace Procedure

variable {α : Type}

/-- Takes the steps of a procedure from the first to the last, and gives what it leaves open.
Refreshes that other procedures have under way are over when this one asks for its turn. -/
def steps (host : Host m) : Procedure α → m (Except Failure α × List Leftover)
  | .done outcome => pure (outcome, [])
  | .access update next => do
      let engine ← host.access update
      (next engine).steps host
  | .context update next => do
      let context ← host.context update
      (next context).steps host
  | .emit record next => do
      host.emit record
      next.steps host
  | .acquire cube next => do
      let _ ← host.access fun engine => { engine with locks := cube :: engine.locks }
      next.steps host
  | .query request next => do
      let answer ← host.query request
      (next answer).steps host
  | .gather gathering next => do
      let heard ← gathering.hear host (fun gathering => !gathering.ready) gathering.parts.length
      let context ← host.context id
      let (outcome, left) ← (next heard.outcome).steps host
      pure (outcome, ⟨context, heard⟩ :: left)
  | .execute statements next => do
      let answer ← host.execute statements
      (next answer).steps host

/-- Runs a procedure to its end, and then what it has left open. -/
def run (host : Host m) (procedure : Procedure α) : m (Except Failure α) := do
  let (outcome, left) ← procedure.steps host
  left.forM (Leftover.finish host)
  pure outcome

end Procedure

end Run

end StarCube
