import StarCube.Log
import StarCube.Masking
import StarCube.Result.Row

/-!
Questions that are put to the store side by side. The store is given all of them at once and answers
in any order. The failure that comes first decides: whoever waits for the answers goes on with it,
though other questions may still be open. What the store answers to these is told to the log alone.
-/

namespace StarCube

/-- A query as it is sent to the store. -/
structure StoreQuery where
  sql : String
  params : List Value
  /-- The time limit in seconds; null for none. -/
  timeout : Value
deriving Repr

/-- The record that tells of an answer of the store. -/
def LogContext.report (context : LogContext) (request : StoreQuery) :
    Except Failure QueryResult → LogRecord
  | .ok result =>
      context.record .info "cube_query_executed" [("rows", numberField result.rows.length)]
  | .error (.store (.timeout _)) =>
      context.record .error "cube_query_timed_out"
        [("timeout_seconds", .value request.timeout), ("sql", textField request.sql)]
  | .error failure =>
      context.record .error "cube_query_failed"
        [("error", textField (maskCredentials failure.message)),
         ("error_type", textField failure.kind), ("sql", textField request.sql)]

/-- The rows that the store answers to a statement. Its failure is the cause of an execution
failure. -/
def rowsOf (sql : String) : Except Failure QueryResult → Except Failure (List Row)
  | .ok result => .ok result.rows
  | .error failure => .error (.execution failure (some sql))

/-- A question to the store, with what comes of the answer. -/
structure Question where
  request : StoreQuery
  outcome : Except Failure QueryResult → Except Failure (List Row)

/-- Where one of several questions stands: it is open, or it is over with an outcome. -/
inductive Part where
  | asked (question : Question)
  | settled (outcome : Except Failure (List Row))

namespace Part

/-- A question that cannot be put is over with the reason. -/
def ofQuestion : Except Failure Question → Part
  | .ok question => .asked question
  | .error failure => .settled (.error failure)

def question? : Part → Option Question
  | .asked question => some question
  | .settled _ => none

def failure? : Part → Option Failure
  | .settled (.error failure) => some failure
  | _ => none

/-- The rows that a part has come to. -/
def rows : Part → List Row
  | .settled (.ok rows) => rows
  | _ => []

end Part

/-- Questions that are asked side by side, with the failure that came first. -/
structure Gathering where
  parts : List Part
  failure : Option Failure

namespace Gathering

/-- Puts questions in their order. -/
def ofQuestions (questions : List (Except Failure Question)) : Gathering :=
  let parts := questions.map Part.ofQuestion
  ⟨parts, parts.findSome? Part.failure?⟩

/-- An open question. -/
def question? (gathering : Gathering) (index : Nat) : Option Question :=
  gathering.parts[index]?.bind Part.question?

/-- A part is over. An earlier failure stays the first. -/
def settle (gathering : Gathering) (index : Nat) (outcome : Except Failure (List Row)) :
    Gathering :=
  ⟨gathering.parts.set index (.settled outcome),
    gathering.failure.or (Part.settled outcome).failure?⟩

/-- What the store has not answered yet. -/
def requests (gathering : Gathering) : List StoreQuery :=
  gathering.parts.filterMap fun part => part.question?.map Question.request

/-- There is no need to wait any more: a part has failed, or all are over. -/
def ready (gathering : Gathering) : Bool :=
  gathering.failure.isSome || gathering.requests.isEmpty

/-- What the questions have come to: the first failure, or the rows of each in the order in which
the questions were put. -/
def outcome (gathering : Gathering) : Except Failure (List (List Row)) :=
  match gathering.failure with
  | some failure => .error failure
  | none => .ok (gathering.parts.map Part.rows)

/-- The question that is answered next: one that is chosen, if it is open, or the first open one as
long as answers are waited for. -/
def next? (gathering : Gathering) (waits : Bool) (chosen : Option Nat) : Option (Nat × Question) :=
  let first := gathering.parts.findIdx? fun part => part.question?.isSome
  (chosen.bind fun index => (gathering.question? index).map (index, ·)).or <|
    if waits then first.bind fun index => (gathering.question? index).map (index, ·) else none

end Gathering

end StarCube
