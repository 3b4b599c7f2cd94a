import StarCube.Document
import StarCube.Failure
import StarCube.Keyed
import StarCube.Settings

/-!
Log records: a level, an event and fields. The fields of a call come together with those bound
around it, and a call's own field takes precedence. A correlation identifier is added to records
that carry none.
-/

namespace StarCube

inductive LogLevel where
  | debug
  | info
  | warning
  | error
  | critical
deriving DecidableEq, Repr

namespace LogLevel

def all : List LogLevel :=
  [.debug, .info, .warning, .error, .critical]

def name : LogLevel → String
  | .debug => "debug"
  | .info => "info"
  | .warning => "warning"
  | .error => "error"
  | .critical => "critical"

/-- The weight of a level; a threshold is a weight. -/
def weight : LogLevel → Nat
  | .debug => 10
  | .info => 20
  | .warning => 30
  | .error => 40
  | .critical => 50

/-- The thresholds by name in capitals. -/
def thresholds : List (String × Nat) :=
  [("NOTSET", 0), ("DEBUG", 10), ("INFO", 20), ("WARN", 30), ("WARNING", 30), ("ERROR", 40),
   ("CRITICAL", 50), ("FATAL", 50)]

/-- The capital of a letter that occurs in the name of a threshold. -/
def capital (c : Char) : Char :=
  if c = 'ı' then 'I' else if c = 'ſ' then 'S' else c.toUpper

/-- What the name of a threshold stands for. -/
inductive Threshold where
  | weight (least : Nat)
  /-- The layout of plain records, which is a text. -/
  | layout
  /-- The table of all layouts. -/
  | layouts
deriving DecidableEq, Repr

/-- The threshold of a name in any letter case; an unknown name stands for `INFO`. -/
def threshold (name : String) : Threshold :=
  let name := String.ofList (name.toList.map capital)
  if name = "BASIC_FORMAT" then .layout
  else if name = "_STYLES" then .layouts
  else .weight ((thresholds.lookup name).getD LogLevel.info.weight)

end LogLevel

/-- A record of a log. -/
structure LogRecord where
  level : LogLevel
  event : String
  fields : Keyed Document
deriving Repr

namespace LogRecord

/-- The fields that ask for a trace; they are not written themselves. -/
def traceFields : List String := ["exc_info", "stack_info"]

/-- The record as one list of fields, with its event and its level. -/
def rendered (record : LogRecord) : Keyed Document :=
  let written : Keyed Document := traceFields.foldl Keyed.remove record.fields
  (written.put "event" (.value (.text record.event))).put "level"
    (.value (.text record.level.name))

end LogRecord

/-- A text as a log field. -/
def textField (content : String) : Document :=
  .value (.text content)

/-- A number as a log field. -/
def numberField (n : Int) : Document :=
  .value (.int n)

/-- What is bound around the calls of a log. -/
structure LogContext where
  bound : Keyed Document
  correlation : Option String
deriving Repr

namespace LogContext

def empty : LogContext := ⟨[], none⟩

/-- Binds further fields. -/
def bind (context : LogContext) (fields : Keyed Document) : LogContext :=
  { context with bound := context.bound.putAll fields }

/-- The fields that the correlation identifier adds. An empty identifier adds none. -/
def correlationFields (context : LogContext) (fields : Keyed Document) : Keyed Document :=
  match context.correlation with
  | some id =>
      if id.isEmpty || fields.keys.contains "correlation_id" then []
      else [("correlation_id", .value (.text id))]
  | none => []

/-- The record of a call in a context. -/
def record (context : LogContext) (level : LogLevel) (event : String) (own : Keyed Document) :
    LogRecord :=
  let fields := context.bound.putAll own
  ⟨level, event, fields ++ context.correlationFields fields⟩

end LogContext

/-- Where log records go: those below the threshold are dropped. -/
structure LogOutput where
  threshold : Nat
  /-- Records are written as structured lines. -/
  structured : Bool
deriving DecidableEq, Repr

namespace LogOutput

/-- The output that settings ask for. Names that stand for no weight are refused. -/
def ofSettings (settings : Settings) : Except Failure LogOutput :=
  match LogLevel.threshold settings.logLevel with
  | .weight least => .ok ⟨least, settings.logFormat == "json"⟩
  | .layout => .error (.stated "KeyError" "'%(levelname)s:%(name)s:%(message)s'")
  | .layouts => .error .kinds

/-- Whether records of a level are written. -/
def accepts (output : LogOutput) (level : LogLevel) : Bool :=
  output.threshold ≤ level.weight

/-- The names by which a call has its own parts: no field of the call may have one of them. A call
that is written has one more of them than one that is dropped. -/
def reservedNames (output : LogOutput) (level : LogLevel) : List String :=
  ["self", "event"] ++ if output.accepts level then ["method_name"] else []

/-- Whether the fields of a call can be told from its own parts. -/
def admits (output : LogOutput) (level : LogLevel) (own : Keyed Document) : Bool :=
  !own.keys.any (output.reservedNames level).contains

end LogOutput

end StarCube
