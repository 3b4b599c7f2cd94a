import StarCube.Engine.Exploration
import StarCube.Engine.Members
import StarCube.Engine.Refresh
import StarCube.Engine.Statistics

/-!
Calls that are under way side by side. A call goes on without interruption until it waits, for an
answer of the store or for its turn to refresh a cube; while it waits others may go on. Every order
in which calls can be made, answered and given their turn is a list of events.
-/

namespace StarCube

/-- The settings where nothing is given. -/
def Settings.standard : Settings where
  warehouseUrl := "sqlite+aiosqlite:///:memory:"
  echoSql := false
  poolSize := 5
  maxOverflow := 10
  poolTimeout := 30
  poolRecycle := 3600
  queryTimeout := some (Binary64.ofInt 30)
  currentFlagColumn := "is_current"
  statisticsDateColumn := "created_at"
  defaultTopN := 10
  defaultGrowthPeriods := 12
  refreshKeepVersions := 2
  logLevel := "INFO"
  logFormat := "json"

example : Settings.ofGiven [] = .ok Settings.standard := rfl

/-- A cube over facts alone. -/
def Cube.ofFacts (name factTable : String) : Cube :=
  ⟨name, "", factTable, [], [], []⟩

/-- A procedure at a place where it waits or is over, with what it has made of the engine and of its
log context up to there. -/
structure Halt (α : Type) where
  engine : Engine
  context : LogContext
  rest : Procedure α

/-- What a waiting procedure is told: to see whether it is its turn, what the store answers, what it
answers to one of several questions, or to go on with what these have come to. -/
inductive Signal where
  | turn
  | answer (result : Except Failure QueryResult)
  | part (index : Nat) (result : Except Failure QueryResult)
  | wake
  | acknowledge (result : Except Failure Unit)

/-- What the store answers to a procedure that has asked once. -/
def Signal.answer? : Signal → Option (Except Failure QueryResult)
  | .answer result => some result
  | _ => none

namespace Procedure

variable {α : Type}

/-- Takes the steps of a procedure up to the next place where it waits. -/
def advance : Procedure α → Engine → LogContext → Halt α
  | .done outcome, state, bound => ⟨state, bound, .done outcome⟩
  | .access update next, state, bound => (next state).advance (update state) bound
  | .context update next, state, bound => (next bound).advance state (update bound)
  | .emit _ next, state, bound => next.advance state bound
  | .acquire cube next, state, bound =>
      if state.locks.contains cube then ⟨state, bound, .acquire cube next⟩
      else next.advance { state with locks := cube :: state.locks } bound
  | .query request next, state, bound => ⟨state, bound, .query request next⟩
  | .gather gathering next, state, bound => ⟨state, bound, .gather gathering next⟩
  | .execute statements next, state, bound => ⟨state, bound, .execute statements next⟩

/-- How a waiting procedure goes on; none if it does not wait for such a signal. What the store
answers to questions that a procedure has left open changes neither the procedure nor the engine. -/
def resume : Procedure α → Signal → Option (Procedure α)
  | .acquire cube next, .turn => some (.acquire cube next)
  | .query _ next, .answer result => some (next result)
  | .gather gathering next, .part index result =>
      (gathering.question? index).map fun question =>
        .context id fun context => .emit (context.report question.request result)
          (.gather (gathering.settle index (question.outcome result)) next)
  | .gather gathering next, .wake =>
      if gathering.ready then some (next gathering.outcome) else none
  | .execute _ next, .acknowledge result => some (next result)
  | _, _ => none

/-- How a procedure that waits for the answers to several questions goes on: an answer to an open
question is told to the log, or it takes what they have come to. -/
theorem resume_gather {gathering : Gathering}
    {next : Except Failure (List (List Row)) → Procedure α} {signal : Signal} {rest : Procedure α}
    (h : (gather gathering next).resume signal = some rest) :
    (∃ index result question, signal = .part index result ∧
      gathering.question? index = some question ∧
      rest = .context id fun context => .emit (context.report question.request result)
        (.gather (gathering.settle index (question.outcome result)) next)) ∨
    signal = .wake ∧ gathering.ready = true ∧ rest = next gathering.outcome := by
  cases signal with
  | turn => cases h
  | answer result => cases h
  | acknowledge result => cases h
  | part index result =>
      obtain ⟨question, hquestion, rfl⟩ := Option.map_eq_some_iff.1 h
      exact .inl ⟨index, result, question, rfl, hquestion, rfl⟩
  | wake =>
      cases hready : gathering.ready with
      | true =>
          simp only [resume, hready, if_true] at h
          exact .inr ⟨rfl, rfl, (Option.some.inj h).symm⟩
      | false => simp [resume, hready] at h

/-- The statements that a procedure waits for the store to execute. -/
def submitted : Procedure α → List String
  | .execute statements _ => statements
  | _ => []

end Procedure

/-- The operations of an engine that read a cube. -/
inductive Read where
  | executeQuery (cube text : String)
  | runQuery (query : Query)
  | members (cube dimension : String) (hierarchy : Option String)
  | sliceAndDice (cube : String) (dimensions measures : List String) (filters : Keyed Value)
  | drillDown (cube text : String) (path : List String)
  | rankings (cube dimension measure : String) (count : Option Int)
  | growthRates (cube dimension measure : String) (count : Option Int)
  | statistics (cube : String)

namespace Read

/-- What an operation gives. -/
def Result : Read → Type
  | .executeQuery .. => ResultTable
  | .runQuery _ => ResultTable
  | .members .. => List Row
  | .sliceAndDice .. => ResultTable
  | .drillDown .. => ResultTable
  | .rankings .. => List Ranked
  | .growthRates .. => List GrowthPoint
  | .statistics _ => CubeStatistics

def procedure : (read : Read) → Procedure read.Result
  | .executeQuery cube text => Procedure.executeQuery cube text
  | .runQuery query => Procedure.runQuery query
  | .members cube dimension hierarchy => Procedure.members cube dimension hierarchy
  | .sliceAndDice cube dimensions measures filters =>
      Procedure.sliceAndDice cube dimensions measures filters
  | .drillDown cube text path => Procedure.drillDown cube text path
  | .rankings cube dimension measure count => Procedure.rankings cube dimension measure count
  | .growthRates cube dimension measure count => Procedure.growthRates cube dimension measure count
  | .statistics cube => Procedure.statistics cube

end Read

/-- A call of an engine. -/
inductive Call where
  | register (cube : Cube) (replace : Bool)
  | unregister (name : String)
  | refresh (cube : String)
  | read (operation : Read)

namespace Call

def Result : Call → Type
  | .register .. => Unit
  | .unregister _ => Unit
  | .refresh _ => Int
  | .read operation => operation.Result

def procedure : (call : Call) → Procedure call.Result
  | .register cube replace => Procedure.register cube replace
  | .unregister name => Procedure.unregister name
  | .refresh cube => Procedure.refresh cube
  | .read operation => operation.procedure

end Call

/-- A call under way or over, with the state in which it found the engine. -/
structure Task where
  call : Call
  begun : Engine
  context : LogContext
  rest : Procedure call.Result

namespace Task

/-- Goes on with a procedure in place of what a task waited for. -/
def proceed (task : Task) (rest : Procedure task.call.Result) (engine : Engine) : Engine × Task :=
  let halt := rest.advance engine task.context
  (halt.engine, { task with context := halt.context, rest := halt.rest })

theorem proceed_eq (task : Task) {rest : Procedure task.call.Result} {engine : Engine}
    {halt : Halt task.call.Result} (h : rest.advance engine task.context = halt) :
    task.proceed rest engine =
      (halt.engine, { task with context := halt.context, rest := halt.rest }) := by
  subst h
  rfl

/-- A call in the state of the engine in which it is made, before its first step. -/
def made (call : Call) (engine : Engine) (context : LogContext) : Task :=
  ⟨call, engine, context, call.procedure⟩

end Task

/-- What can happen next: a call is made, or a task is told what it waits for. -/
inductive Event where
  | call (call : Call) (context : LogContext)
  | signal (task : Nat) (signal : Signal)

/-- An engine with the calls made so far. -/
structure World where
  engine : Engine
  tasks : List Task

namespace World

/-- A new engine, of which no call has been made. -/
def fresh (settings : Settings) : World :=
  ⟨⟨settings, .empty, [], [], []⟩, []⟩

/-- The place of the task that an event is about. -/
def place (world : World) : Event → Nat
  | .call .. => world.tasks.length
  | .signal index _ => index

/-- The task that an event lets go on, where it halts next, and the engine that it leaves. None if
no task waits for the event. -/
def moved (world : World) : Event → Option (Engine × Task)
  | .call call context =>
      some ((Task.made call world.engine context).proceed call.procedure world.engine)
  | .signal index signal => do
      let task ← world.tasks[index]?
      let rest ← task.rest.resume signal
      return task.proceed rest world.engine

/-- What an event makes of a world. -/
def next (world : World) (event : Event) : World :=
  match world.moved event with
  | none => world
  | some (engine, task) =>
      ⟨engine, world.tasks.take (world.place event) ++
        task :: world.tasks.drop (world.place event + 1)⟩

/-- What a list of events makes of a world. -/
def run (world : World) (events : List Event) : World :=
  events.foldl next world

/-- Something holds at each event of a list, in the world in which the event occurs. -/
def Throughout (holds : World → Event → Prop) : World → List Event → Prop
  | _, [] => True
  | world, event :: rest => holds world event ∧ Throughout holds (world.next event) rest

/-- How a task comes to move: its call is made, or it is told what it waits for. -/
theorem moved_eq_some {world : World} {event : Event} {engine : Engine} {task : Task}
    (h : world.moved event = some (engine, task)) :
    (∃ call context, event = .call call context ∧
      (Task.made call world.engine context).proceed call.procedure world.engine = (engine, task)) ∨
    ∃ index signal before rest, event = .signal index signal ∧
      world.tasks[index]? = some before ∧ before.rest.resume signal = some rest ∧
      before.proceed rest world.engine = (engine, task) := by
  cases event with
  | call call context => exact .inl ⟨call, context, rfl, by simpa [moved] using h⟩
  | signal index signal =>
      right
      obtain ⟨before, hbefore, h⟩ := Option.bind_eq_some_iff.1 h
      obtain ⟨rest, hrest, h⟩ := Option.bind_eq_some_iff.1 h
      exact ⟨index, signal, before, rest, rfl, hbefore, hrest, by simpa using h⟩

/-- A task that waits for a signal goes on with it. -/
theorem moved_of_resume {world : World} {index : Nat} {task : Task} {signal : Signal}
    {rest : Procedure task.call.Result} (htask : world.tasks[index]? = some task)
    (hrest : task.rest.resume signal = some rest) :
    world.moved (.signal index signal) = some (task.proceed rest world.engine) := by
  simp [moved, htask, hrest]

theorem moved_eq_none_of_resume {world : World} {index : Nat} {task : Task} {signal : Signal}
    (htask : world.tasks[index]? = some task) (hrest : task.rest.resume signal = none) :
    world.moved (.signal index signal) = none := by
  simp [moved, htask, hrest]

theorem engine_next {world : World} {event : Event} {engine : Engine} {task : Task}
    (h : world.moved event = some (engine, task)) : (world.next event).engine = engine := by
  simp [next, h]

theorem next_eq_self {world : World} {event : Event} (h : world.moved event = none) :
    world.next event = world := by
  simp [next, h]

theorem mem_tasks_next {world : World} {event : Event} {task : Task}
    (h : task ∈ (world.next event).tasks) :
    task ∈ world.tasks ∨ ∃ engine, world.moved event = some (engine, task) := by
  unfold next at h
  split at h
  · exact .inl h
  · next engine other hmoved =>
      rcases List.mem_append.1 h with hfront | hrest
      · exact .inl (List.mem_of_mem_take hfront)
      · rcases List.mem_cons.1 hrest with rfl | hback
        · exact .inr ⟨engine, hmoved⟩
        · exact .inl (List.mem_of_mem_drop hback)

/-- What an invariant and each event allow holds throughout, if these keep the invariant. -/
theorem Throughout.of_invariant {invariant : World → Prop} {may holds : World → Event → Prop}
    (hnext : ∀ world event, invariant world → may world event → invariant (world.next event))
    (hholds : ∀ world event, invariant world → may world event → holds world event) {world : World}
    (hworld : invariant world) {events : List Event} (h : world.Throughout may events) :
    world.Throughout holds events := by
  induction events generalizing world with
  | nil => trivial
  | cons event rest ih =>
      obtain ⟨hfirst, hrest⟩ := h
      exact ⟨hholds world event hworld hfirst, ih (hnext world event hworld hfirst) hrest⟩

end World

end StarCube
