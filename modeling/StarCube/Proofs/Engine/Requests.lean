import StarCube.Proofs.Engine.Schedule
import StarCube.Proofs.Outcome

/-!
What the operations that pose queries hand to the store: texts of statements, each compiled from a
query that the operation poses against a definition that is published when it looks.
-/

namespace StarCube

/-- All that a catalog publishes is of some kind. -/
def Catalog.Within (catalog : Catalog) (published : String → Cube → Prop) : Prop :=
  ∀ name cube, catalog.require name = .ok cube → published name cube

namespace Query

theorem cube_ofSlice {cube : Cube} {name : String} {dimensions measures : List String}
    {filters : Keyed Value} {query : Query}
    (h : ofSlice cube name dimensions measures filters = .ok query) : query.cube = name := by
  obtain ⟨levels, -, h⟩ := Except.bind_eq_ok_iff.1 h
  obtain ⟨conditions, -, h⟩ := Except.bind_eq_ok_iff.1 h
  rw [← Except.ok.inj h]

theorem cube_drilled {query drilled : Query} {cube : Cube} {path : List String}
    (h : query.drilled cube path = .ok drilled) : drilled.cube = query.cube := by
  obtain ⟨levels, -, h⟩ := Except.bind_eq_ok_iff.1 h
  rw [← Except.ok.inj h]

theorem cube_ofSeries {cube : Cube} {name dimension measure : String} {query : Query}
    (h : ofSeries cube name dimension measure = .ok query) : query.cube = name := by
  obtain ⟨level, -, h⟩ := Except.bind_eq_ok_iff.1 h
  rw [← Except.ok.inj h]

end Query

namespace Procedure

variable {α β : Type}

/-- The request that a procedure waits for the store to answer. -/
def asked? : Procedure α → Option StoreQuery
  | .query request _ => some request
  | _ => none

/-- All requests that a procedure waits for the store to answer. -/
def asked : Procedure α → List StoreQuery
  | .query request _ => [request]
  | .gather gathering _ => gathering.requests
  | _ => []

/-- A procedure that leaves the catalog as it is and hands nothing to the store but texts that are
allowed, whatever it is answered, as long as no more is published than it reckons with. `ends` holds
of what it gives when it is over. -/
inductive Asks (published : String → Cube → Prop) (allowed : String → Prop) (ends : α → Prop) :
    Procedure α → Prop
  | done {outcome : Except Failure α} (h : ∀ value, outcome = .ok value → ends value) :
      Asks published allowed ends (.done outcome)
  | access {update : Engine → Engine} {next : Engine → Procedure α}
      (hupdate : ∀ state, (update state).catalog = state.catalog)
      (h : ∀ state, state.catalog.Within published → Asks published allowed ends (next state)) :
      Asks published allowed ends (.access update next)
  | context (update : LogContext → LogContext) {next : LogContext → Procedure α}
      (h : ∀ bound, Asks published allowed ends (next bound)) :
      Asks published allowed ends (.context update next)
  | emit (record : LogRecord) {next : Procedure α} (h : Asks published allowed ends next) :
      Asks published allowed ends (.emit record next)
  | query {request : StoreQuery} {next : Except Failure QueryResult → Procedure α}
      (hrequest : allowed request.sql)
      (h : ∀ answer, Asks published allowed ends (next answer)) :
      Asks published allowed ends (.query request next)

namespace Asks

variable {published : String → Cube → Prop} {allowed : String → Prop} {ends : α → Prop}
  {after : β → Prop} {procedure : Procedure α}

/-- A procedure asks for nothing else from the place where it halts. -/
theorem advance (h : Asks published allowed ends procedure) (state : Engine) (bound : LogContext)
    (hstate : state.catalog.Within published) :
    Asks published allowed ends (procedure.advance state bound).rest := by
  induction h generalizing state bound with
  | done h => exact .done h
  | @access update next hupdate h ih =>
      refine ih state hstate (update state) bound ?_
      rw [hupdate]
      exact hstate
  | context update h ih => exact ih bound state (update bound) hstate
  | emit record h ih => exact ih state bound hstate
  | query hrequest h ih => exact .query hrequest h

theorem resume (h : Asks published allowed ends procedure) {signal : Signal} {rest : Procedure α}
    (hrest : procedure.resume signal = some rest) : Asks published allowed ends rest := by
  cases h with
  | query hrequest h =>
      cases signal with
      | answer result =>
          obtain rfl := Option.some.inj hrest
          exact h result
      | _ => cases hrest
  | _ => cases signal <;> cases hrest

theorem allowed_of_asked (h : Asks published allowed ends procedure) {request : StoreQuery}
    (hrequest : procedure.asked? = some request) : allowed request.sql := by
  cases h with
  | query hallowed h =>
      obtain rfl := Option.some.inj hrequest
      exact hallowed
  | _ => cases hrequest

theorem attempt {f : Except Failure α → Procedure β} (h : Asks published allowed ends procedure)
    (hnext : ∀ outcome, (∀ value, outcome = .ok value → ends value) →
      Asks published allowed after (f outcome)) :
    Asks published allowed after (procedure.attempt f) := by
  induction h with
  | done h => exact hnext _ h
  | access hupdate h ih => exact .access hupdate ih
  | context update h ih => exact .context update ih
  | emit record h ih => exact .emit record ih
  | query hrequest h ih => exact .query hrequest ih

theorem bind {f : α → Procedure β} (h : Asks published allowed ends procedure)
    (hnext : ∀ value, ends value → Asks published allowed after (f value)) :
    Asks published allowed after (procedure >>= f) := by
  rw [bind_eq_attempt]
  refine h.attempt fun outcome hends => ?_
  cases outcome with
  | ok value => exact hnext value (hends value rfl)
  | error failure => exact .done (by simp)

theorem pure {value : α} (h : ends value) : Asks published allowed ends (.done (.ok value)) :=
  .done (by simpa using h)

theorem fail (failure : Failure) : Asks published allowed ends (Procedure.fail failure) :=
  .done (by simp)

theorem ofExcept (outcome : Except Failure α) :
    Asks published allowed (fun value => outcome = .ok value) (Procedure.ofExcept outcome) :=
  .done fun _ => id

theorem log (level : LogLevel) (event : String) (fields : Keyed Document) :
    Asks published allowed (fun _ => True) (Procedure.log level event fields) :=
  .context id fun _ => .emit _ (.pure trivial)

theorem within (h : Asks published allowed ends procedure) (fields : Keyed Document) :
    Asks published allowed ends (procedure.within fields) :=
  .context _ fun _ => h.attempt fun _ houtcome => .context _ fun _ => .done houtcome

theorem leasing (h : Asks published allowed ends procedure) (tables : List String) :
    Asks published allowed ends (procedure.leasing tables) :=
  .access (fun _ => rfl) fun _ _ =>
    h.attempt fun _ houtcome => .access (fun _ => rfl) fun _ _ => .done houtcome

end Asks

section Operations

variable {published : String → Cube → Prop} {allowed : String → Prop}

theorem asks_answered (request : StoreQuery) (answer : Except Failure QueryResult) :
    Asks published allowed (fun _ => True) (answered request answer) :=
  .context id fun _ => .emit _ (.done fun _ _ => trivial)

theorem asks_send {sql : String} (h : allowed sql) (params : List Value) (timeout : Value) :
    Asks published allowed (fun _ => True) (send sql params timeout) :=
  .access (fun _ => rfl) fun _ _ => .query h fun answer => asks_answered _ answer

theorem asks_requireCube (name : String) :
    Asks published allowed (published name) (requireCube name) :=
  .access (fun _ => rfl) fun _ hstate => .done fun cube hcube => hstate name cube hcube

theorem asks_compile (query : Query) (cube : Cube) :
    Asks published allowed (fun statement => query.statement cube = .ok statement)
      (compile query cube) := by
  refine (Asks.ofExcept _).bind fun statement hstatement => ?_
  exact (Asks.log _ _ _).bind fun _ _ => .pure hstatement

theorem asks_evaluate (query : Query) (cube : Cube) {statement : Statement}
    (h : allowed statement.text) :
    Asks published allowed (fun _ => True) (evaluate query cube statement) :=
  ((asks_send h _ _).leasing cube.tables).bind fun _ _ => .done fun _ _ => trivial

/-- A query that is run asks for its statement over the definition that is published under its
name. -/
theorem asks_runQuery {query : Query}
    (h : ∀ cube statement, published query.cube cube → query.statement cube = .ok statement →
      allowed statement.text) :
    Asks published allowed (fun _ => True) (runQuery query) := by
  refine (asks_requireCube query.cube).bind fun cube hcube => ?_
  refine (asks_compile query cube).bind fun statement hstatement => ?_
  exact asks_evaluate query cube (h cube statement hcube hstatement)

/-- A query text that was prepared holds the query that it reads as, with its statement. -/
structure Prepared.Of (published : String → Cube → Prop) (name text : String)
    (prepared : Prepared) : Prop where
  cube : published name prepared.cube
  query : Query.parse text = .ok prepared.query
  statement : prepared.query.statement prepared.cube = .ok prepared.statement

theorem asks_prepare (name text : String) :
    Asks published allowed (Prepared.Of published name text) (prepare name text) := by
  refine (asks_requireCube name).bind fun definition hcube => ?_
  refine (Asks.ofExcept _).bind fun query hquery => ?_
  split
  · exact .fail _
  · refine (asks_compile query definition).bind fun statement hstatement => ?_
    exact .pure ⟨hcube, Except.mapError_eq_ok_iff.1 hquery, hstatement⟩

theorem asks_prepareLogged (name text : String) :
    Asks published allowed (Prepared.Of published name text) (prepareLogged name text) := by
  refine (asks_prepare name text).attempt fun outcome houtcome => ?_
  cases outcome with
  | ok prepared => exact .pure (houtcome prepared rfl)
  | error failure =>
      have hfail : Asks published allowed (Prepared.Of published name text) (fail failure) :=
        .fail failure
      by_cases hengine : failure.isEngine
      · simpa [hengine] using (Asks.log .warning "cube_query_rejected" (failureFields failure)).bind
          fun _ _ => hfail
      · simpa [hengine] using hfail

end Operations

end Procedure

/-- The queries that an operation poses, each with the name under which it looks up the cube. -/
inductive Read.Poses (published : String → Cube → Prop) : Read → String → Query → Prop
  | executeQuery {cube text : String} {query : Query} (h : Query.parse text = .ok query) :
      Poses published (.executeQuery cube text) cube query
  | runQuery (query : Query) : Poses published (.runQuery query) query.cube query
  | sliceAndDice {cube : String} {dimensions measures : List String} {filters : Keyed Value}
      {definition : Cube} {query : Query} (hcube : published cube definition)
      (h : Query.ofSlice definition cube dimensions measures filters = .ok query) :
      Poses published (.sliceAndDice cube dimensions measures filters) cube query
  | drillDown {cube text : String} {path : List String} {definition : Cube} {query drilled : Query}
      (hquery : Query.parse text = .ok query) (hcube : published query.cube definition)
      (h : query.drilled definition path = .ok drilled) :
      Poses published (.drillDown cube text path) query.cube drilled
  | rankings {cube dimension measure : String} {count : Option Int} {definition : Cube}
      {query : Query} (hcube : published cube definition)
      (h : Query.ofSeries definition cube dimension measure = .ok query) :
      Poses published (.rankings cube dimension measure count) cube query
  | growthRates {cube dimension measure : String} {count : Option Int} {definition : Cube}
      {query : Query} (hcube : published cube definition)
      (h : Query.ofSeries definition cube dimension measure = .ok query) :
      Poses published (.growthRates cube dimension measure count) cube query

namespace Read

/-- The operation compiles queries. The members of a dimension and the statistics of a cube are
asked for by texts of their own. -/
def compiles : Read → Bool
  | .members .. => false
  | .statistics _ => false
  | _ => true

/-- The text of a statement that an operation may hand to the store. -/
def Sends (published : String → Cube → Prop) (operation : Read) (sql : String) : Prop :=
  ∃ name query cube statement, operation.Poses published name query ∧ published name cube ∧
    query.statement cube = .ok statement ∧ sql = statement.text

end Read

namespace Procedure

variable {published : String → Cube → Prop}

/-- A query that an operation poses is run for it. -/
theorem asks_runQuery_of_poses {operation : Read} {query : Query}
    (h : operation.Poses published query.cube query) :
    Asks published (operation.Sends published) (fun _ => True) (runQuery query) :=
  asks_runQuery fun cube statement hcube hstatement =>
    ⟨query.cube, query, cube, statement, h, hcube, hstatement, rfl⟩

theorem asks_executeQuery (cube text : String) :
    Asks published (Read.Sends published (.executeQuery cube text)) (fun _ => True)
      (executeQuery cube text) := by
  apply Asks.within
  refine (asks_prepareLogged cube text).bind fun prepared hprepared => ?_
  exact asks_evaluate prepared.query prepared.cube
    ⟨cube, prepared.query, prepared.cube, prepared.statement, .executeQuery hprepared.query,
      hprepared.cube, hprepared.statement, rfl⟩

theorem asks_sliceAndDice (cube : String) (dimensions measures : List String)
    (filters : Keyed Value) :
    Asks published (Read.Sends published (.sliceAndDice cube dimensions measures filters))
      (fun _ => True) (sliceAndDice cube dimensions measures filters) := by
  apply Asks.within
  refine (asks_requireCube cube).bind fun definition hcube => ?_
  refine (Asks.ofExcept _).bind fun query hquery => ?_
  have hname : query.cube = cube := Query.cube_ofSlice hquery
  exact asks_runQuery_of_poses (by rw [hname]; exact .sliceAndDice hcube hquery)

theorem asks_drillDown (cube text : String) (path : List String) :
    Asks published (Read.Sends published (.drillDown cube text path)) (fun _ => True)
      (drillDown cube text path) := by
  apply Asks.within
  refine (asks_prepareLogged cube text).bind fun prepared hprepared => ?_
  refine (asks_requireCube prepared.query.cube).bind fun definition hcube => ?_
  refine (Asks.ofExcept _).bind fun drilled hdrilled => ?_
  have hname : drilled.cube = prepared.query.cube := Query.cube_drilled hdrilled
  exact asks_runQuery_of_poses (by rw [hname]; exact .drillDown hprepared.query hcube hdrilled)

theorem asks_series {operation : Read} {cube dimension measure : String} (what : String)
    (count : Int) (h : ∀ definition query, published cube definition →
      Query.ofSeries definition cube dimension measure = .ok query →
        operation.Poses published cube query) :
    Asks published (operation.Sends published) (fun _ => True)
      (series cube dimension measure what count) := by
  unfold series
  split
  · exact .fail _
  · refine (asks_requireCube cube).bind fun definition hcube => ?_
    refine (Asks.ofExcept _).bind fun query hquery => ?_
    have hname : query.cube = cube := Query.cube_ofSeries hquery
    exact asks_runQuery_of_poses (by rw [hname]; exact h definition query hcube hquery)

theorem asks_rankings (cube dimension measure : String) (count : Option Int) :
    Asks published (Read.Sends published (.rankings cube dimension measure count)) (fun _ => True)
      (rankings cube dimension measure count) := by
  refine .access (fun _ => rfl) fun state _ => Asks.within ?_ _
  exact (asks_series _ _ fun _ _ hcube hquery => .rankings hcube hquery).bind
    fun _ _ => .done fun _ _ => trivial

theorem asks_growthRates (cube dimension measure : String) (count : Option Int) :
    Asks published (Read.Sends published (.growthRates cube dimension measure count))
    (fun _ => True)
      (growthRates cube dimension measure count) := by
  refine .access (fun _ => rfl) fun state _ => Asks.within ?_ _
  exact (asks_series _ _ fun _ _ hcube hquery => .growthRates hcube hquery).bind
    fun _ _ => .done fun _ _ => trivial

end Procedure

/-- An operation that compiles queries hands the statements of the queries that it poses to the
store. -/
theorem Read.asks {published : String → Cube → Prop} {operation : Read}
    (h : operation.compiles = true) :
    Procedure.Asks published (operation.Sends published) (fun _ => True) operation.procedure := by
  cases operation with
  | executeQuery cube text => exact Procedure.asks_executeQuery cube text
  | runQuery query => exact Procedure.asks_runQuery_of_poses (.runQuery query)
  | sliceAndDice cube dimensions measures filters =>
      exact Procedure.asks_sliceAndDice cube dimensions measures filters
  | drillDown cube text path => exact Procedure.asks_drillDown cube text path
  | rankings cube dimension measure count =>
      exact Procedure.asks_rankings cube dimension measure count
  | growthRates cube dimension measure count =>
      exact Procedure.asks_growthRates cube dimension measure count
  | members cube dimension hierarchy => simp [compiles] at h
  | statistics cube => simp [compiles] at h

/-- A task of an operation that compiles queries hands only its statements to the store. -/
def Task.Asks (published : String → Cube → Prop) : Task → Prop
  | ⟨.read operation, _, _, rest⟩ => operation.compiles = true →
      Procedure.Asks published (operation.Sends published) (fun _ => True) rest
  | _ => True

theorem Task.asks_made {published : String → Cube → Prop} (call : Call) (state : Engine)
    (context : LogContext) : (Task.made call state context).Asks published := by
  cases call with
  | read operation => exact fun hcompiles => Read.asks hcompiles
  | register cube replace => trivial
  | unregister name => trivial
  | refresh cube => trivial

theorem Task.Asks.proceed {published : String → Cube → Prop} {task : Task}
    {rest : Procedure task.call.Result} {state : Engine}
    (h : Task.Asks published { task with rest := rest }) (hstate : state.catalog.Within published) :
    (task.proceed rest state).2.Asks published := by
  obtain ⟨call, begun, context, before⟩ := task
  cases call with
  | read operation => exact fun hcompiles => (h hcompiles).advance state context hstate
  | register cube replace => trivial
  | unregister name => trivial
  | refresh cube => trivial

theorem Task.Asks.resume {published : String → Cube → Prop} {task : Task}
    {rest : Procedure task.call.Result} {signal : Signal} (h : task.Asks published)
    (hrest : task.rest.resume signal = some rest) :
    Task.Asks published { task with rest := rest } := by
  obtain ⟨call, begun, context, before⟩ := task
  cases call with
  | read operation => exact fun hcompiles => (h hcompiles).resume hrest
  | register cube replace => trivial
  | unregister name => trivial
  | refresh cube => trivial

namespace World

variable {published : String → Cube → Prop} {world : World}

/-- Tasks hand to the store what they may after an event as before it. -/
theorem asks_next (hworld : world.engine.catalog.Within published)
    (hasks : ∀ task ∈ world.tasks, task.Asks published) (event : Event) :
    ∀ task ∈ (world.next event).tasks, task.Asks published := by
  intro task htask
  rcases mem_tasks_next htask with hold | ⟨engine, hmoved⟩
  · exact hasks task hold
  · rcases moved_eq_some hmoved with ⟨call, context, -, hproceed⟩ |
      ⟨index, signal, before, rest, -, hbefore, hrest, hproceed⟩
    · obtain rfl : _ = task := congrArg Prod.snd hproceed
      exact (Task.asks_made call world.engine context).proceed hworld
    · obtain rfl : _ = task := congrArg Prod.snd hproceed
      exact ((hasks before (List.mem_of_getElem? hbefore)).resume hrest).proceed hworld

theorem asks_run (hasks : ∀ task ∈ world.tasks, task.Asks published) {events : List Event}
    (h : ∀ front, front <+: events → (world.run front).engine.catalog.Within published) :
    ∀ task ∈ (world.run events).tasks, task.Asks published := by
  induction events generalizing world with
  | nil => exact hasks
  | cons event rest ih =>
      refine ih (asks_next (h [] List.nil_prefix) hasks event) fun front hfront => ?_
      exact h (event :: front) (List.prefix_cons_inj event |>.2 hfront)

/-- A definition is published under a name at some time of a run. -/
def Shows (settings : Settings) (events : List Event) (name : String) (cube : Cube) : Prop :=
  ∃ front, front <+: events ∧ ((fresh settings).run front).engine.catalog.require name = .ok cube

/-- Whatever an operation that compiles queries hands to the store is the statement of a query that
it poses, over a definition that is or was published. -/
theorem sends_of_mem_tasks {settings : Settings} {events : List Event} {task : Task}
    (htask : task ∈ ((fresh settings).run events).tasks) {operation : Read}
    (hcall : task.call = .read operation) (hcompiles : operation.compiles = true)
    {request : StoreQuery} (hrequest : task.rest.asked? = some request) :
    operation.Sends (Shows settings events) request.sql := by
  have hfresh : ∀ task ∈ (fresh settings).tasks, task.Asks (Shows settings events) := by
    simp [fresh]
  have hasks :=
    asks_run hfresh (fun front hfront name cube hcube => ⟨front, hfront, hcube⟩) task htask
  obtain ⟨call, begun, context, rest⟩ := task
  subst hcall
  exact (hasks hcompiles).allowed_of_asked hrequest

end World

end StarCube
