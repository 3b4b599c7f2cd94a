import StarCube.Proofs.Engine.Gathering
import StarCube.Proofs.Engine.Publication
import StarCube.Proofs.Engine.Turns

/-!
What a reading operation and the store have to say to each other. An operation looks at the catalog
as it is when the operation is called, and at the settings, which stay what they are; so it comes to
a dialogue with the store that nothing else has a part in, whatever calls are under way beside it.
-/

namespace StarCube

/-- An operation closes its dialogue, or it asks the store and goes on with the answer, or with what
the answers to several questions have come to. -/
inductive Dialogue (α : Type) where
  | closed (outcome : Except Failure α)
  | ask (request : StoreQuery) (next : Except Failure QueryResult → Dialogue α)
  | gather (gathering : Gathering) (next : Except Failure (List (List Row)) → Dialogue α)

namespace Dialogue

variable {α β : Type}

/-- Goes on after a dialogue in either case. -/
def attempt (dialogue : Dialogue α) (f : Except Failure α → Dialogue β) : Dialogue β :=
  match dialogue with
  | .closed outcome => f outcome
  | .ask request next => .ask request fun answer => (next answer).attempt f
  | .gather gathering next => .gather gathering fun outcome => (next outcome).attempt f

/-- Goes on with what a dialogue gives; a failure ends the whole. -/
def bind (dialogue : Dialogue α) (f : α → Dialogue β) : Dialogue β :=
  dialogue.attempt fun
    | .ok value => f value
    | .error failure => .closed (.error failure)

instance : Monad Dialogue where
  pure value := .closed (.ok value)
  bind := bind

/-- What is left of a dialogue after a signal. One that is not waited for changes nothing. -/
def told : Dialogue α → Signal → Dialogue α
  | .ask _ next, .answer result => next result
  | .gather gathering next, .part index result => .gather (gathering.answered index result) next
  | .gather gathering next, .wake =>
      if gathering.ready then next gathering.outcome else .gather gathering next
  | dialogue, _ => dialogue

/-- What is left of a dialogue after some signals. -/
def hear (dialogue : Dialogue α) (signals : List Signal) : Dialogue α :=
  signals.foldl told dialogue

@[simp] theorem hear_cons (dialogue : Dialogue α) (signal : Signal) (rest : List Signal) :
    dialogue.hear (signal :: rest) = (dialogue.told signal).hear rest := rfl

theorem hear_append (dialogue : Dialogue α) (front back : List Signal) :
    dialogue.hear (front ++ back) = (dialogue.hear front).hear back :=
  List.foldl_append

/-- Where a dialogue is closed, no more is heard. -/
@[simp] theorem hear_closed (outcome : Except Failure α) (signals : List Signal) :
    (closed outcome).hear signals = closed outcome := by
  induction signals with
  | nil => rfl
  | cons signal rest ih => exact ih

/-- A dialogue that gathers goes on when it is woken and there is no need to wait any more. -/
theorem hear_gather_eq_closed_iff {gathering : Gathering}
    {result : Except Failure (List (List Row)) → Except Failure α} {signals : List Signal}
    {outcome : Except Failure α} :
    (gather gathering fun rows => closed (result rows)).hear signals = closed outcome ↔
      ∃ front back, signals = front ++ .wake :: back ∧ (gathering.after front).ready = true ∧
        outcome = result (gathering.after front).outcome := by
  induction signals generalizing gathering with
  | nil => simp [hear]
  | cons signal rest ih =>
      by_cases hwoken : signal = .wake ∧ gathering.ready = true
      · obtain ⟨rfl, hready⟩ := hwoken
        rw [hear_cons, told, if_pos hready, hear_closed, closed.injEq]
        constructor
        · rintro rfl
          exact ⟨[], rest, rfl, hready, rfl⟩
        · rintro ⟨front, back, -, -, rfl⟩
          rw [Gathering.outcome_after hready]
      · have htold : (gather gathering fun rows => closed (result rows)).told signal =
            gather (gathering.told signal) fun rows => closed (result rows) := by
          cases signal with
          | wake =>
              have hwaits : ¬ gathering.ready = true := fun hready => hwoken ⟨rfl, hready⟩
              rw [told, if_neg hwaits]
              rfl
          | _ => rfl
        rw [hear_cons, htold, ih]
        constructor
        · rintro ⟨front, back, rfl, hready, rfl⟩
          exact ⟨signal :: front, back, rfl, hready, rfl⟩
        · rintro ⟨front, back, heq, hready, rfl⟩
          cases front with
          | nil =>
              obtain ⟨rfl, rfl⟩ := List.cons.inj heq
              exact absurd ⟨rfl, hready⟩ hwoken
          | cons first front =>
              obtain ⟨rfl, rfl⟩ := List.cons.inj heq
              exact ⟨front, back, rfl, hready, rfl⟩

/-- A dialogue that asks once hears the first answer. -/
theorem hear_ask_closed (request : StoreQuery)
    (result : Except Failure QueryResult → Except Failure α) (signals : List Signal) :
    (ask request fun answer => closed (result answer)).hear signals =
      match signals.filterMap Signal.answer? with
      | [] => ask request fun answer => closed (result answer)
      | answer :: _ => closed (result answer) := by
  induction signals with
  | nil => rfl
  | cons signal rest ih =>
      cases signal with
      | answer answer => exact hear_closed _ rest
      | _ => exact ih

theorem attempt_closed (dialogue : Dialogue α) : dialogue.attempt .closed = dialogue := by
  induction dialogue with
  | closed outcome => rfl
  | ask request next ih => exact congrArg _ (funext ih)
  | gather gathering next ih => exact congrArg _ (funext ih)

theorem attempt_attempt {γ : Type} (dialogue : Dialogue α) (f : Except Failure α → Dialogue β)
    (g : Except Failure β → Dialogue γ) :
    (dialogue.attempt f).attempt g = dialogue.attempt fun outcome => (f outcome).attempt g := by
  induction dialogue with
  | closed outcome => rfl
  | ask request next ih => exact congrArg _ (funext ih)
  | gather gathering next ih => exact congrArg _ (funext ih)

theorem closed_bind (outcome : Except Failure α) (f : α → Except Failure β) :
    (closed outcome >>= fun value => closed (f value)) = closed (outcome >>= f) := by
  cases outcome <;> rfl

/-- Asks for the rows of a statement. -/
def send (settings : Settings) (sql : String) (params : List Value) : Dialogue (List Row) :=
  .ask ⟨sql, params, settings.timeout⟩ fun answer => .closed (rowsOf sql answer)

/-- Asks for the rows of the statement of a query and shapes them. -/
def evaluate (settings : Settings) (query : Query) (cube : Cube) (statement : Statement) :
    Dialogue ResultTable := do
  let rows ← send settings statement.text statement.params
  .closed (query.table cube rows)

/-- Asks a query of the cube that it names. -/
def runQuery (engine : Engine) (query : Query) : Dialogue ResultTable := do
  let cube ← .closed (engine.catalog.require query.cube)
  let statement ← .closed (query.statement cube)
  evaluate engine.settings query cube statement

/-- Asks for one measure by one level. -/
def series (engine : Engine) (cube dimension measure what : String) (count : Int) :
    Dialogue ResultTable :=
  if count < 0 then .closed (.error (.negative what))
  else do
    let definition ← .closed (engine.catalog.require cube)
    let query ← .closed (Query.ofSeries definition cube dimension measure)
    runQuery engine query

end Dialogue

/-- A query text that is submitted for a cube, with its statement. -/
def Engine.prepare (engine : Engine) (cube text : String) : Except Failure Procedure.Prepared := do
  let definition ← engine.catalog.require cube
  let query ← (Query.parse text).mapError Failure.ofQueryText
  if query.cube ≠ definition.name then
    throw (.semantic (.otherCube query.cube definition.name))
  let statement ← query.statement definition
  return ⟨definition, query, statement⟩

namespace Dialogue

/-- Asks for the result of a query text. -/
def executeQuery (engine : Engine) (cube text : String) : Dialogue ResultTable := do
  let prepared ← .closed (engine.prepare cube text)
  evaluate engine.settings prepared.query prepared.cube prepared.statement

/-- Asks for the members of a hierarchy. -/
def members (engine : Engine) (cube dimension : String) (hierarchy : Option String) :
    Dialogue (List Row) := do
  let definition ← .closed (engine.catalog.require cube)
  let (found, chosen) ← .closed (definition.memberHierarchy cube dimension hierarchy)
  let statement ← .closed (memberStatement found chosen engine.settings.currentFlagColumn)
  let rows ← send engine.settings statement.text [.bool true]
  .closed (distinctMembers statement.columns rows)

/-- Asks for measures by levels. -/
def sliceAndDice (engine : Engine) (cube : String) (dimensions measures : List String)
    (filters : Keyed Value) : Dialogue ResultTable := do
  let definition ← .closed (engine.catalog.require cube)
  let query ← .closed (Query.ofSlice definition cube dimensions measures filters)
  runQuery engine query

/-- Asks for the result of a query text with the levels of a path in front. -/
def drillDown (engine : Engine) (cube text : String) (path : List String) :
    Dialogue ResultTable := do
  let prepared ← .closed (engine.prepare cube text)
  let definition ← .closed (engine.catalog.require prepared.query.cube)
  let drilled ← .closed (prepared.query.drilled definition path)
  runQuery engine drilled

/-- Asks for the first members of a level by a measure. -/
def rankings (engine : Engine) (cube dimension measure : String) (count : Int) :
    Dialogue (List Ranked) := do
  let table ← series engine cube dimension measure "top_n" count
  .closed (table.ranking count.toNat)

/-- Asks for the growth of a measure along a level. -/
def growthRates (engine : Engine) (cube dimension measure : String) (count : Int) :
    Dialogue (List GrowthPoint) := do
  let table ← series engine cube dimension measure "periods" count
  .closed (table.growth count.toNat)

/-- Asks for the statistics of a cube. -/
def statistics (engine : Engine) (cube : String) : Dialogue CubeStatistics := do
  let entry ← .closed (engine.catalog.entry cube)
  let table ← .closed (requireIdentifier "table name" entry.published.factTable)
  let rows ← .gather (.ofQuestions (entry.published.questions engine.settings table)) .closed
  .closed (entry.statistics rows)

end Dialogue

/-- The dialogue of a reading operation that is called in some state of the engine. -/
def Read.dialogue (engine : Engine) : (operation : Read) → Dialogue operation.Result
  | .executeQuery cube text => Dialogue.executeQuery engine cube text
  | .runQuery query => Dialogue.runQuery engine query
  | .members cube dimension hierarchy => Dialogue.members engine cube dimension hierarchy
  | .sliceAndDice cube dimensions measures filters =>
      Dialogue.sliceAndDice engine cube dimensions measures filters
  | .drillDown cube text path => Dialogue.drillDown engine cube text path
  | .rankings cube dimension measure count =>
      Dialogue.rankings engine cube dimension measure (count.getD engine.settings.defaultTopN)
  | .growthRates cube dimension measure count =>
      Dialogue.growthRates engine cube dimension measure
        (count.getD engine.settings.defaultGrowthPeriods)
  | .statistics cube => Dialogue.statistics engine cube

/-- A state of the engine with given settings, and with a given catalog if one is known. -/
structure Engine.Known (settings : Settings) (catalog : Option Catalog) (engine : Engine) :
    Prop where
  settings : engine.settings = settings
  catalog : ∀ known, catalog = some known → engine.catalog = known

namespace Procedure

variable {α β : Type}

/-- A procedure leads a dialogue, whatever others do to the engine meanwhile. The catalog is known
until the store is asked. -/
inductive Speaks (settings : Settings) : Option Catalog → Procedure α → Dialogue α → Prop
  | closed {catalog : Option Catalog} (outcome : Except Failure α) :
      Speaks settings catalog (.done outcome) (.closed outcome)
  | access {catalog : Option Catalog} {update : Engine → Engine} {next : Engine → Procedure α}
      {dialogue : Dialogue α}
      (hupdate : ∀ state, (update state).settings = state.settings ∧
        (update state).catalog = state.catalog)
      (h : ∀ state, state.Known settings catalog → Speaks settings catalog (next state) dialogue) :
      Speaks settings catalog (.access update next) dialogue
  | context {catalog : Option Catalog} (update : LogContext → LogContext)
      {next : LogContext → Procedure α} {dialogue : Dialogue α}
      (h : ∀ bound, Speaks settings catalog (next bound) dialogue) :
      Speaks settings catalog (.context update next) dialogue
  | emit {catalog : Option Catalog} (record : LogRecord) {next : Procedure α}
      {dialogue : Dialogue α} (h : Speaks settings catalog next dialogue) :
      Speaks settings catalog (.emit record next) dialogue
  | ask {catalog : Option Catalog} (request : StoreQuery)
      {next : Except Failure QueryResult → Procedure α}
      {dialogue : Except Failure QueryResult → Dialogue α}
      (h : ∀ answer, Speaks settings none (next answer) (dialogue answer)) :
      Speaks settings catalog (.query request next) (.ask request dialogue)
  | gather {catalog : Option Catalog} (gathering : Gathering)
      {next : Except Failure (List (List Row)) → Procedure α}
      {dialogue : Except Failure (List (List Row)) → Dialogue α}
      (h : ∀ outcome, Speaks settings none (next outcome) (dialogue outcome)) :
      Speaks settings catalog (.gather gathering next) (.gather gathering dialogue)

/-- A procedure stands where a dialogue does: both have ended, or wait for answers to the same
requests. -/
inductive Stands (settings : Settings) : Procedure α → Dialogue α → Prop
  | closed (outcome : Except Failure α) : Stands settings (.done outcome) (.closed outcome)
  | ask (request : StoreQuery) {next : Except Failure QueryResult → Procedure α}
      {dialogue : Except Failure QueryResult → Dialogue α}
      (h : ∀ answer, Speaks settings none (next answer) (dialogue answer)) :
      Stands settings (.query request next) (.ask request dialogue)
  | gather (gathering : Gathering) {next : Except Failure (List (List Row)) → Procedure α}
      {dialogue : Except Failure (List (List Row)) → Dialogue α}
      (h : ∀ outcome, Speaks settings none (next outcome) (dialogue outcome)) :
      Stands settings (.gather gathering next) (.gather gathering dialogue)

/-- Up to the place where it halts a procedure does not change what its dialogue is about. -/
theorem Speaks.advance {settings : Settings} {catalog : Option Catalog} {procedure : Procedure α}
    {dialogue : Dialogue α} (h : Speaks settings catalog procedure dialogue) {state : Engine}
    (hstate : state.Known settings catalog) (bound : LogContext) :
    Stands settings (procedure.advance state bound).rest dialogue := by
  induction h generalizing state bound with
  | closed outcome => exact .closed outcome
  | @access _ update next dialogue hupdate h ih =>
      apply ih state hstate
      constructor
      · rw [(hupdate state).1, hstate.settings]
      · intro known hknown
        rw [(hupdate state).2, hstate.catalog known hknown]
  | context update h ih => exact ih bound hstate (update bound)
  | emit record h ih => exact ih hstate bound
  | ask request h ih => exact .ask request h
  | gather gathering h ih => exact .gather gathering h

/-- Where a procedure goes on by a signal its dialogue does. -/
theorem Stands.resume {settings : Settings} {procedure rest : Procedure α} {dialogue : Dialogue α}
    (h : Stands settings procedure dialogue) {signal : Signal}
    (hrest : procedure.resume signal = some rest) :
    Speaks settings none rest (dialogue.told signal) := by
  cases h with
  | closed outcome => cases signal <;> cases hrest
  | ask request h =>
      cases signal with
      | answer result =>
          obtain rfl := Option.some.inj hrest
          exact h result
      | _ => cases hrest
  | @gather gathering next dialogue h =>
      obtain ⟨index, result, question, rfl, hquestion, rfl⟩ | ⟨rfl, hready, rfl⟩ :=
        resume_gather hrest
      · have hanswered : gathering.answered index result =
            gathering.settle index (question.outcome result) := by
          simp [Gathering.answered, hquestion]
        rw [Dialogue.told, hanswered]
        exact .context id fun _ => .emit _ (.gather _ h)
      · rw [Dialogue.told, if_pos hready]
        exact h _

/-- Where a procedure does not wait for a signal its dialogue does not either. -/
theorem Stands.told_eq {settings : Settings} {procedure : Procedure α} {dialogue : Dialogue α}
    (h : Stands settings procedure dialogue) {signal : Signal}
    (hrest : procedure.resume signal = none) : dialogue.told signal = dialogue := by
  cases h with
  | closed outcome => rfl
  | ask request h =>
      cases signal with
      | answer result => cases hrest
      | _ => rfl
  | @gather gathering next dialogue h =>
      cases signal with
      | part index result =>
          have hclosed : gathering.question? index = none := Option.map_eq_none_iff.1 hrest
          simp [Dialogue.told, Gathering.answered, hclosed]
      | wake =>
          have hwaits : gathering.ready = false := by
            by_contra hready
            rw [Bool.not_eq_false] at hready
            simp [Procedure.resume, hready] at hrest
          simp [Dialogue.told, hwaits]
      | _ => rfl

namespace Speaks

variable {settings : Settings} {catalog : Option Catalog} {procedure : Procedure α}
  {dialogue : Dialogue α} {after : Dialogue β}

/-- What follows a procedure that does not ask the store still knows the catalog. -/
theorem attempt_closed {outcome : Except Failure α} {f : Except Failure α → Procedure β}
    (h : Speaks settings catalog procedure (.closed outcome))
    (hnext : Speaks settings catalog (f outcome) after) :
    Speaks settings catalog (procedure.attempt f) after := by
  induction procedure with
  | done other =>
      cases h
      exact hnext
  | access update next ih =>
      cases h with
      | access hupdate h => exact .access hupdate fun state hstate => ih state (h state hstate)
  | context update next ih =>
      cases h with
      | context _ h => exact .context _ fun bound => ih bound (h bound)
  | emit record next ih =>
      cases h with
      | emit _ h => exact .emit _ (ih h)
  | acquire cube next ih => cases h
  | query request next ih => cases h
  | gather gathering next ih => cases h
  | execute statements next ih => cases h

theorem attempt {f : Except Failure α → Procedure β} {g : Except Failure α → Dialogue β}
    (h : Speaks settings catalog procedure dialogue)
    (hnext : ∀ catalog outcome, Speaks settings catalog (f outcome) (g outcome)) :
    Speaks settings catalog (procedure.attempt f) (dialogue.attempt g) := by
  induction h with
  | closed outcome => exact hnext _ outcome
  | access hupdate h ih => exact .access hupdate ih
  | context update h ih => exact .context update ih
  | emit record h ih => exact .emit record ih
  | ask request h ih => exact .ask request ih
  | gather gathering h ih => exact .gather gathering ih

theorem bind {f : α → Procedure β} {g : α → Dialogue β}
    (h : Speaks settings catalog procedure dialogue)
    (hnext : ∀ catalog value, Speaks settings catalog (f value) (g value)) :
    Speaks settings catalog (procedure >>= f) (dialogue >>= g) := by
  rw [bind_eq_attempt]
  refine h.attempt fun catalog outcome => ?_
  cases outcome with
  | ok value => exact hnext catalog value
  | error failure => exact .closed (.error failure)

theorem bind_closed {outcome : Except Failure α} {f : α → Procedure β} {g : α → Dialogue β}
    (h : Speaks settings catalog procedure (.closed outcome))
    (hnext : ∀ value, outcome = .ok value → Speaks settings catalog (f value) (g value)) :
    Speaks settings catalog (procedure >>= f) (.closed outcome >>= g) := by
  rw [bind_eq_attempt]
  apply h.attempt_closed
  cases outcome with
  | ok value => exact hnext value rfl
  | error failure => exact .closed (.error failure)

theorem pure (value : α) : Speaks settings catalog (.done (.ok value)) (.closed (.ok value)) :=
  .closed (.ok value)

/-- A log record before the rest of a procedure is no part of its dialogue. -/
theorem logged {level : LogLevel} {event : String} {fields : Keyed Document} {rest : Procedure α}
    (h : Speaks settings catalog rest dialogue) :
    Speaks settings catalog (Procedure.log level event fields >>= fun _ => rest) dialogue :=
  .context id fun _ => .emit _ h

theorem ensuring (h : Speaks settings catalog procedure dialogue) {cleanup : Procedure Unit}
    (hcleanup : ∀ (catalog : Option Catalog) (outcome : Except Failure α),
      Speaks settings catalog (cleanup.bind fun _ => .done outcome) (.closed outcome)) :
    Speaks settings catalog (procedure.ensuring cleanup) dialogue := by
  rw [← dialogue.attempt_closed]
  exact h.attempt hcleanup

/-- A procedure that looks at the engine sees the settings, and the catalog if it is known. -/
theorem looking {f : Engine → Procedure α}
    (h : ∀ state, state.Known settings catalog → Speaks settings catalog (f state) dialogue) :
    Speaks settings catalog (engine >>= f) dialogue :=
  .access (fun _ => ⟨rfl, rfl⟩) h

theorem within (h : Speaks settings catalog procedure dialogue) (fields : Keyed Document) :
    Speaks settings catalog (procedure.within fields) dialogue :=
  .context _ fun _ => h.ensuring fun _ outcome => .context _ fun _ => .closed outcome

theorem leasing (h : Speaks settings catalog procedure dialogue) (tables : List String) :
    Speaks settings catalog (procedure.leasing tables) dialogue :=
  .access (fun _ => ⟨rfl, rfl⟩) fun _ _ =>
    h.ensuring fun _ outcome => .access (fun _ => ⟨rfl, rfl⟩) fun _ _ => .closed outcome

end Speaks

section Operations

variable {engine : Engine} {catalog : Option Catalog}

theorem speaks_send (settings : Settings) (sql : String) (params : List Value) :
    Speaks settings catalog (send sql params .null) (Dialogue.send settings sql params) := by
  refine Speaks.looking fun state hstate => ?_
  rw [hstate.settings]
  exact .ask _ fun answer => .context id fun _ => .emit _ (.closed _)

theorem speaks_requireCube (name : String) :
    Speaks engine.settings (some engine.catalog) (requireCube name)
      (.closed (engine.catalog.require name)) := by
  refine Speaks.looking fun state hstate => ?_
  rw [hstate.catalog _ rfl]
  exact .closed _

theorem speaks_compile (settings : Settings) (query : Query) (cube : Cube) :
    Speaks settings catalog (compile query cube) (.closed (query.statement cube)) := by
  unfold compile ofExcept
  cases query.statement cube with
  | error failure => exact .closed (.error failure)
  | ok statement => exact Speaks.logged (.closed (.ok statement))

theorem speaks_evaluate (settings : Settings) (query : Query) (cube : Cube)
    (statement : Statement) :
    Speaks settings catalog (evaluate query cube statement)
      (Dialogue.evaluate settings query cube statement) :=
  ((speaks_send settings _ _).leasing cube.tables).bind fun _ _ => .closed _

theorem speaks_runQuery (query : Query) :
    Speaks engine.settings (some engine.catalog) (runQuery query)
      (Dialogue.runQuery engine query) := by
  refine (speaks_requireCube query.cube).bind_closed fun cube _ => ?_
  refine (speaks_compile _ query cube).bind_closed fun statement _ => ?_
  exact speaks_evaluate _ query cube statement

theorem speaks_prepare (cube text : String) :
    Speaks engine.settings (some engine.catalog) (prepare cube text)
      (.closed (engine.prepare cube text)) := by
  unfold Engine.prepare
  rw [← Dialogue.closed_bind]
  refine (speaks_requireCube cube).bind_closed fun definition _ => ?_
  rw [← Dialogue.closed_bind]
  refine Speaks.bind_closed (.closed _) fun query _ => ?_
  by_cases hother : query.cube ≠ definition.name
  · rw [if_pos hother, if_pos hother]
    exact .closed _
  · rw [if_neg hother, if_neg hother, ← Dialogue.closed_bind]
    exact (speaks_compile _ query definition).bind_closed fun statement _ => .pure _

theorem speaks_prepareLogged (cube text : String) :
    Speaks engine.settings (some engine.catalog) (prepareLogged cube text)
      (.closed (engine.prepare cube text)) := by
  refine (speaks_prepare cube text).attempt_closed ?_
  cases engine.prepare cube text with
  | ok prepared => exact .closed (.ok prepared)
  | error failure =>
      have hfail : Speaks engine.settings (some engine.catalog) (fail failure : Procedure Prepared)
          (.closed (.error failure)) := .closed _
      by_cases hengine : failure.isEngine
      · simpa [hengine] using hfail.logged
      · simpa [hengine] using hfail

theorem speaks_series (cube dimension measure what : String) (count : Int) :
    Speaks engine.settings (some engine.catalog) (series cube dimension measure what count)
      (Dialogue.series engine cube dimension measure what count) := by
  unfold series Dialogue.series
  split
  · exact .closed _
  · refine (speaks_requireCube cube).bind_closed fun definition _ => ?_
    refine Speaks.bind_closed (.closed _) fun query _ => ?_
    exact speaks_runQuery query

end Operations

end Procedure

/-- Every reading operation leads its dialogue. -/
theorem Read.speaks (engine : Engine) (operation : Read) :
    Procedure.Speaks engine.settings (some engine.catalog) operation.procedure
      (operation.dialogue engine) := by
  cases operation with
  | executeQuery cube text =>
      refine Procedure.Speaks.within ?_ _
      refine (Procedure.speaks_prepareLogged cube text).bind_closed fun prepared _ => ?_
      exact Procedure.speaks_evaluate _ prepared.query prepared.cube prepared.statement
  | runQuery query => exact Procedure.speaks_runQuery query
  | members cube dimension hierarchy =>
      refine Procedure.Speaks.within (Procedure.Speaks.looking fun state hstate => ?_) _
      rw [hstate.settings, hstate.catalog _ rfl]
      refine Procedure.Speaks.bind_closed (.closed _) fun definition _ => ?_
      refine Procedure.Speaks.bind_closed (.closed _) fun found _ => ?_
      refine Procedure.Speaks.bind_closed (.closed _) fun statement _ => ?_
      refine ((Procedure.speaks_send _ _ _).leasing _).bind fun _ rows => ?_
      exact .closed _
  | sliceAndDice cube dimensions measures filters =>
      refine Procedure.Speaks.within ?_ _
      refine (Procedure.speaks_requireCube cube).bind_closed fun definition _ => ?_
      refine Procedure.Speaks.bind_closed (.closed _) fun query _ => ?_
      exact Procedure.speaks_runQuery query
  | drillDown cube text path =>
      refine Procedure.Speaks.within ?_ _
      refine (Procedure.speaks_prepareLogged cube text).bind_closed fun prepared _ => ?_
      refine (Procedure.speaks_requireCube prepared.query.cube).bind_closed fun definition _ => ?_
      refine Procedure.Speaks.bind_closed (.closed _) fun drilled _ => ?_
      exact Procedure.speaks_runQuery drilled
  | rankings cube dimension measure count =>
      refine Procedure.Speaks.looking fun state hstate => Procedure.Speaks.within ?_ _
      rw [hstate.settings]
      exact (Procedure.speaks_series cube dimension measure "top_n" _).bind fun _ table => .closed _
  | growthRates cube dimension measure count =>
      refine Procedure.Speaks.looking fun state hstate => Procedure.Speaks.within ?_ _
      rw [hstate.settings]
      exact (Procedure.speaks_series cube dimension measure "periods" _).bind fun _ table =>
        .closed _
  | statistics cube =>
      refine Procedure.Speaks.within (Procedure.Speaks.looking fun state hstate => ?_) _
      rw [hstate.settings, hstate.catalog _ rfl]
      refine Procedure.Speaks.bind_closed (.closed _) fun entry _ => ?_
      refine Procedure.Speaks.bind_closed (.closed _) fun table _ => ?_
      refine Procedure.Speaks.bind ?_ fun _ rows => .closed _
      exact Procedure.Speaks.leasing (.gather _ fun _ => .closed _) _

/-- The signal that an event gives to a task. -/
def Event.signal? (index : Nat) : Event → Option Signal
  | .signal other given => if other = index then some given else none
  | .call .. => none

/-- The answer that an event gives to a task. -/
def Event.answer? (index : Nat) (event : Event) : Option (Except Failure QueryResult) :=
  (event.signal? index).bind Signal.answer?

theorem Event.filterMap_answer? (index : Nat) (events : List Event) :
    events.filterMap (Event.answer? index) =
      (events.filterMap (Event.signal? index)).filterMap Signal.answer? :=
  List.filterMap_filterMap.symm

namespace World

variable {world : World} {operation : Read} {index : Nat} {begun : Engine} {bound : LogContext}
  {rest : Procedure operation.Result} {dialogue : Dialogue operation.Result}

/-- A read stands where its dialogue does after an event as before it; a signal that it is given is
heard. -/
theorem stands_next
    (htask : world.tasks[index]? = some ⟨.read operation, begun, bound, rest⟩)
    (h : Procedure.Stands world.engine.settings rest dialogue) (event : Event) :
    ∃ bound rest, (world.next event).tasks[index]? = some ⟨.read operation, begun, bound, rest⟩ ∧
      Procedure.Stands world.engine.settings rest
        (dialogue.hear ([event].filterMap (Event.signal? index))) := by
  cases hsignal : event.signal? index with
  | none =>
      rw [List.filterMap_cons_none hsignal]
      refine ⟨bound, rest, ?_, h⟩
      cases hmoved : world.moved event with
      | none => rwa [next_eq_self hmoved]
      | some moved =>
          rw [tasks_next hmoved, if_neg, htask]
          rintro rfl
          cases event with
          | call call context => simp [place] at htask
          | signal other signal => simp [Event.signal?, place] at hsignal
  | some signal =>
      rw [List.filterMap_cons_some hsignal]
      obtain rfl : event = .signal index signal := by
        cases event with
        | call call context => cases hsignal
        | signal other given =>
            simp only [Event.signal?, Option.ite_none_right_eq_some, Option.some.injEq] at hsignal
            obtain ⟨rfl, rfl⟩ := hsignal
            rfl
      show ∃ bound rest, _ ∧ Procedure.Stands _ rest (dialogue.told signal)
      cases hrest : rest.resume signal with
      | none =>
          rw [next_eq_self (moved_eq_none_of_resume htask hrest), h.told_eq hrest]
          exact ⟨bound, rest, htask, h⟩
      | some following =>
          rw [tasks_next (moved_of_resume htask hrest)]
          refine ⟨_, (following.advance world.engine bound).rest, if_pos rfl, ?_⟩
          exact (h.resume hrest).advance ⟨rfl, by simp⟩ bound

theorem stands_run (hsound : ∀ task ∈ world.tasks, task.Sound Stage.Called)
    (htask : world.tasks[index]? = some ⟨.read operation, begun, bound, rest⟩)
    (h : Procedure.Stands world.engine.settings rest dialogue) (events : List Event) :
    ∃ bound rest, (world.run events).tasks[index]? = some ⟨.read operation, begun, bound, rest⟩ ∧
      Procedure.Stands world.engine.settings rest
        (dialogue.hear (events.filterMap (Event.signal? index))) := by
  induction events generalizing world bound rest dialogue with
  | nil => exact ⟨bound, rest, htask, h⟩
  | cons event events ih =>
      obtain ⟨bound, rest, hnext, hstands⟩ := stands_next htask h event
      have hsettings := settings_next hsound event
      rw [← hsettings] at hstands
      obtain ⟨bound, rest, hrun, hstands⟩ := ih (sound_next hsound event) hnext hstands
      refine ⟨bound, rest, hrun, ?_⟩
      have hevents : event :: events = [event] ++ events := rfl
      rw [hevents, List.filterMap_append, Dialogue.hear_append, ← hsettings]
      exact hstands

/-- A read that is called in any world stands where its dialogue over the engine at that moment does
once it has heard the signals given to it, whatever else has happened meanwhile. -/
theorem stands_of_read {settings : Settings} (before : List Event) (operation : Read)
    (context : LogContext) (events : List Event) {world : World}
    (hworld : world = (fresh settings).run before) :
    ∃ bound rest, ((world.next (.call (.read operation) context)).run events).tasks[
        world.tasks.length]? = some ⟨.read operation, world.engine, bound, rest⟩ ∧
      Procedure.Stands world.engine.settings rest
        ((operation.dialogue world.engine).hear
          (events.filterMap (Event.signal? world.tasks.length))) := by
  have hsound : ∀ task ∈ world.tasks, task.Sound Stage.Called := by
    rw [hworld]
    exact sound_run (by simp [fresh]) before
  have hmoved : world.moved (.call (.read operation) context) =
      some ((Task.made (.read operation) world.engine context).proceed operation.procedure
        world.engine) := rfl
  have htask := tasks_next hmoved world.tasks.length
  have hplace : world.tasks.length = world.place (.call (.read operation) context) := rfl
  rw [if_pos hplace] at htask
  have hstands := (operation.speaks world.engine).advance ⟨rfl, by simp⟩ context
  have hsettings := settings_next hsound (.call (.read operation) context)
  rw [← hsettings] at hstands
  rw [← hsettings]
  exact stands_run (sound_next hsound _) htask hstands events

end World

end StarCube
