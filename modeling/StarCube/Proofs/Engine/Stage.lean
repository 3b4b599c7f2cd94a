import StarCube.Engine.Refresh
import StarCube.Proofs.Catalog
import StarCube.Proofs.Engine.Schedule

/-!
The stages of a refresh. A refresh waits at few kinds of places: for its turn, for the creation of a
snapshot, and for the removal of tables after it has failed or published. What it does from one of
these places to the next is one function of the stage, the state of the engine and the answer, and
the procedure takes exactly these steps.
-/

namespace StarCube

/-- Where a refresh of a cube is. -/
inductive Stage where
  /-- It waits for its turn, with the source that it found when it was called. -/
  | waiting (source : Cube)
  /-- It waits for the snapshot of `table` after it has created others, and before the rest. -/
  | creating (source : Cube) (version : Int) (created : List String) (table : String)
      (rest : List String)
  /-- It has failed and waits for the removal of what it created. -/
  | cleaning (version : Int) (created : List String) (failure : Failure)
  /-- It has published and waits for the removal of tables that are no longer needed. -/
  | expiring (version : Int) (idle : List String)
  | ended (outcome : Except Failure Int)

namespace Engine

/-- The state after the turn of a refresh has ended. -/
def unlocked (engine : Engine) (cube : String) : Engine :=
  { engine with locks := engine.locks.erase cube }

/-- The state while a refresh has its turn. -/
def locked (engine : Engine) (cube : String) : Engine :=
  { engine with locks := cube :: engine.locks }

/-- A state in which the snapshots of a version have been published. -/
def Published (engine : Engine) (cube : String) (source : Cube) (version : Int) (after : Engine) :
    Prop :=
  ∃ catalog, engine.catalog.publish cube (source.renameTables (snapshotTable cube version))
    version =
    .ok catalog ∧ after = { engine with catalog := catalog }

theorem unlocked_locked (engine : Engine) (cube : String) :
    (engine.locked cube).unlocked cube = engine := by
  simp [locked, unlocked]

end Engine

theorem Cube.tables_eq_cons (cube : Cube) : cube.tables = cube.factTable :: cube.tables.tail := by
  unfold tables
  rw [List.eraseDups_cons]
  rfl

namespace Stage

variable (cube : String)

/-- A refresh that has failed removes what it has created. -/
def rollBack (engine : Engine) (version : Int) (created : List String) (failure : Failure) :
    Engine × Stage :=
  if created.isEmpty then (engine.unlocked cube, .ended (.error (.refresh cube failure)))
  else (engine, .cleaning version created failure)

/-- A refresh that has published removes the tables that are due and in no use. -/
def expire (engine : Engine) (source : Cube) (version : Int) : Engine × Stage :=
  let due := engine.due source cube version
  let after := engine.retire cube (engine.held due)
  if (engine.idle due).isEmpty then (after.unlocked cube, .ended (.ok version))
  else (after, .expiring version (engine.idle due))

/-- A refresh that has created all snapshots publishes them. -/
def publish (engine : Engine) (source : Cube) (version : Int) (created : List String) :
    Engine × Stage :=
  match engine.catalog.publish cube (source.renameTables (snapshotTable cube version)) version with
  | .error failure => rollBack cube engine version created failure
  | .ok catalog => expire cube { engine with catalog := catalog } source version

/-- A refresh whose turn has come. -/
def enter (engine : Engine) (source : Cube) : Engine × Stage :=
  match engine.catalog.entry cube with
  | .error failure => (engine, .ended (.error failure))
  | .ok entry =>
      let version := entry.version + 1
      match Procedure.checkSnapshots (snapshotTable cube version) source.tables with
      | .error failure => (engine, .ended (.error (.refresh cube failure)))
      | .ok _ =>
          (engine.locked cube, .creating source version [] source.factTable source.tables.tail)

/-- A refresh that asks for its turn. -/
def ask (engine : Engine) (source : Cube) : Engine × Stage :=
  if engine.locks.contains cube then (engine, .waiting source) else enter cube engine source

/-- A refresh that is called. -/
def start (engine : Engine) : Engine × Stage :=
  match engine.catalog.entry cube with
  | .error failure => (engine, .ended (.error failure))
  | .ok entry => ask cube engine entry.source

/-- A refresh that is told whether the statements it waited for were executed. -/
def acknowledge (engine : Engine) (result : Except Failure Unit) : Stage → Engine × Stage
  | .creating source version created table rest =>
      match result with
      | .error failure => rollBack cube engine version created failure
      | .ok _ =>
          let made := created ++ [snapshotTable cube version table]
          match rest with
          | [] => publish cube engine source version made
          | next :: rest => (engine, .creating source version made next rest)
  | .cleaning _ _ failure => (engine.unlocked cube, .ended (.error (.refresh cube failure)))
  | .expiring version _ => (engine.unlocked cube, .ended (.ok version))
  | stage => (engine, stage)

/-- A refresh that is given a signal; none if it does not wait for such a one. -/
def resume (engine : Engine) : Stage → Signal → Option (Engine × Stage)
  | .waiting source, .turn => some (ask cube engine source)
  | .creating source version created table rest, .acknowledge result =>
      some (acknowledge cube engine result (.creating source version created table rest))
  | .cleaning version created failure, .acknowledge result =>
      some (acknowledge cube engine result (.cleaning version created failure))
  | .expiring version idle, .acknowledge result =>
      some (acknowledge cube engine result (.expiring version idle))
  | _, _ => none

/-- The statements whose execution a refresh waits for. -/
def submitted : Stage → List String
  | .creating _ version _ table _ => [createStatement (snapshotTable cube version table) table]
  | .cleaning _ created _ => created.map dropStatement
  | .expiring _ idle => idle.map dropStatement
  | _ => []

end Stage

namespace Procedure

variable {α β γ : Type}

theorem bind_assoc (procedure : Procedure α) (f : α → Procedure β) (g : β → Procedure γ) :
    (procedure.bind f).bind g = procedure.bind fun value => (f value).bind g := by
  induction procedure with
  | done outcome => cases outcome <;> rfl
  | access update next ih => exact congrArg (access update) (funext ih)
  | context update next ih => exact congrArg (context update) (funext ih)
  | emit record next ih => exact congrArg (emit record) ih
  | acquire cube next ih => exact congrArg (acquire cube) ih
  | query request next ih => exact congrArg (query request) (funext ih)
  | gather gathering next ih => exact congrArg (gather gathering) (funext ih)
  | execute statements next ih => exact congrArg (execute statements) (funext ih)

/-- The turn of a refresh ends with the procedure. -/
def releasing (cube : String) (procedure : Procedure α) : Procedure α :=
  procedure.ensuring (update fun engine => { engine with locks := engine.locks.erase cube })

/-- The log fields of a refresh. -/
def refreshFields (cube : String) (version : Int) : Keyed Document :=
  [("cube", textField cube), ("version", numberField version)]

/-- What a refresh does with the snapshots it has created: if there are all, it publishes them. -/
def conclude (source : Cube) (cube : String) (version : Int) :
    List String × Option Failure → Procedure (List String × Option Failure)
  | (created, some failure) => return (created, some failure)
  | (created, none) =>
      (publish cube (source.renameTables (snapshotTable cube version)) version).attempt
        fun outcome =>
          match outcome with
          | .ok _ => return (created, none)
          | .error failure => return (created, some failure)

/-- What a refresh that has published does about the tables that are due, with those on which a
lease is held and those on which none is. -/
def dropDue (bound : Keyed Document) (held idle : List String) : Procedure Unit := do
  if !held.isEmpty then
    log .info "cube_snapshot_drop_deferred" (bound.putAll [("tables", .list (held.map textField))])
  if !idle.isEmpty then dropTables bound idle

/-- How a refresh ends, once it has published or failed. -/
def settle (source : Cube) (cube : String) (version : Int) :
    List String × Option Failure → Procedure Int
  | (created, some failure) => do
      log .error "cube_refresh_failed"
        ((refreshFields cube version).putAll [("error", textField failure.message),
          ("error_type", textField failure.kind)])
      if !created.isEmpty then dropTables (refreshFields cube version) created
      fail (.refresh cube failure)
  | (_, none) => do
      expire (refreshFields cube version) source cube version
      log .info "cube_refresh_completed" (refreshFields cube version)
      return version

/-- A refresh that has created some snapshots, before it creates those of further tables. -/
def building (source : Cube) (cube : String) (version : Int) (created tables : List String) :
    Procedure Int :=
  releasing cube ((createSnapshots (snapshotTable cube version) tables).bind fun made =>
    (conclude source cube version (created ++ made.1, made.2)).bind (settle source cube version))

end Procedure

namespace Stage

open Procedure

/-- What a refresh does from a stage on. -/
def procedure (cube : String) : Stage → Procedure Int
  | .waiting source => exclusively cube (refreshSource source cube)
  | .creating source version created table rest =>
      building source cube version created (table :: rest)
  | .cleaning version created failure =>
      releasing cube do
        dropTables (refreshFields cube version) created
        fail (.refresh cube failure)
  | .expiring version idle =>
      releasing cube do
        dropTables (refreshFields cube version) idle
        log .info "cube_refresh_completed" (refreshFields cube version)
        return version
  | .ended outcome => .done outcome

/-- A procedure comes to halt where a stage says. -/
def Reaches (cube : String) (rest : Procedure Int) (engine : Engine) (next : Engine × Stage) :
    Prop :=
  ∀ context, rest.advance engine context = ⟨next.1, context, next.2.procedure cube⟩

variable {cube : String} {source : Cube} {version : Int}

theorem reaches_rollBack (engine : Engine) (created : List String) (failure : Failure) :
    Reaches cube (releasing cube (settle source cube version (created, some failure))) engine
      (rollBack cube engine version created failure) := by
  intro context
  cases created with
  | nil => rfl
  | cons first rest => rfl

theorem reaches_dropDue (engine : Engine) (held idle : List String) :
    Reaches cube
      (releasing cube do
        dropDue (refreshFields cube version) held idle
        log .info "cube_refresh_completed" (refreshFields cube version)
        return version)
      engine
      (if idle.isEmpty then (engine.unlocked cube, .ended (.ok version))
        else (engine, .expiring version idle)) := by
  intro context
  cases held <;> cases idle <;> rfl

theorem reaches_expire (engine : Engine) (created : List String) :
    Reaches cube (releasing cube (settle source cube version (created, none))) engine
      (expire cube engine source version) := by
  intro context
  exact reaches_dropDue (engine.retire cube (engine.held (engine.due source cube version)))
    (engine.held (engine.due source cube version)) (engine.idle (engine.due source cube version))
    context

theorem reaches_publish (engine : Engine) (created : List String) :
    Reaches cube (building source cube version created []) engine
      (publish cube engine source version created) := by
  intro context
  have hsnapshots : building source cube version created [] =
      releasing cube ((conclude source cube version (created, none)).bind
        (settle source cube version)) := by
    show releasing cube ((conclude source cube version (created ++ [], none)).bind
      (settle source cube version)) = _
    rw [List.append_nil]
  rw [hsnapshots]
  unfold publish
  cases hpublish : engine.catalog.publish cube
      (source.renameTables (snapshotTable cube version)) version with
  | error failure =>
      refine Eq.trans ?_ (@reaches_rollBack cube source version engine created failure context)
      simp only [conclude, Procedure.publish, changeCatalog, Bind.bind, Procedure.bind, attempt,
        releasing, ensuring, advance, hpublish, Except.map]
      rfl
  | ok catalog =>
      refine Eq.trans ?_ (@reaches_expire cube source version _ created context)
      simp only [conclude, Procedure.publish, changeCatalog, Bind.bind, Procedure.bind, attempt,
        releasing, ensuring, advance, hpublish, Except.map]
      rfl

/-- A refresh that creates a snapshot goes on with the next one, or ends. -/
theorem building_cons (created : List String) (table : String) (rest : List String) :
    building source cube version created (table :: rest) =
      .execute [createStatement (snapshotTable cube version table) table] fun outcome =>
        match outcome with
        | .error failure => releasing cube (settle source cube version (created, some failure))
        | .ok _ =>
            building source cube version (created ++ [snapshotTable cube version table]) rest := by
  apply congrArg (Procedure.execute _)
  funext outcome
  cases outcome with
  | error failure =>
      show releasing cube ((conclude source cube version (created ++ [], some failure)).bind
        (settle source cube version)) = _
      rw [List.append_nil]
      rfl
  | ok _ =>
      have happend : ∀ more : List String, created ++ snapshotTable cube version table :: more =
          created ++ [snapshotTable cube version table] ++ more := by simp
      apply congrArg (releasing cube)
      refine (bind_assoc _ _ _).trans (congrArg (Procedure.bind _) (funext fun made => ?_))
      obtain ⟨more, failure⟩ := made
      show (conclude source cube version (created ++ snapshotTable cube version table :: more,
        failure)).bind (settle source cube version) = _
      rw [happend]

/-- A refresh with snapshots left to create halts where it is. -/
theorem reaches_creating (engine : Engine) (created : List String) (table : String)
    (rest : List String) :
    Reaches cube (building source cube version created (table :: rest)) engine
      (engine, .creating source version created table rest) := by
  intro context
  rw [procedure, building_cons]
  rfl

/-- Building the snapshots and settling what comes of it. -/
theorem releasing_buildSnapshots {tables : List String} (htables : source.tables = tables)
    (hcheck : checkSnapshots (snapshotTable cube version) tables = .ok ()) :
    releasing cube ((buildSnapshots source cube version).bind (settle source cube version)) =
      building source cube version [] tables := by
  subst htables
  have hbuild : buildSnapshots source cube version =
      (createSnapshots (snapshotTable cube version) source.tables).bind
        (conclude source cube version) := by
    simp only [buildSnapshots, hcheck]
    apply congrArg (Procedure.bind _)
    funext made
    obtain ⟨created, failure⟩ := made
    cases failure <;> rfl
  rw [hbuild, bind_assoc]
  rfl

/-- A refresh whose turn has come looks up the version and builds snapshots of the next one. -/
theorem advance_refreshSource {engine : Engine} {entry : CatalogEntry} (source : Cube)
    (hentry : engine.catalog.entry cube = .ok entry) (context : LogContext) :
    (releasing cube (refreshSource source cube)).advance engine context =
      (releasing cube ((buildSnapshots source cube (entry.version + 1)).bind
        (settle source cube (entry.version + 1)))).advance engine context := by
  simp only [refreshSource, Procedure.engine, Procedure.ofExcept, Bind.bind, Procedure.bind,
    releasing, ensuring, attempt, advance, log, hentry]
  congr 3
  funext made
  obtain ⟨created, failure⟩ := made
  cases failure <;> rfl

theorem buildSnapshots_of_error {failure : Failure}
    (hcheck : checkSnapshots (snapshotTable cube version) source.tables = .error failure) :
    buildSnapshots source cube version = .done (.ok ([], some failure)) := by
  simp only [buildSnapshots, hcheck]
  rfl

theorem reaches_enter {engine : Engine} (hlocks : engine.locks.contains cube = false) :
    Reaches cube (exclusively cube (refreshSource source cube)) engine
      (enter cube engine source) := by
  intro context
  have hturn : (exclusively cube (refreshSource source cube)).advance engine context =
      (releasing cube (refreshSource source cube)).advance (engine.locked cube) context := by
    simp only [exclusively, advance, hlocks]
    rfl
  have hcatalog : (engine.locked cube).catalog = engine.catalog := rfl
  rw [hturn]
  unfold enter
  cases hentry : engine.catalog.entry cube with
  | error failure =>
      simp only [refreshSource, Procedure.engine, Procedure.ofExcept, Bind.bind, Procedure.bind,
        releasing, ensuring, attempt, advance, update, hcatalog, hentry]
      exact congrArg (Halt.mk · context _) (engine.unlocked_locked cube)
  | ok entry =>
      rw [advance_refreshSource source (by rw [hcatalog, hentry]) context]
      cases hcheck : checkSnapshots (snapshotTable cube (entry.version + 1)) source.tables with
      | error failure =>
          rw [buildSnapshots_of_error hcheck]
          simp only [hcheck]
          refine (reaches_rollBack (engine.locked cube) [] failure context).trans ?_
          exact congrArg (Halt.mk · context _) (engine.unlocked_locked cube)
      | ok _ =>
          rw [releasing_buildSnapshots source.tables_eq_cons
            (by rw [← source.tables_eq_cons, hcheck])]
          simp only [hcheck]
          exact reaches_creating (engine.locked cube) [] source.factTable source.tables.tail context

theorem reaches_ask (engine : Engine) :
    Reaches cube (exclusively cube (refreshSource source cube)) engine
      (ask cube engine source) := by
  intro context
  unfold ask
  cases hlocks : engine.locks.contains cube with
  | false => exact reaches_enter hlocks context
  | true =>
      simp only [exclusively, advance, hlocks]
      rfl

/-- A refresh that is called comes to halt at a stage. -/
theorem reaches_start (engine : Engine) :
    Reaches cube (refresh cube) engine (start cube engine) := by
  intro context
  have hrefresh : (refresh cube).advance engine context =
      ((Procedure.ofExcept (engine.catalog.entry cube)).bind fun entry =>
        exclusively cube (refreshSource entry.source cube)).advance engine context := rfl
  rw [hrefresh]
  unfold start
  cases engine.catalog.entry cube with
  | error failure => rfl
  | ok entry => exact reaches_ask engine context

theorem reaches_acknowledge_creating (engine : Engine) (created : List String) (table : String)
    (rest : List String) (result : Except Failure Unit) {after : Procedure Int}
    (h : (building source cube version created (table :: rest)).resume (.acknowledge result) =
      some after) :
    Reaches cube after engine
      (acknowledge cube engine result (.creating source version created table rest)) := by
  rw [building_cons] at h
  cases result with
  | error failure =>
      obtain rfl := Option.some.inj h
      exact reaches_rollBack engine created failure
  | ok _ =>
      obtain rfl := Option.some.inj h
      cases rest with
      | nil => exact reaches_publish engine _
      | cons next rest => exact reaches_creating engine _ next rest

theorem reaches_acknowledge_cleaning (engine : Engine) (created : List String) (failure : Failure)
    (result : Except Failure Unit) {after : Procedure Int}
    (h : ((cleaning version created failure).procedure cube).resume (.acknowledge result) =
      some after) :
    Reaches cube after engine
      (acknowledge cube engine result (.cleaning version created failure)) := by
  intro context
  cases result <;> obtain rfl := Option.some.inj h <;> rfl

theorem reaches_acknowledge_expiring (engine : Engine) (idle : List String)
    (result : Except Failure Unit) {after : Procedure Int}
    (h : ((expiring version idle).procedure cube).resume (.acknowledge result) = some after) :
    Reaches cube after engine (acknowledge cube engine result (.expiring version idle)) := by
  intro context
  cases result <;> obtain rfl := Option.some.inj h <;> rfl

/-- A refresh that is given a signal it waits for comes to halt at the next stage. -/
theorem reaches_resume {engine : Engine} {stage : Stage} {signal : Signal} {after : Procedure Int}
    (h : (stage.procedure cube).resume signal = some after) :
    ∃ next, resume cube engine stage signal = some next ∧ Reaches cube after engine next := by
  cases stage with
  | waiting source =>
      cases signal with
      | turn =>
          obtain rfl := Option.some.inj h
          exact ⟨_, rfl, reaches_ask engine⟩
      | _ => simp [procedure, exclusively, Procedure.resume] at h
  | creating source version created table rest =>
      cases signal with
      | acknowledge result =>
          exact ⟨_, rfl, reaches_acknowledge_creating engine created table rest result h⟩
      | _ => simp [procedure, building_cons, Procedure.resume] at h
  | cleaning version created failure =>
      cases signal with
      | acknowledge result =>
          exact ⟨_, rfl, reaches_acknowledge_cleaning engine created failure result h⟩
      | _ => cases h
  | expiring version idle =>
      cases signal with
      | acknowledge result => exact ⟨_, rfl, reaches_acknowledge_expiring engine idle result h⟩
      | _ => cases h
  | ended outcome => cases h

theorem submitted_procedure (stage : Stage) :
    (stage.procedure cube).submitted = stage.submitted cube := by
  cases stage with
  | creating source version created table rest => simp only [procedure, building_cons]; rfl
  | waiting source => rfl
  | cleaning version created failure => rfl
  | expiring version idle => rfl
  | ended outcome => rfl

/-- All that a waiting refresh can do next, with the state it leaves and the stage it comes to. -/
inductive Goes (cube : String) (engine : Engine) : Stage → Engine → Stage → Prop
  | waits (source : Cube) (busy : engine.locks.contains cube = true) :
      Goes cube engine (.waiting source) engine (.waiting source)
  | refused (source : Cube) (failure : Failure) :
      Goes cube engine (.waiting source) engine (.ended (.error failure))
  | enters (source : Cube) (entry : CatalogEntry) (free : cube ∉ engine.locks)
      (registered : engine.catalog.entry? cube = some entry)
      (checked : checkSnapshots (snapshotTable cube (entry.version + 1)) source.tables = .ok ()) :
      Goes cube engine (.waiting source) (engine.locked cube)
        (.creating source (entry.version + 1) [] source.factTable source.tables.tail)
  | creates (source : Cube) (version : Int) (created : List String) (table next : String)
      (rest : List String) :
      Goes cube engine (.creating source version created table (next :: rest)) engine
        (.creating source version (created ++ [snapshotTable cube version table]) next rest)
  | gives (source : Cube) (version : Int) (created : List String) (table : String)
      (rest : List String) (failure : Failure) :
      Goes cube engine (.creating source version created table rest) (engine.unlocked cube)
        (.ended (.error (.refresh cube failure)))
  | fails (source : Cube) (version : Int) (created : List String) (table : String)
      (rest made : List String) (failure : Failure)
      (hmade : made = created ∨ made = created ++ [snapshotTable cube version table]) :
      Goes cube engine (.creating source version created table rest) engine
        (.cleaning version made failure)
  | publishes (source : Cube) (version : Int) (created : List String) (table : String)
      (published : Engine) (hpublished : engine.Published cube source version published) :
      Goes cube engine (.creating source version created table [])
        (published.retire cube (published.held (published.due source cube version)))
        (.expiring version (published.idle (published.due source cube version)))
  | finishes (source : Cube) (version : Int) (created : List String) (table : String)
      (published : Engine) (hpublished : engine.Published cube source version published) :
      Goes cube engine (.creating source version created table [])
        ((published.retire cube (published.held (published.due source cube version))).unlocked cube)
        (.ended (.ok version))
  | cleaned (version : Int) (created : List String) (failure : Failure) :
      Goes cube engine (.cleaning version created failure) (engine.unlocked cube)
        (.ended (.error (.refresh cube failure)))
  | expired (version : Int) (idle : List String) :
      Goes cube engine (.expiring version idle) (engine.unlocked cube) (.ended (.ok version))

theorem goes_ask (cube : String) (engine : Engine) (source : Cube) :
    Goes cube engine (.waiting source) (ask cube engine source).1 (ask cube engine source).2 := by
  unfold ask
  cases hlocks : engine.locks.contains cube with
  | true => exact .waits source hlocks
  | false =>
      have hfree : cube ∉ engine.locks := by simpa using hlocks
      simp only [enter]
      cases hentry : engine.catalog.entry cube with
      | error failure => exact .refused source failure
      | ok entry =>
          cases hcheck : checkSnapshots (snapshotTable cube (entry.version + 1)) source.tables with
          | error failure =>
              simp only [hcheck]
              exact .refused source _
          | ok _ =>
              simp only [hcheck]
              exact .enters source entry hfree (Catalog.entry_eq_ok_iff.1 hentry) hcheck

theorem goes_rollBack (cube : String) (engine : Engine) (source : Cube) (version : Int)
    (created : List String) (table : String) (rest made : List String) (failure : Failure)
    (hmade : made = created ∨ made = created ++ [snapshotTable cube version table]) :
    Goes cube engine (.creating source version created table rest)
      (rollBack cube engine version made failure).1
      (rollBack cube engine version made failure).2 := by
  unfold rollBack
  cases hempty : made.isEmpty with
  | true => exact .gives source version created table rest failure
  | false => exact .fails source version created table rest made failure hmade

theorem goes_publish (cube : String) (engine : Engine) (source : Cube) (version : Int)
    (created : List String) (table : String) :
    Goes cube engine (.creating source version created table [])
      (publish cube engine source version (created ++ [snapshotTable cube version table])).1
      (publish cube engine source version (created ++ [snapshotTable cube version table])).2 := by
  unfold publish
  cases hpublish : engine.catalog.publish cube
      (source.renameTables (snapshotTable cube version)) version with
  | error failure =>
      exact goes_rollBack cube engine source version created table [] _ failure (.inr rfl)
  | ok catalog =>
      have hpublished : engine.Published cube source version { engine with catalog := catalog } :=
        ⟨catalog, hpublish, rfl⟩
      simp only [expire]
      split
      · exact .finishes source version created table _ hpublished
      · exact .publishes source version created table _ hpublished

theorem goes_resume {engine : Engine} {stage : Stage} {signal : Signal} {next : Engine × Stage}
    (h : resume cube engine stage signal = some next) : Goes cube engine stage next.1 next.2 := by
  cases stage with
  | waiting source =>
      cases signal with
      | turn =>
          obtain rfl := Option.some.inj h
          exact goes_ask cube engine source
      | _ => cases h
  | creating source version created table rest =>
      cases signal with
      | acknowledge result =>
          obtain rfl := Option.some.inj h
          cases result with
          | error failure =>
              exact goes_rollBack cube engine source version created table rest _ failure (.inl rfl)
          | ok _ =>
              cases rest with
              | nil => exact goes_publish cube engine source version created table
              | cons next rest => exact .creates source version created table next rest
      | _ => cases h
  | cleaning version created failure =>
      cases signal with
      | acknowledge result =>
          obtain rfl := Option.some.inj h
          exact .cleaned version created failure
      | _ => cases h
  | expiring version idle =>
      cases signal with
      | acknowledge result =>
          obtain rfl := Option.some.inj h
          exact .expired version idle
      | _ => cases h
  | ended outcome => cases h

/-- A refresh that is called ends at once, or goes on as if it had waited with the source that is
registered. -/
theorem start_cases (cube : String) (engine : Engine) :
    (∃ failure, start cube engine = (engine, .ended (.error failure))) ∨
      ∃ entry, engine.catalog.entry? cube = some entry ∧
        Goes cube engine (.waiting entry.source) (start cube engine).1 (start cube engine).2 := by
  unfold start
  cases hentry : engine.catalog.entry cube with
  | error failure => exact .inl ⟨failure, rfl⟩
  | ok entry =>
      exact .inr ⟨entry, Catalog.entry_eq_ok_iff.1 hentry, goes_ask cube engine entry.source⟩

end Stage

end StarCube
