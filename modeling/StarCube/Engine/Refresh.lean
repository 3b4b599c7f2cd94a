import StarCube.Engine.Execution

/-!
Changes of the catalog, with their log records, and refreshing a cube: its tables are copied into
snapshot tables, and a definition over the snapshots is published under the next version. Snapshots
that fall out of the number of versions kept are dropped, unless a lease is held on them: those are
retired and wait for a later refresh. A refresh that fails drops what it has created and publishes
nothing.
-/

namespace StarCube

/-- The snapshot of a table that a version of a cube is made of. -/
def snapshotTable (cube : String) (version : Int) (table : String) : String :=
  table ++ "__" ++ Text.lowerCase cube ++ "_v" ++ toString version

/-- The statement that copies a table into a new one. -/
def createStatement (snapshot table : String) : String :=
  "CREATE TABLE " ++ snapshot ++ " AS SELECT * FROM " ++ table

/-- The statement that removes a table if there is one. -/
def dropStatement (table : String) : String :=
  "DROP TABLE IF EXISTS " ++ table

/-- Texts in rising order, each once. -/
def sortedDistinct (texts : List String) : List String :=
  texts.eraseDups.mergeSort fun left right => left ≤ right

namespace Engine

/-- The tables that are due to be dropped after a version was published: those retired before, and
the snapshots of the version that is no longer kept. -/
def due (engine : Engine) (source : Cube) (cube : String) (version : Int) : List String :=
  let expired := version - engine.settings.refreshKeepVersions
  sortedDistinct (engine.retiredTables cube ++
    if 1 ≤ expired then source.tables.map (snapshotTable cube expired) else [])

/-- Those of the tables due on which a lease is held. -/
def held (engine : Engine) (tables : List String) : List String :=
  tables.filter engine.inUse

/-- Those of the tables due on which no lease is held. -/
def idle (engine : Engine) (tables : List String) : List String :=
  tables.filter fun table => !engine.inUse table

/-- Keeps tables of a cube as retired, in place of those that were. -/
def retire (engine : Engine) (cube : String) (tables : List String) : Engine :=
  { engine with
    retired :=
      if tables.isEmpty then engine.retired.remove cube
      else (engine.retired.remove cube).put cube tables }

end Engine

namespace Procedure

/-- Registers a cube. -/
def register (cube : Cube) (replace : Bool) : Procedure Unit := do
  changeCatalog fun catalog => catalog.register cube replace
  log .info "cube_registered"
    [("cube", textField cube.name), ("dimensions", numberField cube.dimensions.length),
     ("measures", numberField cube.measures.length),
     ("calculated_members", numberField cube.calculatedMembers.length),
     ("replaced", .value (.bool replace))]

/-- Removes a cube. -/
def unregister (name : String) : Procedure Unit := do
  changeCatalog fun catalog => catalog.unregister name
  log .info "cube_unregistered" [("cube", textField name)]

/-- Publishes a definition of a cube. -/
def publish (name : String) (published : Cube) (version : Int) : Procedure Unit := do
  changeCatalog fun catalog => catalog.publish name published version
  log .info "cube_version_published"
    [("cube", textField name), ("version", numberField version)]

/-- Asks the store to execute statements. -/
def executeAll (statements : List String) : Procedure Unit :=
  .execute statements .done

/-- Checks the names of tables and of their snapshots. -/
def checkSnapshots (snapshotOf : String → String) (tables : List String) : Except Failure Unit :=
  tables.forM fun table => do
    discard (requireIdentifier "table name" table)
    discard (requireIdentifier "snapshot table name" (snapshotOf table))

/-- Creates snapshots one after the other. Gives those that were created, and what prevented the
next one. -/
def createSnapshots (snapshotOf : String → String) :
    List String → Procedure (List String × Option Failure)
  | [] => return ([], none)
  | table :: rest =>
      (executeAll [createStatement (snapshotOf table) table]).attempt fun outcome =>
        match outcome with
        | .error failure => return ([], some failure)
        | .ok _ => do
            let (created, failure) ← createSnapshots snapshotOf rest
            return (snapshotOf table :: created, failure)

/-- Creates and publishes the snapshots of a cube. Gives the snapshots that were created, and what
prevented the rest. -/
def buildSnapshots (source : Cube) (cube : String) (version : Int) :
    Procedure (List String × Option Failure) :=
  let snapshotOf := snapshotTable cube version
  match checkSnapshots snapshotOf source.tables with
  | .error failure => return ([], some failure)
  | .ok _ => do
      let (created, failure) ← createSnapshots snapshotOf source.tables
      match failure with
      | some failure => return (created, some failure)
      | none =>
          (publish cube (source.renameTables snapshotOf) version).attempt fun outcome =>
            match outcome with
            | .ok _ => return (created, none)
            | .error failure => return (created, some failure)

/-- Drops tables. A table that stays only costs storage, so a failure is logged and passed over. -/
def dropTables (bound : Keyed Document) (tables : List String) : Procedure Unit :=
  (executeAll (tables.map dropStatement)).attempt fun outcome =>
    match outcome with
    | .ok _ => return ()
    | .error failure =>
        log .warning "cube_snapshot_cleanup_failed"
          (bound.putAll [("tables", .list (tables.map textField)),
            ("error", textField failure.message)])

/-- Drops the tables that are due, and retires those on which a lease is held. -/
def expire (bound : Keyed Document) (source : Cube) (cube : String) (version : Int) :
    Procedure Unit :=
  .access (fun engine => engine.retire cube (engine.held (engine.due source cube version)))
    fun engine => do
      let due := engine.due source cube version
      let held := engine.held due
      if !held.isEmpty then
        log .info "cube_snapshot_drop_deferred"
          (bound.putAll [("tables", .list (held.map textField))])
      let idle := engine.idle due
      if !idle.isEmpty then dropTables bound idle

/-- Refreshes a cube from its source while no other refresh of it is under way. -/
def refreshSource (source : Cube) (cube : String) : Procedure Int := do
  let state ← engine
  let entry ← ofExcept (state.catalog.entry cube)
  let version := entry.version + 1
  let bound : Keyed Document := [("cube", textField cube), ("version", numberField version)]
  log .info "cube_refresh_started"
    (bound.putAll [("tables", numberField source.tables.length)])
  let (created, failure) ← buildSnapshots source cube version
  match failure with
  | some failure => do
      log .error "cube_refresh_failed"
        (bound.putAll [("error", textField failure.message),
          ("error_type", textField failure.kind)])
      if !created.isEmpty then dropTables bound created
      fail (.refresh cube failure)
  | none => do
      expire bound source cube version
      log .info "cube_refresh_completed" bound
      return version

/-- Refreshes a cube; gives the version that was published. -/
def refresh (cube : String) : Procedure Int := do
  let state ← engine
  let entry ← ofExcept (state.catalog.entry cube)
  exclusively cube (refreshSource entry.source cube)

/-- Refreshes a cube on behalf of a caller. -/
def refreshCube (cube : String) : Procedure Int :=
  operation cube "refresh_cube" (refresh cube)

end Procedure

end StarCube
