import StarCube.Catalog
import StarCube.Settings

/-!
The state of an engine: its catalog, the leases that readers hold on tables, the tables that wait to
be dropped, and the cubes that are being refreshed. A lease is a list of tables; a table is in use
as long as a lease is held on it.
-/

namespace StarCube

/-- The state of an engine. -/
structure Engine where
  settings : Settings
  catalog : Catalog
  leases : List (List String)
  retired : Keyed (List String)
  locks : List String
deriving Repr

namespace Engine

/-- Adds a lease. -/
def lease (engine : Engine) (tables : List String) : Engine :=
  { engine with leases := tables :: engine.leases }

/-- Ends a lease. -/
def release (engine : Engine) (tables : List String) : Engine :=
  { engine with leases := engine.leases.erase tables }

/-- A lease is held on a table. -/
def inUse (engine : Engine) (table : String) : Bool :=
  engine.leases.any (·.contains table)

/-- The tables of a cube that wait to be dropped. -/
def retiredTables (engine : Engine) (cube : String) : List String :=
  (engine.retired.get? cube).getD []

/-- Checks the number of versions to keep. -/
def checkKept (versions : Int) : Except Failure Int :=
  if versions < Settings.leastKeptVersions then .error (.keptVersions Settings.leastKeptVersions)
  else .ok versions

/-- An engine over a catalog. The columns that the settings name are written into statements, so
they have to be identifiers. -/
def create (settings : Settings) (catalog : Catalog) : Except Failure Engine := do
  discard (checkKept settings.refreshKeepVersions)
  discard ((checkIdentifier "current flag column" settings.currentFlagColumn).mapError
    Failure.identifier)
  discard ((checkIdentifier "statistics date column" settings.statisticsDateColumn).mapError
    Failure.identifier)
  return ⟨settings, catalog, [], [], []⟩

end Engine

end StarCube
