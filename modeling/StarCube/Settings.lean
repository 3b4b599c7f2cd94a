import StarCube.Keyed
import StarCube.Settings.Lenient
import StarCube.Text.LowerCase

/-!
Settings of an engine. Each has a default; what the environment gives takes precedence over the
default, and what a caller gives over both. Names that are no settings are passed over.
-/

namespace StarCube

/-- The settings of an engine. -/
structure Settings where
  warehouseUrl : String
  echoSql : Bool
  poolSize : Int
  maxOverflow : Int
  poolTimeout : Int
  poolRecycle : Int
  queryTimeout : Option Binary64
  currentFlagColumn : String
  statisticsDateColumn : String
  defaultTopN : Int
  defaultGrowthPeriods : Int
  refreshKeepVersions : Int
  logLevel : String
  logFormat : String
deriving DecidableEq, Repr

namespace Settings

/-- The fewest versions of a cube that may be kept. -/
def leastKeptVersions : Nat := 2

/-- Reads one setting. -/
def setting {α : Type} (given : Keyed Value) (name : String) (default : α)
    (read : Value → Reading α) : Reading α :=
  match given.get? name with
  | some value => (read value).within name
  | none => .ok default

/-- Settings from what is given by name. -/
def ofGiven (given : Keyed Value) : Reading Settings :=
  Settings.mk <$>
    setting given "warehouse_url" "sqlite+aiosqlite:///:memory:" Lenient.text <*>
    setting given "echo_sql" false Lenient.flag <*>
    setting given "pool_size" 5 Lenient.integer <*>
    setting given "max_overflow" 10 Lenient.integer <*>
    setting given "pool_timeout" 30 Lenient.integer <*>
    setting given "pool_recycle" 3600 Lenient.integer <*>
    setting given "query_timeout" (some (Binary64.ofInt 30)) Lenient.optionalNumber <*>
    setting given "current_flag_column" "is_current" Lenient.text <*>
    setting given "statistics_date_column" "created_at" Lenient.text <*>
    setting given "default_top_n" 10 Lenient.integer <*>
    setting given "default_growth_periods" 12 Lenient.integer <*>
    setting given "refresh_keep_versions" 2 (Lenient.integerFrom leastKeptVersions) <*>
    setting given "log_level" "INFO" Lenient.text <*>
    setting given "log_format" "json" Lenient.text

/-- What the names of settings start with in the environment, in small letters. -/
def environmentMark : String := "cube_engine_"

/-- The settings that an environment gives. Letter case does not matter in its names; of several
variables for one setting the last counts. -/
def ofEnvironment (environment : Keyed String) : Keyed Value :=
  Keyed.putAll [] (environment.filterMap fun entry =>
    let name := (Text.lowerCase entry.1).toList
    if environmentMark.toList.isPrefixOf name then
      some (String.ofList (name.drop environmentMark.length), Value.text entry.2)
    else none)

/-- Settings from the environment and from what a caller gives. -/
def load (environment : Keyed String) (given : Keyed Value) : Reading Settings :=
  ofGiven ((ofEnvironment environment).putAll given)

/-- The parameters of the connection to the warehouse, by name. -/
def connection (settings : Settings) : Keyed Value :=
  [("url", .text settings.warehouseUrl), ("echo", .bool settings.echoSql),
   ("pool_size", .int settings.poolSize), ("max_overflow", .int settings.maxOverflow),
   ("pool_timeout", .int settings.poolTimeout), ("pool_recycle", .int settings.poolRecycle)]

end Settings

end StarCube
