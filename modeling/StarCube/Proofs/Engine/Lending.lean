import StarCube.Proofs.Engine.Definitions
import StarCube.Proofs.Engine.Dialogue
import StarCube.Proofs.Query.References

/-!
What a reading operation does with the definition that it finds published. It takes a lease on the
tables of that definition before it sends a statement, sends statements over that definition alone,
and gives the lease back however it ends.
-/

namespace StarCube

/-- The published definition of a cube. -/
def Engine.published? (engine : Engine) (name : String) : Option Cube :=
  (engine.catalog.entry? name).map CatalogEntry.published

theorem Engine.require_eq_ok_iff {engine : Engine} {name : String} {cube : Cube} :
    engine.catalog.require name = .ok cube ↔ engine.published? name = some cube := by
  rw [Catalog.require_eq_ok_iff, published?, Option.map_eq_some_iff]

/-- The texts that are sent to read a definition, with the tables that each of them names. -/
inductive Cube.Sent (settings : Settings) (cube : Cube) : List String → String → Prop
  | query {query : Query} {statement : Statement}
      (compiled : query.statement cube = .ok statement) :
      Sent settings cube (statement.factTable :: statement.joins.map Join.table) statement.text
  | members {dimension : Dimension} {hierarchy : Hierarchy} {statement : MemberStatement}
      (mem : dimension ∈ cube.dimensions)
      (checked : memberStatement dimension hierarchy settings.currentFlagColumn = .ok statement) :
      Sent settings cube [statement.table] statement.text
  | facts : Sent settings cube [cube.factTable]
      (factStatement cube.factTable settings.statisticsDateColumn)
  | count {dimension : Dimension} (mem : dimension ∈ cube.dimensions) :
      Sent settings cube [dimension.table]
        (countStatement dimension.table dimension.keyColumn settings.currentFlagColumn)

namespace Query

variable {query : Query} {cube : Cube} {statement : Statement}

end Query

namespace Procedure

variable {α β : Type}

/-- A procedure that borrows a definition: it sends statements over that definition, and only while
it holds a lease on its tables. `known` is the catalog as far as the procedure knows it, which it
does until it has waited; `held` tells whether it holds the lease, and `out` whether it does so at
its end, where `ends` holds of what it gives. -/
inductive Borrows (settings : Settings) (published : Option Cube) (ends : Option Catalog → α → Prop)
    (out : Bool) : Option Catalog → Bool → Procedure α → Prop
  | done {known : Option Catalog} {outcome : Except Failure α}
      (h : ∀ value, outcome = .ok value → ends known value) :
      Borrows settings published ends out known out (.done outcome)
  | look {known : Option Catalog} {held : Bool} {next : Engine → Procedure α}
      (h : ∀ state : Engine, state.Known settings known →
        Borrows settings published ends out known held (next state)) :
      Borrows settings published ends out known held (.access id next)
  | lease {known : Option Catalog} {cube : Cube} {next : Engine → Procedure α}
      (hcube : published = some cube)
      (h : ∀ state, Borrows settings published ends out known true (next state)) :
      Borrows settings published ends out known false (.access (·.lease cube.tables) next)
  | release {known : Option Catalog} {cube : Cube} {next : Engine → Procedure α}
      (hcube : published = some cube)
      (h : ∀ state, Borrows settings published ends out known false (next state)) :
      Borrows settings published ends out known true (.access (·.release cube.tables) next)
  | context {known : Option Catalog} {held : Bool} (update : LogContext → LogContext)
      {next : LogContext → Procedure α}
      (h : ∀ bound, Borrows settings published ends out known held (next bound)) :
      Borrows settings published ends out known held (.context update next)
  | emit {known : Option Catalog} {held : Bool} (record : LogRecord) {next : Procedure α}
      (h : Borrows settings published ends out known held next) :
      Borrows settings published ends out known held (.emit record next)
  | query {known : Option Catalog} {cube : Cube} {tables : List String} {request : StoreQuery}
      {next : Except Failure QueryResult → Procedure α} (hcube : published = some cube)
      (hsent : cube.Sent settings tables request.sql)
      (h : ∀ answer, Borrows settings published ends out none true (next answer)) :
      Borrows settings published ends out known true (.query request next)
  | gather {known : Option Catalog} {cube : Cube} {gathering : Gathering}
      {next : Except Failure (List (List Row)) → Procedure α} (hcube : published = some cube)
      (hsent : ∀ request ∈ gathering.requests, ∃ tables, cube.Sent settings tables request.sql)
      (h : ∀ outcome, (∀ rows, outcome = .ok rows → rows.length = gathering.parts.length) →
        Borrows settings published ends out none true (next outcome)) :
      Borrows settings published ends out known true (.gather gathering next)

namespace Borrows

variable {settings : Settings} {published : Option Cube} {ends : Option Catalog → α → Prop}
  {after : Option Catalog → β → Prop} {known : Option Catalog} {held middle out : Bool}
  {procedure : Procedure α} {cube : Cube}

theorem attempt {f : Except Failure α → Procedure β}
    (h : Borrows settings published ends middle known held procedure)
    (hnext : ∀ known outcome, (∀ value, outcome = .ok value → ends known value) →
      Borrows settings published after out known middle (f outcome)) :
    Borrows settings published after out known held (procedure.attempt f) := by
  induction h with
  | done h => exact hnext _ _ h
  | look h ih => exact .look ih
  | lease hcube h ih => exact .lease hcube ih
  | release hcube h ih => exact .release hcube ih
  | context update h ih => exact .context update ih
  | emit record h ih => exact .emit record ih
  | query hcube hsent h ih => exact .query hcube hsent ih
  | gather hcube hsent h ih => exact .gather hcube hsent ih

/-- A failure ends the whole, so the lease has to be as at the end. -/
theorem bind {f : α → Procedure β} (h : Borrows settings published ends out known held procedure)
    (hnext : ∀ known value, ends known value →
      Borrows settings published after out known out (f value)) :
    Borrows settings published after out known held (procedure >>= f) := by
  rw [bind_eq_attempt]
  refine h.attempt fun known outcome hends => ?_
  cases outcome with
  | ok value => exact hnext known value (hends value rfl)
  | error failure => exact .done (by simp)

theorem pure {value : α} (h : ends known value) :
    Borrows settings published ends out known out (.done (.ok value)) :=
  .done (by simpa using h)

theorem fail (failure : Failure) :
    Borrows settings published ends out known out (Procedure.fail failure) :=
  .done (by simp)

theorem ofExcept (outcome : Except Failure α) :
    Borrows settings published (fun after value => after = known ∧ outcome = .ok value) out known
      out
      (Procedure.ofExcept outcome) :=
  .done fun _ houtcome => ⟨rfl, houtcome⟩

theorem log (level : LogLevel) (event : String) (fields : Keyed Document) :
    Borrows settings published (fun after _ => after = known) out known out
      (Procedure.log level event fields) :=
  .context id fun _ => .emit _ (.pure rfl)

theorem looking {f : Engine → Procedure α}
    (h : ∀ state : Engine, state.Known settings known →
      Borrows settings published ends out known held (f state)) :
    Borrows settings published ends out known held (engine >>= f) :=
  .look h

theorem within (h : Borrows settings published ends out known held procedure)
    (fields : Keyed Document) :
    Borrows settings published ends out known held (procedure.within fields) :=
  .context _ fun _ => h.attempt fun _ _ houtcome => .context _ fun _ => .done houtcome

/-- A lease is held from the first step of a procedure to its end, whichever this is. -/
theorem leasing (h : Borrows settings published ends true known true procedure)
    (hcube : published = some cube) :
    Borrows settings published ends false known false (procedure.leasing cube.tables) :=
  .lease hcube fun _ => h.attempt fun _ _ houtcome => .release hcube fun _ => .done houtcome

end Borrows

section Operations

variable {settings : Settings} {published : Option Cube} {known : Option Catalog} {held out : Bool}
  {cube : Cube}

theorem borrows_answered (request : StoreQuery) (answer : Except Failure QueryResult) :
    Borrows settings published (fun _ _ => True) out known out (answered request answer) :=
  .context id fun _ => .emit _ (.done fun _ _ => trivial)

theorem borrows_send (hcube : published = some cube) {tables : List String} {sql : String}
    (hsent : cube.Sent settings tables sql) (params : List Value) (timeout : Value) :
    Borrows settings published (fun _ _ => True) true known true (send sql params timeout) :=
  .look fun _ _ => .query hcube hsent fun answer => borrows_answered _ answer

theorem borrows_compile (query : Query) (cube : Cube) :
    Borrows settings published
      (fun after statement => after = known ∧ query.statement cube = .ok statement)
      out known out (compile query cube) := by
  refine (Borrows.ofExcept _).bind fun after statement hstatement => ?_
  obtain ⟨rfl, hstatement⟩ := hstatement
  refine (Borrows.log _ _ _).bind fun after _ hafter => ?_
  exact .pure ⟨hafter, hstatement⟩

theorem borrows_evaluate (hcube : published = some cube) {query : Query} {statement : Statement}
    (hstatement : query.statement cube = .ok statement) :
    Borrows settings published (fun _ _ => True) false known false
      (evaluate query cube statement) :=
  ((borrows_send hcube (.query hstatement) _ _).leasing hcube).bind fun _ _ _ =>
    .done fun _ _ => trivial

section Known

variable {engine : Engine}

theorem borrows_requireCube (name : String) :
    Borrows settings published
      (fun known cube => known = some engine.catalog ∧ engine.published? name = some cube) out
      (some engine.catalog) out (requireCube name) := by
  refine .look fun state hstate => .done fun cube hcube => ⟨rfl, ?_⟩
  rw [← Engine.require_eq_ok_iff, ← hstate.catalog _ rfl]
  exact hcube

/-- A query is run over the definition of its cube. -/
theorem borrows_runQuery (query : Query) :
    Borrows settings (engine.published? query.cube) (fun _ _ => True) false
      (some engine.catalog) false (runQuery query) := by
  refine (borrows_requireCube query.cube).bind fun known cube hfound => ?_
  obtain ⟨rfl, hcube⟩ := hfound
  refine (borrows_compile query cube).bind fun known statement hcompiled => ?_
  exact borrows_evaluate hcube hcompiled.2

/-- What a query text is prepared to, as long as the catalog is known. -/
structure Prepared.Over (engine : Engine) (name : String) (known : Option Catalog)
    (prepared : Prepared) : Prop where
  known : known = some engine.catalog
  cube : engine.published? name = some prepared.cube
  name : prepared.query.cube = prepared.cube.name
  statement : prepared.query.statement prepared.cube = .ok prepared.statement

theorem borrows_prepare (name text : String) :
    Borrows settings published (Prepared.Over engine name) out (some engine.catalog) out
      (prepare name text) := by
  refine (borrows_requireCube name).bind fun known definition hfound => ?_
  obtain ⟨rfl, hcube⟩ := hfound
  refine (Borrows.ofExcept _).bind fun known query hread => ?_
  obtain ⟨rfl, -⟩ := hread
  split
  · exact .fail _
  · next hname =>
      refine (borrows_compile query definition).bind fun known statement hcompiled => ?_
      exact .pure ⟨hcompiled.1, hcube, Decidable.not_not.1 hname, hcompiled.2⟩

theorem borrows_prepareLogged (name text : String) :
    Borrows settings published (Prepared.Over engine name) out (some engine.catalog) out
      (prepareLogged name text) := by
  refine (borrows_prepare name text).attempt fun known outcome houtcome => ?_
  cases outcome with
  | ok prepared => exact .pure (houtcome prepared rfl)
  | error failure =>
      have hfail : ∀ known, Borrows settings published (Prepared.Over engine name) out known out
          (fail failure) := fun _ => .fail failure
      by_cases hengine : failure.isEngine
      · simpa [hengine]
          using (Borrows.log .warning "cube_query_rejected" (failureFields failure)).bind
          fun known _ _ => hfail known
      · simpa [hengine] using hfail known

theorem borrows_executeQuery (name text : String) :
    Borrows settings (engine.published? name) (fun _ _ => True) false (some engine.catalog) false
      (executeQuery name text) := by
  refine Borrows.within ?_ _
  refine (borrows_prepareLogged name text).bind fun known prepared hprepared => ?_
  exact borrows_evaluate hprepared.cube hprepared.statement

theorem borrows_sliceAndDice (name : String) (dimensions measures : List String)
    (filters : Keyed Value) :
    Borrows settings (engine.published? name) (fun _ _ => True) false (some engine.catalog) false
      (sliceAndDice name dimensions measures filters) := by
  refine Borrows.within ?_ _
  refine (borrows_requireCube name).bind fun known definition hfound => ?_
  obtain ⟨rfl, -⟩ := hfound
  refine (Borrows.ofExcept _).bind fun known query hquery => ?_
  obtain ⟨rfl, hquery⟩ := hquery
  rw [← Query.cube_ofSlice hquery]
  exact borrows_runQuery query

/-- A query text is drilled down over the definition for which it was submitted, as cubes are found
under their own names. -/
theorem borrows_drillDown (hengine : engine.catalog.Titled) (name text : String)
    (path : List String) :
    Borrows settings (engine.published? name) (fun _ _ => True) false (some engine.catalog) false
      (drillDown name text path) := by
  refine Borrows.within ?_ _
  refine (borrows_prepareLogged name text).bind fun known prepared hprepared => ?_
  obtain ⟨rfl, hcube, hname, -⟩ := hprepared
  obtain ⟨entry, hentry, hpublished⟩ := Option.map_eq_some_iff.1 hcube
  have hcubeName : prepared.query.cube = name := by
    rw [hname, ← hpublished]
    exact (hengine name entry hentry).2
  refine (borrows_requireCube prepared.query.cube).bind fun known definition hfound => ?_
  obtain ⟨rfl, -⟩ := hfound
  refine (Borrows.ofExcept _).bind fun known drilled hdrilled => ?_
  obtain ⟨rfl, hdrilled⟩ := hdrilled
  rw [← hcubeName, ← Query.cube_drilled hdrilled]
  exact borrows_runQuery drilled

theorem borrows_series (name dimension measure what : String) (count : Int) :
    Borrows settings (engine.published? name) (fun _ _ => True) false (some engine.catalog) false
      (series name dimension measure what count) := by
  unfold series
  split
  · exact .fail _
  · refine (borrows_requireCube name).bind fun known definition hfound => ?_
    obtain ⟨rfl, -⟩ := hfound
    refine (Borrows.ofExcept _).bind fun known query hquery => ?_
    obtain ⟨rfl, hquery⟩ := hquery
    rw [← Query.cube_ofSeries hquery]
    exact borrows_runQuery query

theorem borrows_rankings (name dimension measure : String) (count : Option Int) :
    Borrows settings (engine.published? name) (fun _ _ => True) false (some engine.catalog) false
      (rankings name dimension measure count) := by
  refine .look fun state _ => Borrows.within ?_ _
  exact (borrows_series _ _ _ _ _).bind fun _ _ _ => .done fun _ _ => trivial

theorem borrows_growthRates (name dimension measure : String) (count : Option Int) :
    Borrows settings (engine.published? name) (fun _ _ => True) false (some engine.catalog) false
      (growthRates name dimension measure count) := by
  refine .look fun state _ => Borrows.within ?_ _
  exact (borrows_series _ _ _ _ _).bind fun _ _ _ => .done fun _ _ => trivial

theorem borrows_members (name dimension : String) (hierarchy : Option String) :
    Borrows engine.settings (engine.published? name)
    (fun _ _ => True) false (some engine.catalog) false
      (members name dimension hierarchy) := by
  refine Borrows.within (Borrows.looking fun state hstate => ?_) _
  rw [hstate.settings, hstate.catalog _ rfl]
  refine (Borrows.ofExcept _).bind fun known definition hfound => ?_
  obtain ⟨rfl, hfound⟩ := hfound
  have hcube := Engine.require_eq_ok_iff.1 hfound
  refine (Borrows.ofExcept _).bind fun known chosen hchosen => ?_
  obtain ⟨rfl, hchosen⟩ := hchosen
  refine (Borrows.ofExcept _).bind fun known statement hstatement => ?_
  have hmem := (Cube.mem_of_memberHierarchy hchosen).1
  refine ((borrows_send hcube (.members hmem hstatement.2) _ _).leasing hcube).bind fun _ _ _ => ?_
  exact .done fun _ _ => trivial

end Known

/-! ### Statistics -/

/-- Questions for statistics are put over the tables of the cube. -/
theorem sent_of_question {question : Question}
    (h : .ok question ∈ cube.questions settings cube.factTable) :
    ∃ tables, cube.Sent settings tables question.request.sql := by
  rcases List.mem_cons.1 h with hfacts | hcount
  · obtain rfl := Except.ok.inj hfacts
    exact ⟨_, .facts⟩
  · obtain ⟨dimension, hdimension, hquestion⟩ := List.mem_map.1 hcount
    obtain ⟨table, htable, hquestion⟩ := Except.bind_eq_ok_iff.1 hquestion
    obtain ⟨keyColumn, hkeyColumn, hquestion⟩ := Except.bind_eq_ok_iff.1 hquestion
    obtain ⟨-, rfl⟩ := requireIdentifier_eq_ok_iff.1 htable
    obtain ⟨-, rfl⟩ := requireIdentifier_eq_ok_iff.1 hkeyColumn
    obtain rfl := Except.ok.inj hquestion
    exact ⟨_, .count hdimension⟩

theorem borrows_ask (hcube : published = some cube) :
    Borrows settings published (fun _ rows => rows.length = cube.dimensions.length + 1) true known
      true
      (ask (cube.questions settings cube.factTable)) := by
  refine .gather hcube (fun request hrequest => ?_) fun outcome hlength =>
    .done fun rows hrows => ?_
  · obtain ⟨question, hquestion, rfl⟩ := Gathering.mem_requests_ofQuestions hrequest
    exact sent_of_question hquestion
  · rw [hlength rows hrows]
    simp [Gathering.ofQuestions, Cube.questions]

end Operations

end Procedure

/-- Statistics that tell of an entry of the catalog. -/
structure CubeStatistics.Of (entry : CatalogEntry) (statistics : CubeStatistics) : Prop where
  cube : statistics.cube = entry.published.name
  factTable : statistics.factTable = entry.published.factTable
  dimensions : statistics.dimensions.map Prod.fst = entry.published.dimensions.map Dimension.name
  measures : statistics.measures = entry.published.measures.length
  calculatedMembers : statistics.calculatedMembers = entry.published.calculatedMembers.length
  version : statistics.version = entry.version
  refreshedAt : statistics.refreshedAt = entry.refreshedAt

/-- The counts have the names of the dimensions, in their order. -/
theorem names_memberCounts {dimensions : List Dimension} {rows : List (List Row)}
    {counts : List (String × Int)} (hlength : rows.length = dimensions.length)
    (h : memberCounts dimensions rows = .ok counts) :
    counts.map Prod.fst = dimensions.map Dimension.name := by
  induction dimensions generalizing rows counts with
  | nil =>
      obtain rfl := Except.pure_eq_ok_iff.1 h
      rfl
  | cons dimension dimensions ih =>
      cases rows with
      | nil => cases hlength
      | cons first rows =>
          rw [memberCounts, List.zip_cons_cons, List.mapM_cons] at h
          obtain ⟨count, hcount, h⟩ := Except.bind_eq_ok_iff.1 h
          obtain ⟨others, hothers, h⟩ := Except.bind_eq_ok_iff.1 h
          obtain rfl := Except.pure_eq_ok_iff.1 h
          obtain ⟨number, -, rfl⟩ := Except.map_eq_ok_iff.1 hcount
          rw [List.map_cons, List.map_cons, ih (Nat.succ.inj hlength) hothers]

/-- Statistics that are made of the rows for the facts and for each dimension tell of the entry. -/
theorem CatalogEntry.of_statistics {entry : CatalogEntry} {rows : List (List Row)}
    {statistics : CubeStatistics} (hlength : rows.length = entry.published.dimensions.length + 1)
    (h : entry.statistics rows = .ok statistics) : statistics.Of entry := by
  obtain ⟨counts, hcounts, h⟩ := Except.bind_eq_ok_iff.1 h
  obtain ⟨records, -, h⟩ := Except.bind_eq_ok_iff.1 h
  obtain rfl := Except.ok.inj h
  have hrest : (rows.drop 1).length = entry.published.dimensions.length := by simp [hlength]
  exact ⟨rfl, rfl, names_memberCounts hrest hcounts, rfl, rfl, rfl, rfl⟩

namespace Procedure

theorem borrows_statistics {engine : Engine} (name : String) :
    Borrows engine.settings (engine.published? name)
      (fun _ result => ∃ entry, engine.catalog.entry? name = some entry ∧ result.Of entry) false
      (some engine.catalog) false (statistics name) := by
  refine Borrows.within (Borrows.looking fun state hstate => ?_) _
  rw [hstate.settings, hstate.catalog _ rfl]
  refine (Borrows.ofExcept _).bind fun known entry hfound => ?_
  have hentry := Catalog.entry_eq_ok_iff.1 hfound.2
  have hcube : engine.published? name = some entry.published :=
    Option.map_eq_some_iff.2 ⟨entry, hentry, rfl⟩
  refine (Borrows.ofExcept _).bind fun known table htable => ?_
  obtain ⟨-, rfl⟩ := requireIdentifier_eq_ok_iff.1 htable.2
  refine ((borrows_ask hcube).leasing hcube).bind fun known rows hrows => ?_
  exact .done fun statistics hstatistics =>
    ⟨entry, hentry, CatalogEntry.of_statistics hrows hstatistics⟩

end Procedure

namespace Read

/-- The name of the cube that an operation reads. -/
def target : Read → String
  | .executeQuery cube _ => cube
  | .runQuery query => query.cube
  | .members cube _ _ => cube
  | .sliceAndDice cube _ _ _ => cube
  | .drillDown cube _ _ => cube
  | .rankings cube _ _ _ => cube
  | .growthRates cube _ _ _ => cube
  | .statistics cube => cube

/-- What an operation tells of the catalog. Statistics tell of the entry of the cube. -/
def Reports (engine : Engine) : (operation : Read) → operation.Result → Prop
  | .statistics cube, result => ∃ entry, engine.catalog.entry? cube = some entry ∧ result.Of entry
  | _, _ => True

/-- Every reading operation borrows the definition that is published when it is called. -/
theorem borrows {engine : Engine} (hengine : engine.catalog.Titled) (operation : Read) :
    Procedure.Borrows engine.settings (engine.published? operation.target)
      (fun _ => operation.Reports engine) false (some engine.catalog) false
        operation.procedure := by
  cases operation with
  | executeQuery cube text => exact Procedure.borrows_executeQuery cube text
  | runQuery query => exact Procedure.borrows_runQuery query
  | members cube dimension hierarchy => exact Procedure.borrows_members cube dimension hierarchy
  | sliceAndDice cube dimensions measures filters =>
      exact Procedure.borrows_sliceAndDice cube dimensions measures filters
  | drillDown cube text path => exact Procedure.borrows_drillDown hengine cube text path
  | rankings cube dimension measure count =>
      exact Procedure.borrows_rankings cube dimension measure count
  | growthRates cube dimension measure count =>
      exact Procedure.borrows_growthRates cube dimension measure count
  | statistics cube => exact Procedure.borrows_statistics cube

end Read

end StarCube
