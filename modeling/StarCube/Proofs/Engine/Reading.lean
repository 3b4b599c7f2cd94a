import StarCube.Proofs.Engine.Schedule
import StarCube.Proofs.Outcome

/-!
What the reading operations do to an engine: they look at it, take leases on the tables of
definitions that are published at that moment, and end them. Nothing else of the engine changes.
-/

namespace StarCube

namespace Engine

/-- Tables that are those of a published definition. -/
def Publishes (engine : Engine) (tables : List String) : Prop :=
  ∃ name cube, engine.catalog.require name = .ok cube ∧ tables = cube.tables

/-- A state that differs from an earlier one in its leases at most: some may have ended, and those
that are new are on the tables of published definitions. -/
structure ReadFrom (engine after : Engine) : Prop where
  settings : after.settings = engine.settings
  catalog : after.catalog = engine.catalog
  retired : after.retired = engine.retired
  locks : after.locks = engine.locks
  leases : ∀ lease ∈ after.leases, lease ∈ engine.leases ∨ engine.Publishes lease

theorem ReadFrom.refl (engine : Engine) : engine.ReadFrom engine :=
  ⟨rfl, rfl, rfl, rfl, fun _ => .inl⟩

theorem ReadFrom.trans {engine middle after : Engine} (h : engine.ReadFrom middle)
    (hafter : middle.ReadFrom after) : engine.ReadFrom after where
  settings := hafter.settings.trans h.settings
  catalog := hafter.catalog.trans h.catalog
  retired := hafter.retired.trans h.retired
  locks := hafter.locks.trans h.locks
  leases := by
    intro lease hlease
    rcases hafter.leases lease hlease with hold | ⟨name, cube, hcube, htables⟩
    · exact h.leases lease hold
    · exact .inr ⟨name, cube, h.catalog ▸ hcube, htables⟩

theorem readFrom_release (engine : Engine) (tables : List String) :
    engine.ReadFrom (engine.release tables) :=
  ⟨rfl, rfl, rfl, rfl, fun _ hlease => .inl (List.mem_of_mem_erase hlease)⟩

theorem readFrom_lease {engine : Engine} {tables : List String} (h : engine.Publishes tables) :
    engine.ReadFrom (engine.lease tables) := by
  refine ⟨rfl, rfl, rfl, rfl, ?_⟩
  intro lease hlease
  rcases List.mem_cons.1 hlease with rfl | hold
  · exact .inr h
  · exact .inl hold

end Engine

namespace Procedure

variable {α β : Type}

/-- A procedure that only reads. It may take leases on tables that it has just seen to be those of a
published definition; once it has waited it has to look again. `ends` holds of what it may lease and
of what it gives when it is over. -/
inductive Reads (ends : (List String → Prop) → α → Prop) : (List String → Prop) → Procedure α → Prop
  | done {may : List String → Prop} {outcome : Except Failure α}
      (h : ∀ value, outcome = .ok value → ends may value) : Reads ends may (.done outcome)
  | look {may : List String → Prop} {next : Engine → Procedure α}
      (h : ∀ state, Reads ends (fun tables => may tables ∨ state.Publishes tables) (next state)) :
      Reads ends may (.access id next)
  | lease {may : List String → Prop} {next : Engine → Procedure α} {tables : List String}
      (granted : may tables) (h : ∀ state, Reads ends may (next state)) :
      Reads ends may (.access (·.lease tables) next)
  | release {may : List String → Prop} {next : Engine → Procedure α} (tables : List String)
      (h : ∀ state, Reads ends may (next state)) :
      Reads ends may (.access (·.release tables) next)
  | context {may : List String → Prop} (update : LogContext → LogContext)
      {next : LogContext → Procedure α} (h : ∀ bound, Reads ends may (next bound)) :
      Reads ends may (.context update next)
  | emit {may : List String → Prop} (record : LogRecord) {next : Procedure α}
      (h : Reads ends may next) : Reads ends may (.emit record next)
  | query {may : List String → Prop} (request : StoreQuery)
      {next : Except Failure QueryResult → Procedure α}
      (h : ∀ answer, Reads ends (fun _ => False) (next answer)) :
      Reads ends may (.query request next)
  | gather {may : List String → Prop} (gathering : Gathering)
      {next : Except Failure (List (List Row)) → Procedure α}
      (h : ∀ outcome, Reads ends (fun _ => False) (next outcome)) :
      Reads ends may (.gather gathering next)

/-- A waiting procedure that only reads, however it goes on. -/
def ReadsOn (ends : (List String → Prop) → α → Prop) (procedure : Procedure α) : Prop :=
  ∀ signal rest, procedure.resume signal = some rest → Reads ends (fun _ => False) rest

/-- A procedure that only reads changes no more of the engine than its leases, up to the place where
it halts and from there on. -/
theorem Reads.advance {ends : (List String → Prop) → α → Prop}
    {may : List String → Prop} {procedure : Procedure α} (h : Reads ends may procedure)
    (state : Engine) (bound : LogContext) (hmay : ∀ tables, may tables → state.Publishes tables) :
    state.ReadFrom (procedure.advance state bound).engine ∧
      ReadsOn ends (procedure.advance state bound).rest := by
  induction h generalizing state bound with
  | done h =>
      refine ⟨.refl state, ?_⟩
      intro signal rest hrest
      simp [Procedure.advance, resume] at hrest
  | look h ih =>
      apply ih state state bound
      rintro tables (hold | hnew)
      · exact hmay tables hold
      · exact hnew
  | @lease _ _ tables granted h ih =>
      obtain ⟨hafter, hrest⟩ := ih state (state.lease tables) bound hmay
      exact ⟨(Engine.readFrom_lease (hmay _ granted)).trans hafter, hrest⟩
  | release tables h ih =>
      obtain ⟨hafter, hrest⟩ := ih state (state.release tables) bound hmay
      exact ⟨(state.readFrom_release tables).trans hafter, hrest⟩
  | context update h ih => exact ih bound state (update bound) hmay
  | emit record h ih => exact ih state bound hmay
  | query request h ih =>
      refine ⟨.refl state, ?_⟩
      intro signal rest hrest
      cases signal with
      | answer result =>
          obtain rfl := Option.some.inj hrest
          exact h result
      | _ => cases hrest
  | gather gathering h ih =>
      refine ⟨.refl state, ?_⟩
      intro signal rest hrest
      obtain ⟨_, _, _, -, -, rfl⟩ | ⟨-, -, rfl⟩ := resume_gather hrest
      · exact .context id fun _ => .emit _ (.gather _ h)
      · exact h _

namespace Reads

variable {ends : (List String → Prop) → α → Prop}
  {after : (List String → Prop) → β → Prop} {may : List String → Prop}
  {procedure : Procedure α}

theorem attempt {f : Except Failure α → Procedure β} (h : Reads ends may procedure)
    (hnext : ∀ may outcome, (∀ value, outcome = .ok value → ends may value) →
      Reads after may (f outcome)) :
    Reads after may (procedure.attempt f) := by
  induction h with
  | done h => exact hnext _ _ h
  | look h ih => exact .look ih
  | lease granted h ih => exact .lease granted ih
  | release tables h ih => exact .release tables ih
  | context update h ih => exact .context update ih
  | emit record h ih => exact .emit record ih
  | query request h ih => exact .query request ih
  | gather gathering h ih => exact .gather gathering ih

theorem bind {f : α → Procedure β} (h : Reads ends may procedure)
    (hnext : ∀ may value, ends may value → Reads after may (f value)) :
    Reads after may (procedure >>= f) := by
  rw [bind_eq_attempt]
  refine h.attempt fun may outcome hends => ?_
  cases outcome with
  | ok value => exact hnext may value (hends value rfl)
  | error failure => exact .done (by simp)

theorem pure {value : α} (h : ends may value) : Reads ends may (.done (.ok value)) :=
  .done (by simpa using h)

theorem fail (failure : Failure) : Reads ends may (Procedure.fail failure) :=
  .done (by simp)

theorem log {level : LogLevel} {event : String} {fields : Keyed Document}
    {ends : (List String → Prop) → Unit → Prop} (h : ends may ()) :
    Reads ends may (Procedure.log level event fields) :=
  .context id fun _ => .emit _ (.pure h)

theorem within (h : Reads ends may procedure) (fields : Keyed Document) :
    Reads ends may (procedure.within fields) :=
  .context _ fun _ => h.attempt fun _ _ houtcome => .context _ fun _ => .done houtcome

/-- A lease is taken on tables that have just been seen to be published. -/
theorem leasing {tables : List String} (h : Reads ends may procedure) (granted : may tables) :
    Reads ends may (procedure.leasing tables) :=
  .lease granted fun _ => h.attempt fun _ _ houtcome => .release tables fun _ => .done houtcome

end Reads

section Operations

variable {may : List String → Prop} {cube : Cube}

/-- Nothing is expected at the end. -/
def Whatever (_ : List String → Prop) (_ : α) : Prop :=
  True

theorem Reads.ofExcept {outcome : Except Failure α} :
    Reads Whatever may (Procedure.ofExcept outcome) :=
  .done fun _ _ => trivial

theorem reads_answered (request : StoreQuery) (answer : Except Failure QueryResult) :
    Reads Whatever may (answered request answer) :=
  .context id fun _ => .emit _ .ofExcept

theorem reads_send (sql : String) (params : List Value) (timeout : Value) :
    Reads Whatever may (send sql params timeout) :=
  .look fun _ => .query _ fun answer => reads_answered _ answer

theorem reads_requireCube (name : String) :
    Reads (fun may cube => may cube.tables) may (requireCube name) := by
  refine .look fun state => .done fun cube hcube => ?_
  exact .inr ⟨name, cube, hcube, rfl⟩

theorem reads_compile {ends : (List String → Prop) → Statement → Prop}
    (hends : ∀ statement, ends may statement) (query : Query) (cube : Cube) :
    Reads ends may (compile query cube) := by
  unfold compile Procedure.ofExcept
  cases query.statement cube with
  | error failure => exact .fail failure
  | ok statement => exact .context id fun _ => .emit _ (.pure (hends statement))

theorem reads_evaluate (query : Query) (statement : Statement) (granted : may cube.tables) :
    Reads Whatever may (evaluate query cube statement) :=
  ((reads_send _ _ _).leasing granted).bind fun _ _ _ => .ofExcept

theorem reads_runQuery (query : Query) : Reads Whatever may (runQuery query) := by
  refine (reads_requireCube query.cube).bind fun may cube granted => ?_
  have hcompile : Reads (fun may _ => may cube.tables) may (compile query cube) :=
    reads_compile (fun _ => granted) query cube
  exact hcompile.bind fun may statement granted => reads_evaluate query statement granted

theorem reads_prepare (cube text : String) :
    Reads (fun may prepared => may prepared.cube.tables) may (prepare cube text) := by
  refine (reads_requireCube cube).bind fun may definition granted => ?_
  have hread : Reads (fun may _ => may definition.tables) may
      (Procedure.ofExcept ((Query.parse text).mapError Failure.ofQueryText)) :=
    .done fun _ _ => granted
  refine hread.bind fun may query granted => ?_
  split
  · exact .fail _
  · have hcompile : Reads (fun may _ => may definition.tables) may (compile query definition) :=
      reads_compile (fun _ => granted) query definition
    exact hcompile.bind fun may statement granted => .pure granted

theorem reads_prepareLogged (cube text : String) :
    Reads (fun may prepared => may prepared.cube.tables) may (prepareLogged cube text) := by
  refine (reads_prepare cube text).attempt fun may outcome houtcome => ?_
  cases outcome with
  | ok prepared => exact .pure (houtcome prepared rfl)
  | error failure =>
      have hlog : Reads Whatever may
          (Procedure.log .warning "cube_query_rejected" (failureFields failure)) := .log trivial
      by_cases hengine : failure.isEngine
      · simpa [hengine] using hlog.bind fun _ _ _ => Reads.fail failure
      · simpa [hengine] using Reads.fail failure

theorem reads_executeQuery (cube text : String) : Reads Whatever may (executeQuery cube text) := by
  apply Reads.within
  refine (reads_prepareLogged cube text).bind fun may prepared granted => ?_
  exact reads_evaluate prepared.query prepared.statement granted

theorem reads_drillDown (cube text : String) (path : List String) :
    Reads Whatever may (drillDown cube text path) := by
  apply Reads.within
  refine (reads_prepareLogged cube text).bind fun may prepared _ => ?_
  refine (reads_requireCube prepared.query.cube).bind fun may definition _ => ?_
  exact Reads.ofExcept.bind fun may drilled _ => reads_runQuery drilled

theorem reads_sliceAndDice (cube : String) (dimensions measures : List String)
    (filters : Keyed Value) :
    Reads Whatever may (sliceAndDice cube dimensions measures filters) := by
  apply Reads.within
  refine (reads_requireCube cube).bind fun may definition _ => ?_
  exact Reads.ofExcept.bind fun may query _ => reads_runQuery query

theorem reads_series (cube dimension measure what : String) (count : Int) :
    Reads Whatever may (series cube dimension measure what count) := by
  unfold series
  split
  · exact .fail _
  · refine (reads_requireCube cube).bind fun may definition _ => ?_
    exact Reads.ofExcept.bind fun may query _ => reads_runQuery query

theorem reads_rankings (cube dimension measure : String) (count : Option Int) :
    Reads Whatever may (rankings cube dimension measure count) := by
  refine .look fun state => Reads.within ?_ _
  exact (reads_series _ _ _ _ _).bind fun may table _ => .ofExcept

theorem reads_growthRates (cube dimension measure : String) (count : Option Int) :
    Reads Whatever may (growthRates cube dimension measure count) := by
  refine .look fun state => Reads.within ?_ _
  exact (reads_series _ _ _ _ _).bind fun may table _ => .ofExcept

theorem reads_members (cube dimension : String) (hierarchy : Option String) :
    Reads Whatever may (members cube dimension hierarchy) := by
  apply Reads.within
  refine .look fun state => ?_
  show Reads _ _ (Procedure.ofExcept (state.catalog.require cube) >>= _)
  refine Reads.bind (.done fun definition hdefinition => .inr ⟨cube, definition, hdefinition, rfl⟩)
    fun may definition (granted : may definition.tables) => ?_
  refine Reads.bind (.done fun _ _ => granted) fun may found (granted : may definition.tables) => ?_
  refine Reads.bind (.done fun _ _ => granted)
    fun may statement (granted : may definition.tables) => ?_
  exact ((reads_send _ _ _).leasing granted).bind fun _ _ _ => .ofExcept

theorem reads_ask (questions : List (Except Failure Question)) :
    Reads Whatever may (ask questions) :=
  .gather _ fun _ => .ofExcept

theorem reads_statistics (cube : String) : Reads Whatever may (statistics cube) := by
  apply Reads.within
  refine .look fun state => ?_
  show Reads _ _ (Procedure.ofExcept (state.catalog.entry cube) >>= _)
  have hpublished : ∀ entry, state.catalog.entry cube = .ok entry →
      state.Publishes entry.published.tables := by
    intro entry hentry
    exact ⟨cube, entry.published, by simp [Catalog.require, hentry, Except.map], rfl⟩
  refine Reads.bind (.done fun entry hentry => .inr (hpublished entry hentry))
    fun may entry (granted : may entry.published.tables) => ?_
  refine Reads.bind (.done fun _ _ => granted)
    fun may table (granted : may entry.published.tables) => ?_
  exact ((reads_ask _).leasing granted).bind fun may rows _ => .ofExcept

end Operations

end Procedure

/-- Every reading operation only reads. -/
theorem Read.reads (operation : Read) (may : List String → Prop) :
    Procedure.Reads Procedure.Whatever may operation.procedure := by
  cases operation with
  | executeQuery cube text => exact Procedure.reads_executeQuery cube text
  | runQuery query => exact Procedure.reads_runQuery query
  | members cube dimension hierarchy => exact Procedure.reads_members cube dimension hierarchy
  | sliceAndDice cube dimensions measures filters =>
      exact Procedure.reads_sliceAndDice cube dimensions measures filters
  | drillDown cube text path => exact Procedure.reads_drillDown cube text path
  | rankings cube dimension measure count =>
      exact Procedure.reads_rankings cube dimension measure count
  | growthRates cube dimension measure count =>
      exact Procedure.reads_growthRates cube dimension measure count
  | statistics cube => exact Procedure.reads_statistics cube

end StarCube
