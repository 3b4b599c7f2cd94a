import Mathlib.Algebra.Group.Int.Defs
import StarCube.Proofs.Engine.Counting
import StarCube.Proofs.Engine.Definitions
import StarCube.Proofs.Query.References

/-!
How reading operations fail. Whoever calls one can handle all of the engine's own failures at once;
here stand those that slip through, each by where in the operation it comes up.
-/

namespace StarCube

/-- A text that an operation is given to read a query from, with the cube that it is submitted
for. -/
def Read.submitted? : Read → Option (String × String)
  | .executeQuery cube text => some (cube, text)
  | .drillDown cube text _ => some (cube, text)
  | _ => none

/-- Arguments that an operation is meant for: references that can be read as such, and counts that
are not negative. -/
def Read.Valid : Read → Prop
  | .sliceAndDice _ dimensions _ filters =>
      (∀ text ∈ dimensions, Refers text) ∧ ∀ filter ∈ filters, Refers filter.1
  | .drillDown _ _ path => ∀ text ∈ path, Refers text
  | .rankings _ dimension _ count => Refers dimension ∧ ∀ given ∈ count, 0 ≤ given
  | .growthRates _ dimension _ count => Refers dimension ∧ ∀ given ∈ count, 0 ≤ given
  | _ => True

/-- The query that an operation comes to run, over the cube of the catalog that it names. -/
inductive Read.Runs (engine : Engine) : Read → Query → Cube → Prop
  | executeQuery {cube text : String} {prepared : Procedure.Prepared}
      (h : engine.prepare cube text = .ok prepared) :
      Runs engine (.executeQuery cube text) prepared.query prepared.cube
  | runQuery {query : Query} {cube : Cube} (h : engine.catalog.require query.cube = .ok cube) :
      Runs engine (.runQuery query) query cube
  | sliceAndDice {cube : String} {dimensions measures : List String} {filters : Keyed Value}
      {definition : Cube} {query : Query} (hcube : engine.catalog.require cube = .ok definition)
      (h : Query.ofSlice definition cube dimensions measures filters = .ok query) :
      Runs engine (.sliceAndDice cube dimensions measures filters) query definition
  | drillDown {cube text : String} {path : List String} {prepared : Procedure.Prepared}
      {definition : Cube} {drilled : Query} (hprepared : engine.prepare cube text = .ok prepared)
      (hcube : engine.catalog.require prepared.query.cube = .ok definition)
      (h : prepared.query.drilled definition path = .ok drilled) :
      Runs engine (.drillDown cube text path) drilled definition
  | rankings {cube dimension measure : String} {count : Option Int} {definition : Cube}
      {query : Query} (hcount : 0 ≤ count.getD engine.settings.defaultTopN)
      (hcube : engine.catalog.require cube = .ok definition)
      (h : Query.ofSeries definition cube dimension measure = .ok query) :
      Runs engine (.rankings cube dimension measure count) query definition
  | growthRates {cube dimension measure : String} {count : Option Int} {definition : Cube}
      {query : Query} (hcount : 0 ≤ count.getD engine.settings.defaultGrowthPeriods)
      (hcube : engine.catalog.require cube = .ok definition)
      (h : Query.ofSeries definition cube dimension measure = .ok query) :
      Runs engine (.growthRates cube dimension measure count) query definition

/-- The query is compiled and its first answer has rows. -/
def Query.Answered (query : Query) (cube : Cube) (answers : List (Except Failure QueryResult))
    (rows : List Row) : Prop :=
  (∃ statement, query.statement cube = .ok statement) ∧
    ∃ result rest, answers = .ok result :: rest ∧ result.rows = rows

/-- A query text that its cube should be asked holds a whole number of too many digits, or names
that are not checked before it is compiled. -/
inductive Engine.Misreads (engine : Engine) (cube text : String) : Prop
  | numeral {definition : Cube} {fault : ConversionFault}
      (hcube : engine.catalog.require cube = .ok definition)
      (h : Query.parse text = .error (.numeral fault))
  | name {definition : Cube} {query : Query} (hcube : engine.catalog.require cube = .ok definition)
      (hquery : Query.parse text = .ok query) (hname : query.cube = definition.name)
      (h : query.Misnamed definition)

/-- A query that is run has such names, or a cell in the column of a level that cannot be in a
set. -/
inductive Query.Stumbles (query : Query) (cube : Cube)
    (answers : List (Except Failure QueryResult)) :
    Prop
  | name (h : query.Misnamed cube)
  | member {rows : List Row} {ref : LevelRef} {row : Row}
      (hanswered : query.Answered cube answers rows)
      (href : ref ∈ query.levels) (hrow : row ∈ rows) (h : (row.cell ref.label).isMember = false)

/-- The ways in which an operation that is given these signals ends with a failure that is none of
the engine's own. -/
inductive Read.Slips (engine : Engine) (signals : List Signal) : Read → Prop
  | text {operation : Read} {cube text : String}
      (hsubmitted : operation.submitted? = some (cube, text)) (h : engine.Misreads cube text) :
      Slips engine signals operation
  | run {operation : Read} {query : Query} {cube : Cube} (hruns : operation.Runs engine query cube)
      (h : query.Stumbles cube (answersIn signals)) : Slips engine signals operation
  /-- A cell in the column of a hierarchy whose members are asked for cannot be in a set. -/
  | hierarchy {cube dimension : String} {hierarchy : Option String} {definition : Cube}
      {found : Dimension} {chosen : Hierarchy} {result : QueryResult}
      {rest : List (Except Failure QueryResult)} {row : Row} {column : String}
      (hcube : engine.catalog.require cube = .ok definition)
      (hchosen : definition.memberHierarchy cube dimension hierarchy = .ok (found, chosen))
      (hanswers : answersIn signals = .ok result :: rest) (hrow : row ∈ result.rows)
      (hcolumn : column ∈ chosen.columns) (h : (row.exactCell column).isMember = false) :
      Slips engine signals (.members cube dimension hierarchy)
  /-- The values cannot be sorted. -/
  | order {cube dimension measure : String} {count : Option Int} {query : Query} {definition : Cube}
      {rows : List Row} {table : ResultTable} {fault : Value.OrderFault}
      (hruns : (Read.rankings cube dimension measure count).Runs engine query definition)
      (hanswered : query.Answered definition (answersIn signals) rows)
      (htable : query.table definition rows = .ok table)
      (h : Ranking.falling table.series = .error fault) :
      Slips engine signals (.rankings cube dimension measure count)
  /-- One of the values is a whole number beyond the range of doubles. -/
  | range {cube dimension measure : String} {count : Option Int} {query : Query} {definition : Cube}
      {rows : List Row} {table : ResultTable} {entry : Value × Value}
      (hruns : (Read.growthRates cube dimension measure count).Runs engine query definition)
      (hanswered : query.Answered definition (answersIn signals) rows)
      (htable : query.table definition rows = .ok table) (hentry : entry ∈ table.series)
      (h : ResultTable.Exceeds entry.2) :
      Slips engine signals (.growthRates cube dimension measure count)
  /-- No count is given, and the settings have a negative one. -/
  | ranks {cube dimension measure : String} (h : engine.settings.defaultTopN < 0) :
      Slips engine signals (.rankings cube dimension measure none)
  | periods {cube dimension measure : String} (h : engine.settings.defaultGrowthPeriods < 0) :
      Slips engine signals (.growthRates cube dimension measure none)
  /-- A number that the statistics are made of is none. -/
  | statistics {cube : String} {entry : CatalogEntry}
      (hentry : engine.catalog.entry? cube = some entry) (h : entry.published.Uncounted signals) :
      Slips engine signals (.statistics cube)

/-- The store has answered an operation: once, or to the questions for statistics as long as these
are waited for. -/
def Read.Heard (engine : Engine) (signals : List Signal) : Read → Prop
  | .statistics cube =>
      ∀ entry, engine.catalog.entry? cube = some entry → entry.published.Concluded signals
  | _ => answersIn signals ≠ []

section Escapes

variable {α : Type} {engine : Engine} {answers : List (Except Failure QueryResult)}
  {signals : List Signal}

/-- All cubes that can be found are consistent. -/
def Engine.Consistent (engine : Engine) : Prop :=
  ∀ name entry, engine.catalog.entry? name = some entry → entry.published.Consistent

theorem Engine.Consistent.of_require (h : engine.Consistent) {name : String} {cube : Cube}
    (hcube : engine.catalog.require name = .ok cube) : cube.Consistent := by
  obtain ⟨entry, hentry, rfl⟩ := Catalog.require_eq_ok_iff.1 hcube
  exact h name entry hentry

theorem not_foreign_entry {catalog : Catalog} {name : String} : ¬ Foreign (catalog.entry name) := by
  unfold Catalog.entry
  split <;> simp [Failure.isEngine]

theorem not_foreign_require {catalog : Catalog} {name : String} :
    ¬ Foreign (catalog.require name) := by
  rw [Catalog.require, foreign_map_iff]
  exact not_foreign_entry

/-- What a query text may fail with before it is sent to the store. -/
theorem Engine.Consistent.foreign_prepare_iff (h : engine.Consistent) {cube text : String} :
    Foreign (engine.prepare cube text) ↔ engine.Misreads cube text := by
  have hparse : Foreign ((Query.parse text).mapError Failure.ofQueryText) ↔
      ∃ fault, Query.parse text = .error (.numeral fault) := by
    rw [foreign_mapError_iff]
    constructor
    · rintro ⟨fault, hfault, hforeign⟩
      cases fault with
      | misread line column reason => simp [Failure.ofQueryText, Failure.isEngine] at hforeign
      | numeral fault => exact ⟨fault, hfault⟩
    · rintro ⟨fault, hfault⟩
      exact ⟨.numeral fault, hfault, rfl⟩
  have hcompile (definition : Cube) (query : Query)
      (hcube : engine.catalog.require cube = .ok definition) :
      Foreign (query.statement definition >>= fun statement =>
        (pure ⟨definition, query, statement⟩ : Except Failure Procedure.Prepared)) ↔
          query.Misnamed definition := by
    rw [foreign_bind_iff, (h.of_require hcube).foreign_statement_iff]
    exact or_iff_left (by rintro ⟨_, -, hpure⟩; exact not_foreign_ok _ hpure)
  rw [prepare, foreign_bind_iff, or_iff_right not_foreign_require]
  simp only [foreign_bind_iff, hparse, Except.mapError_eq_ok_iff]
  constructor
  · rintro ⟨definition, hcube, ⟨fault, hfault⟩ | ⟨query, hquery, hforeign⟩⟩
    · exact .numeral hcube hfault
    · rw [foreign_refuse_iff rfl, ne_eq, not_not, hcompile definition query hcube] at hforeign
      exact .name hcube hquery hforeign.1 hforeign.2
  · rintro (⟨hcube, hfault⟩ | ⟨hcube, hquery, hname, hmisnamed⟩)
    · exact ⟨_, hcube, .inl ⟨_, hfault⟩⟩
    · refine ⟨_, hcube, .inr ⟨_, hquery, ?_⟩⟩
      rw [foreign_refuse_iff rfl, ne_eq, not_not, hcompile _ _ hcube]
      exact ⟨hname, hmisnamed⟩

/-- A query that is run over a cube fails so, before its answer is shaped or in what is made of
it. -/
def Query.Fails (query : Query) (cube : Cube) (answers : List (Except Failure QueryResult))
    (finish : ResultTable → Except Failure α) : Prop :=
  query.Misnamed cube ∨
    ∃ rows, query.Answered cube answers rows ∧ Foreign (query.table cube rows >>= finish)

theorem Query.fails_iff {query : Query} {cube : Cube} {finish : ResultTable → Except Failure α} :
    query.Fails cube answers finish ↔ query.Stumbles cube answers ∨ ∃ rows table,
      query.Answered cube answers rows ∧ query.table cube rows = .ok table ∧
        Foreign (finish table) := by
  constructor
  · rintro (hname | ⟨rows, hanswered, hforeign⟩)
    · exact .inl (.name hname)
    · obtain ⟨statement, hstatement⟩ := hanswered.1
      rw [foreign_bind_iff, foreign_table_iff hstatement] at hforeign
      obtain ⟨ref, href, row, hrow, hcell⟩ | ⟨table, htable, hforeign⟩ := hforeign
      · exact .inl (.member hanswered href hrow hcell)
      · exact .inr ⟨rows, table, hanswered, htable, hforeign⟩
  · rintro ((hname | @⟨rows, ref, row, hanswered, href, hrow, hcell⟩) |
      ⟨rows, table, hanswered, htable, hforeign⟩)
    · exact .inl hname
    · obtain ⟨statement, hstatement⟩ := hanswered.1
      refine .inr ⟨rows, hanswered, foreign_bind_iff.2 (.inl ?_)⟩
      exact (foreign_table_iff hstatement).2 ⟨ref, href, row, hrow, hcell⟩
    · exact .inr ⟨rows, hanswered, foreign_bind_iff.2 (.inr ⟨table, htable, hforeign⟩)⟩

theorem Query.fails_ok_iff {query : Query} {cube : Cube} :
    query.Fails cube answers Except.ok ↔ query.Stumbles cube answers := by
  simp [fails_iff]

namespace Dialogue

theorem escapes_evaluate_iff {settings : Settings} {query : Query} {cube : Cube}
    {statement : Statement} {finish : ResultTable → Except Failure α} :
    (evaluate settings query cube statement >>= fun table =>
      closed (finish table)).Escapes signals ↔
      ∃ result rest, answersIn signals = .ok result :: rest ∧
        Foreign (query.table cube result.rows >>= finish) := by
  rw [evaluate, bind_assoc]
  simp only [closed_bind]
  exact escapes_send_bind_iff

/-- A query that is compiled fails by what the store answers. -/
theorem escapes_evaluate_iff_fails {settings : Settings} {query : Query} {cube : Cube}
    (hcube : cube.Consistent) {statement : Statement}
    (hstatement : query.statement cube = .ok statement) {finish : ResultTable → Except Failure α} :
    (evaluate settings query cube statement >>= fun table =>
      closed (finish table)).Escapes signals ↔
      query.Fails cube (answersIn signals) finish := by
  have hname : ¬ query.Misnamed cube := by
    rw [← hcube.foreign_statement_iff, hstatement]
    exact not_foreign_ok statement
  rw [escapes_evaluate_iff, Query.Fails, or_iff_right hname]
  constructor
  · rintro ⟨result, rest, hanswers, hforeign⟩
    exact ⟨result.rows, ⟨⟨statement, hstatement⟩, result, rest, hanswers, rfl⟩, hforeign⟩
  · rintro ⟨_, ⟨-, result, rest, hanswers, rfl⟩, hforeign⟩
    exact ⟨result, rest, hanswers, hforeign⟩

theorem escapes_runQuery_iff (h : engine.Consistent) {query : Query}
    {finish : ResultTable → Except Failure α} :
    (runQuery engine query >>= fun table => closed (finish table)).Escapes signals ↔
      ∃ cube, engine.catalog.require query.cube = .ok cube ∧
        query.Fails cube (answersIn signals) finish := by
  rw [runQuery, bind_assoc, escapes_closed_bind_iff, or_iff_right not_foreign_require]
  refine exists_congr fun cube => and_congr_right fun hcube => ?_
  have hconsistent := h.of_require hcube
  rw [bind_assoc, escapes_closed_bind_iff, hconsistent.foreign_statement_iff]
  constructor
  · rintro (hname | ⟨statement, hstatement, hescapes⟩)
    · exact .inl hname
    · exact (escapes_evaluate_iff_fails hconsistent hstatement).1 hescapes
  · rintro (hname | ⟨rows, hanswered, hforeign⟩)
    · exact .inl hname
    · obtain ⟨statement, hstatement⟩ := hanswered.1
      refine .inr ⟨statement, hstatement, ?_⟩
      exact (escapes_evaluate_iff_fails hconsistent hstatement).2 (.inr ⟨rows, hanswered, hforeign⟩)

theorem escapes_series_iff (h : engine.Consistent) {cube dimension measure what : String}
    {count : Int} (hdimension : Refers dimension) {finish : ResultTable → Except Failure α} :
    (series engine cube dimension measure what count >>= fun table => closed (finish table)).Escapes
        signals ↔
      count < 0 ∨ 0 ≤ count ∧ ∃ definition query, engine.catalog.require cube = .ok definition ∧
        Query.ofSeries definition cube dimension measure = .ok query ∧
          query.Fails definition (answersIn signals) finish := by
  unfold series
  split
  · rename_i hcount
    simp only [hcount, true_or, iff_true]
    exact escapes_closed_bind_iff.2 (.inl (by simp [Failure.isEngine]))
  · rename_i hcount
    rw [or_iff_right hcount, and_iff_right (not_lt.1 hcount), bind_assoc, escapes_closed_bind_iff,
      or_iff_right not_foreign_require]
    refine exists_congr fun definition => ?_
    rw [exists_and_left]
    refine and_congr_right fun hcube => ?_
    rw [bind_assoc, escapes_closed_bind_iff,
      or_iff_right ((h.of_require hcube).not_foreign_ofSeries hdimension)]
    refine exists_congr fun query => and_congr_right fun hquery => ?_
    rw [escapes_runQuery_iff h, Query.cube_ofSeries hquery]
    simp [hcube]

end Dialogue

/-- What is prepared is the query that the text reads as, compiled over the cube that it is
submitted for. -/
theorem Engine.prepare_eq_ok {cube text : String} {prepared : Procedure.Prepared}
    (h : engine.prepare cube text = .ok prepared) :
    engine.catalog.require cube = .ok prepared.cube ∧ Query.parse text = .ok prepared.query ∧
      prepared.query.statement prepared.cube = .ok prepared.statement := by
  obtain ⟨definition, hcube, h⟩ := Except.bind_eq_ok_iff.1 h
  obtain ⟨query, hquery, h⟩ := Except.bind_eq_ok_iff.1 h
  obtain ⟨statement, hstatement, h⟩ := Except.bind_eq_ok_iff.1 (Except.refuse_eq_ok_iff.1 h).2
  obtain rfl := Except.ok.inj h
  exact ⟨hcube, Except.mapError_eq_ok_iff.1 hquery, hstatement⟩

/-- The operation comes to run a query that fails so. -/
def Read.RunFails (engine : Engine) (operation : Read) (answers : List (Except Failure QueryResult))
    (finish : ResultTable → Except Failure α) : Prop :=
  ∃ query cube, operation.Runs engine query cube ∧ query.Fails cube answers finish

namespace Read

theorem escapes_runQuery_iff (h : engine.Consistent) {query : Query} :
    (Dialogue.runQuery engine query).Escapes signals ↔
      ∃ cube, engine.catalog.require query.cube = .ok cube ∧
        query.Fails cube (answersIn signals) Except.ok := by
  rw [← (Dialogue.runQuery engine query).bind_closed_ok, Dialogue.escapes_runQuery_iff h]

theorem escapes_executeQuery_iff (h : engine.Consistent) {cube text : String} :
    (Dialogue.executeQuery engine cube text).Escapes signals ↔
      engine.Misreads cube text ∨
      (executeQuery cube text).RunFails engine (answersIn signals) Except.ok := by
  refine Iff.trans Dialogue.escapes_closed_bind_iff (or_congr h.foreign_prepare_iff ?_)
  have hescapes {prepared : Procedure.Prepared}
      (hprepared : engine.prepare cube text = .ok prepared) :
      (Dialogue.evaluate engine.settings prepared.query prepared.cube prepared.statement).Escapes
        signals ↔ prepared.query.Fails prepared.cube (answersIn signals) Except.ok := by
    obtain ⟨hcube, -, hstatement⟩ := Engine.prepare_eq_ok hprepared
    rw [← Dialogue.bind_closed_ok (Dialogue.evaluate _ _ _ _)]
    exact Dialogue.escapes_evaluate_iff_fails (h.of_require hcube) hstatement
  constructor
  · rintro ⟨prepared, hprepared, hfails⟩
    exact ⟨_, _, .executeQuery hprepared, (hescapes hprepared).1 hfails⟩
  · rintro ⟨query, cube, hruns, hfails⟩
    cases hruns with
    | executeQuery hprepared => exact ⟨_, hprepared, (hescapes hprepared).2 hfails⟩

theorem escapes_sliceAndDice_iff (h : engine.Consistent) {cube : String}
    {dimensions measures : List String} {filters : Keyed Value}
    (hvalid : (sliceAndDice cube dimensions measures filters).Valid) :
    (Dialogue.sliceAndDice engine cube dimensions measures filters).Escapes signals ↔
      (sliceAndDice cube dimensions measures filters).RunFails engine (answersIn signals)
        Except.ok := by
  refine Iff.trans Dialogue.escapes_closed_bind_iff ((or_iff_right not_foreign_require).trans ?_)
  refine Iff.trans (exists_congr fun definition => and_congr_right fun hcube =>
    Dialogue.escapes_closed_bind_iff) ?_
  constructor
  · rintro ⟨definition, hcube, hforeign | ⟨query, hquery, hescapes⟩⟩
    · exact absurd hforeign ((h.of_require hcube).not_foreign_ofSlice hvalid.1 hvalid.2)
    · obtain ⟨other, hother, hfails⟩ := (escapes_runQuery_iff h).1 hescapes
      rw [Query.cube_ofSlice hquery, hcube] at hother
      obtain rfl := Except.ok.inj hother
      exact ⟨query, definition, .sliceAndDice hcube hquery, hfails⟩
  · rintro ⟨query, definition, hruns, hfails⟩
    cases hruns with
    | sliceAndDice hcube hquery =>
        refine ⟨definition, hcube, .inr ⟨query, hquery, (escapes_runQuery_iff h).2 ?_⟩⟩
        exact ⟨definition, by rw [Query.cube_ofSlice hquery]; exact hcube, hfails⟩

theorem escapes_drillDown_iff (h : engine.Consistent) {cube text : String} {path : List String}
    (hvalid : (drillDown cube text path).Valid) :
    (Dialogue.drillDown engine cube text path).Escapes signals ↔
      engine.Misreads cube text ∨
      (drillDown cube text path).RunFails engine (answersIn signals) Except.ok := by
  refine Iff.trans Dialogue.escapes_closed_bind_iff (or_congr h.foreign_prepare_iff ?_)
  refine Iff.trans (exists_congr fun prepared => and_congr_right fun hprepared =>
    Dialogue.escapes_closed_bind_iff.trans ((or_iff_right not_foreign_require).trans
      (exists_congr fun definition => and_congr_right fun hcube =>
        Dialogue.escapes_closed_bind_iff))) ?_
  constructor
  · rintro ⟨prepared, hprepared, definition, hcube, hforeign | ⟨drilled, hdrilled, hescapes⟩⟩
    · exact absurd hforeign ((h.of_require hcube).not_foreign_drilled hvalid)
    · obtain ⟨other, hother, hfails⟩ := (escapes_runQuery_iff h).1 hescapes
      rw [Query.cube_drilled hdrilled, hcube] at hother
      obtain rfl := Except.ok.inj hother
      exact ⟨drilled, definition, .drillDown hprepared hcube hdrilled, hfails⟩
  · rintro ⟨drilled, definition, hruns, hfails⟩
    cases hruns with
    | drillDown hprepared hcube hdrilled =>
        refine ⟨_, hprepared, definition, hcube, .inr ⟨drilled, hdrilled, ?_⟩⟩
        refine (escapes_runQuery_iff h).2 ⟨definition, ?_, hfails⟩
        rw [Query.cube_drilled hdrilled]
        exact hcube

theorem escapes_rankings_iff (h : engine.Consistent) {cube dimension measure : String}
    {count : Option Int} (hvalid : (rankings cube dimension measure count).Valid) :
    (Dialogue.rankings engine cube dimension measure
        (count.getD engine.settings.defaultTopN)).Escapes signals ↔
      count.getD engine.settings.defaultTopN < 0 ∨
        (rankings cube dimension measure count).RunFails engine (answersIn signals) fun table =>
          table.ranking (count.getD engine.settings.defaultTopN).toNat := by
  refine Iff.trans (Dialogue.escapes_series_iff h hvalid.1) (or_congr_right ?_)
  constructor
  · rintro ⟨hcount, definition, query, hcube, hquery, hfails⟩
    exact ⟨query, definition, .rankings hcount hcube hquery, hfails⟩
  · rintro ⟨query, definition, hruns, hfails⟩
    cases hruns with
    | rankings hcount hcube hquery => exact ⟨hcount, definition, query, hcube, hquery, hfails⟩

theorem escapes_growthRates_iff (h : engine.Consistent) {cube dimension measure : String}
    {count : Option Int} (hvalid : (growthRates cube dimension measure count).Valid) :
    (Dialogue.growthRates engine cube dimension measure
        (count.getD engine.settings.defaultGrowthPeriods)).Escapes signals ↔
      count.getD engine.settings.defaultGrowthPeriods < 0 ∨
        (growthRates cube dimension measure count).RunFails engine (answersIn signals) fun table =>
          table.growth (count.getD engine.settings.defaultGrowthPeriods).toNat := by
  refine Iff.trans (Dialogue.escapes_series_iff h hvalid.1) (or_congr_right ?_)
  constructor
  · rintro ⟨hcount, definition, query, hcube, hquery, hfails⟩
    exact ⟨query, definition, .growthRates hcount hcube hquery, hfails⟩
  · rintro ⟨query, definition, hruns, hfails⟩
    cases hruns with
    | growthRates hcount hcube hquery => exact ⟨hcount, definition, query, hcube, hquery, hfails⟩

theorem escapes_members_iff (h : engine.Consistent) {cube dimension : String}
    {hierarchy : Option String} :
    (Dialogue.members engine cube dimension hierarchy).Escapes signals ↔
      ∃ definition found chosen result rest, engine.catalog.require cube = .ok definition ∧
        definition.memberHierarchy cube dimension hierarchy = .ok (found, chosen) ∧
          answersIn signals = .ok result :: rest ∧ ∃ row ∈ result.rows, ∃ column ∈ chosen.columns,
            (row.exactCell column).isMember = false := by
  rw [Dialogue.members, Dialogue.escapes_closed_bind_iff, or_iff_right not_foreign_require]
  constructor
  · rintro ⟨definition, hcube, hescapes⟩
    have hconsistent := h.of_require hcube
    rw [Dialogue.escapes_closed_bind_iff, or_iff_right hconsistent.not_foreign_memberHierarchy]
      at hescapes
    obtain ⟨⟨found, chosen⟩, hchosen, hescapes⟩ := hescapes
    obtain ⟨hfound, hmem⟩ := Cube.mem_of_memberHierarchy hchosen
    simp only [hconsistent.memberStatement_eq_ok hfound hmem] at hescapes
    obtain ⟨result, rest, hanswers, hforeign⟩ := Dialogue.escapes_send_bind_iff.1 hescapes
    rw [foreign_distinctMembers_iff] at hforeign
    exact ⟨definition, found, chosen, result, rest, hcube, hchosen, hanswers, hforeign⟩
  · rintro ⟨definition, found, chosen, result, rest, hcube, hchosen, hanswers, hforeign⟩
    have hconsistent := h.of_require hcube
    obtain ⟨hfound, hmem⟩ := Cube.mem_of_memberHierarchy hchosen
    refine ⟨definition, hcube, Dialogue.escapes_closed_bind_iff.2 (.inr ⟨_, hchosen, ?_⟩)⟩
    refine Dialogue.escapes_closed_bind_iff.2 (.inr
      ⟨_, hconsistent.memberStatement_eq_ok hfound hmem _, ?_⟩)
    refine Dialogue.escapes_send_bind_iff.2 ⟨result, rest, hanswers, ?_⟩
    rwa [foreign_distinctMembers_iff]

end Read

namespace Read

variable {operation : Read}

theorem RunFails.slips {finish : ResultTable → Except Failure α}
    (h : operation.RunFails engine (answersIn signals) finish)
    (hfinish : ∀ query cube rows table, operation.Runs engine query cube →
      query.Answered cube (answersIn signals) rows → query.table cube rows = .ok table →
        Foreign (finish table) → operation.Slips engine signals) :
    operation.Slips engine signals := by
  obtain ⟨query, cube, hruns, hfails⟩ := h
  obtain hstumbles | ⟨rows, table, hanswered, htable, hforeign⟩ := Query.fails_iff.1 hfails
  · exact .run hruns hstumbles
  · exact hfinish query cube rows table hruns hanswered htable hforeign

/-- Where nothing is made of the table, the query alone can fail. -/
theorem RunFails.slips_of_ok (h : operation.RunFails engine (answersIn signals) Except.ok) :
    operation.Slips engine signals :=
  h.slips fun _ _ _ _ _ _ _ hok => absurd hok (not_foreign_ok _)

theorem RunFails.of_stumbles {finish : ResultTable → Except Failure α} {query : Query} {cube : Cube}
    (hruns : operation.Runs engine query cube) (h : query.Stumbles cube answers) :
    operation.RunFails engine answers finish :=
  ⟨query, cube, hruns, Query.fails_iff.2 (.inl h)⟩

/-! ### The ways of each operation -/

theorem slips_iff_of_submitted {cube text : String}
    (hsubmitted : operation.submitted? = some (cube, text)) :
    operation.Slips engine signals ↔
      engine.Misreads cube text ∨ operation.RunFails engine (answersIn signals) Except.ok := by
  constructor
  · intro h
    cases h with
    | text hother hmisread =>
        obtain ⟨rfl, rfl⟩ := Prod.mk.inj (Option.some.inj (hsubmitted.symm.trans hother))
        exact .inl hmisread
    | run hruns hstumbles => exact .inr (.of_stumbles hruns hstumbles)
    | _ => cases hsubmitted
  · rintro (hmisread | hfails)
    · exact .text hsubmitted hmisread
    · exact hfails.slips_of_ok

theorem slips_runQuery_iff {query : Query} :
    (runQuery query).Slips engine signals ↔
      ∃ cube, engine.catalog.require query.cube = .ok cube ∧
        query.Fails cube (answersIn signals) Except.ok := by
  constructor
  · intro h
    cases h with
    | text hsubmitted hmisread => cases hsubmitted
    | run hruns hstumbles =>
        cases hruns with
        | runQuery hcube => exact ⟨_, hcube, Query.fails_ok_iff.2 hstumbles⟩
  · rintro ⟨cube, hcube, hfails⟩
    exact .run (.runQuery hcube) (Query.fails_ok_iff.1 hfails)

theorem slips_sliceAndDice_iff {cube : String} {dimensions measures : List String}
    {filters : Keyed Value} :
    (sliceAndDice cube dimensions measures filters).Slips engine signals ↔
      (sliceAndDice cube dimensions measures filters).RunFails engine (answersIn signals)
        Except.ok := by
  refine ⟨fun h => ?_, RunFails.slips_of_ok⟩
  cases h with
  | text hsubmitted hmisread => cases hsubmitted
  | run hruns hstumbles => exact .of_stumbles hruns hstumbles

theorem slips_members_iff {cube dimension : String} {hierarchy : Option String} :
    (members cube dimension hierarchy).Slips engine signals ↔
      ∃ definition found chosen result rest, engine.catalog.require cube = .ok definition ∧
        definition.memberHierarchy cube dimension hierarchy = .ok (found, chosen) ∧
          answersIn signals = .ok result :: rest ∧ ∃ row ∈ result.rows, ∃ column ∈ chosen.columns,
            (row.exactCell column).isMember = false := by
  constructor
  · intro h
    cases h with
    | text hsubmitted hmisread => cases hsubmitted
    | run hruns hstumbles => cases hruns
    | hierarchy hcube hchosen hanswers hrow hcolumn hcell =>
        exact ⟨_, _, _, _, _, hcube, hchosen, hanswers, _, hrow, _, hcolumn, hcell⟩
  · rintro ⟨definition, found, chosen, result, rest, hcube, hchosen, hanswers, row, hrow, column,
      hcolumn, hcell⟩
    exact .hierarchy hcube hchosen hanswers hrow hcolumn hcell

theorem slips_rankings_iff {cube dimension measure : String} {count : Option Int}
    (hvalid : (rankings cube dimension measure count).Valid) :
    (rankings cube dimension measure count).Slips engine signals ↔
      count.getD engine.settings.defaultTopN < 0 ∨
        (rankings cube dimension measure count).RunFails engine (answersIn signals) fun table =>
          table.ranking (count.getD engine.settings.defaultTopN).toNat := by
  constructor
  · intro h
    cases h with
    | text hsubmitted hmisread => cases hsubmitted
    | run hruns hstumbles => exact .inr (.of_stumbles hruns hstumbles)
    | order hruns hanswered htable hfault =>
        refine .inr ⟨_, _, hruns, Query.fails_iff.2 (.inr ⟨_, _, hanswered, htable, ?_⟩)⟩
        exact ResultTable.foreign_ranking_iff.2 ⟨_, hfault⟩
    | ranks hdefault => exact .inl hdefault
  · rintro (hcount | hfails)
    · cases count with
      | none => exact .ranks hcount
      | some given => exact absurd hcount (not_lt.2 (hvalid.2 given rfl))
    · refine hfails.slips fun query definition rows table hruns hanswered htable hforeign => ?_
      obtain ⟨fault, hfault⟩ := ResultTable.foreign_ranking_iff.1 hforeign
      exact .order hruns hanswered htable hfault

theorem slips_growthRates_iff {cube dimension measure : String} {count : Option Int}
    (hvalid : (growthRates cube dimension measure count).Valid) :
    (growthRates cube dimension measure count).Slips engine signals ↔
      count.getD engine.settings.defaultGrowthPeriods < 0 ∨
        (growthRates cube dimension measure count).RunFails engine (answersIn signals) fun table =>
          table.growth (count.getD engine.settings.defaultGrowthPeriods).toNat := by
  constructor
  · intro h
    cases h with
    | text hsubmitted hmisread => cases hsubmitted
    | run hruns hstumbles => exact .inr (.of_stumbles hruns hstumbles)
    | range hruns hanswered htable hentry hexceeds =>
        refine .inr ⟨_, _, hruns, Query.fails_iff.2 (.inr ⟨_, _, hanswered, htable, ?_⟩)⟩
        exact ResultTable.foreign_growth_iff.2 ⟨_, hentry, hexceeds⟩
    | periods hdefault => exact .inl hdefault
  · rintro (hcount | hfails)
    · cases count with
      | none => exact .periods hcount
      | some given => exact absurd hcount (not_lt.2 (hvalid.2 given rfl))
    · refine hfails.slips fun query definition rows table hruns hanswered htable hforeign => ?_
      obtain ⟨entry, hentry, hexceeds⟩ := ResultTable.foreign_growth_iff.1 hforeign
      exact .range hruns hanswered htable hentry hexceeds

theorem slips_statistics_iff {cube : String} :
    (statistics cube).Slips engine signals ↔
      ∃ entry, engine.catalog.entry? cube = some entry ∧ entry.published.Uncounted signals := by
  constructor
  · intro h
    cases h with
    | text hsubmitted hmisread => cases hsubmitted
    | run hruns hstumbles => cases hruns
    | statistics hentry huncounted => exact ⟨_, hentry, huncounted⟩
  · rintro ⟨entry, hentry, huncounted⟩
    exact .statistics hentry huncounted

/-- Over consistent cubes, an operation that is given the arguments that it is meant for ends with a
failure that is none of the engine's own in these ways only. -/
theorem escapes_iff (h : engine.Consistent) (hvalid : operation.Valid) :
    (operation.dialogue engine).Escapes signals ↔ operation.Slips engine signals := by
  cases operation with
  | executeQuery cube text => rw [slips_iff_of_submitted rfl, ← escapes_executeQuery_iff h]; rfl
  | runQuery query => rw [slips_runQuery_iff, ← escapes_runQuery_iff h]; rfl
  | members cube dimension hierarchy => rw [slips_members_iff, ← escapes_members_iff h]; rfl
  | sliceAndDice cube dimensions measures filters =>
      rw [slips_sliceAndDice_iff, ← escapes_sliceAndDice_iff h hvalid]
      rfl
  | drillDown cube text path =>
      rw [slips_iff_of_submitted rfl, ← escapes_drillDown_iff h hvalid]; rfl
  | rankings cube dimension measure count =>
      rw [slips_rankings_iff hvalid, ← escapes_rankings_iff h hvalid]
      rfl
  | growthRates cube dimension measure count =>
      rw [slips_growthRates_iff hvalid, ← escapes_growthRates_iff h hvalid]
      rfl
  | statistics cube => rw [slips_statistics_iff, ← Dialogue.escapes_statistics_iff (h cube)]; rfl

/-- Once the store has answered it, an operation is over. -/
theorem Heard.hear_eq_closed (h : engine.Consistent) (hheard : operation.Heard engine signals) :
    ∃ outcome, (operation.dialogue engine).hear signals = .closed outcome := by
  cases operation with
  | statistics cube => exact Dialogue.hear_statistics_eq_closed (h cube) hheard
  | _ => exact (Read.brief engine rfl).hear_eq_closed hheard

end Read

end Escapes

/-- What a task has failed with. -/
def Task.failure? (task : Task) : Option Failure :=
  match task.rest with
  | .done (.error failure) => some failure
  | _ => none

namespace World

theorem consistent_engine_run (settings : Settings) (events : List Event) :
    ((fresh settings).run events).engine.Consistent := fun _ _ hentry =>
  (consistent_of_entry (Catalog.entry_eq_ok_iff.2 hentry)).2

/-- A read that is called in any world, with the arguments that it is meant for, is over once the
store has answered it, whatever else happens meanwhile; and it ends with a failure that is none of
the engine's own just if it slips on what it has been told. -/
theorem read_fails_iff_slips {settings : Settings} (before : List Event) {operation : Read}
    (hvalid : operation.Valid) (context : LogContext) (events : List Event) {world : World}
    (hworld : world = (fresh settings).run before) {signals : List Signal}
    (hsignals : signals = events.filterMap (Event.signal? world.tasks.length)) :
    ∃ bound rest, ((world.next (.call (.read operation) context)).run events).tasks[
        world.tasks.length]? = some ⟨.read operation, world.engine, bound, rest⟩ ∧
      (operation.Heard world.engine signals → ∃ outcome, rest = .done outcome) ∧
      ((∃ failure, rest = .done (.error failure) ∧ failure.isEngine = false) ↔
        operation.Slips world.engine signals) := by
  obtain ⟨bound, rest, htask, hstands⟩ := stands_of_read before operation context events hworld
  have hconsistent : world.engine.Consistent := by
    rw [hworld]
    exact consistent_engine_run settings before
  rw [← hsignals] at hstands
  refine ⟨bound, rest, htask, fun hheard => ?_, ?_⟩
  · obtain ⟨outcome, hover⟩ := hheard.hear_eq_closed hconsistent
    rw [hover] at hstands
    cases hstands with
    | closed outcome => exact ⟨outcome, rfl⟩
  · rw [← Read.escapes_iff hconsistent hvalid]
    constructor
    · rintro ⟨failure, rfl, hfailure⟩
      cases hhear : (operation.dialogue world.engine).hear signals with
      | closed outcome =>
          rw [hhear] at hstands
          cases hstands
          exact ⟨_, hhear, failure, rfl, hfailure⟩
      | ask request next =>
          rw [hhear] at hstands
          cases hstands
      | gather gathering next =>
          rw [hhear] at hstands
          cases hstands
    · rintro ⟨outcome, hover, failure, rfl, hfailure⟩
      rw [hover] at hstands
      cases hstands with
      | closed outcome => exact ⟨failure, rfl, hfailure⟩

/-- The visits are registered. -/
def registered : World :=
  (fresh .standard).run [.call (.register (.visits "Clock") false) .empty]

/-- The store gives an answer to the first task that comes after. -/
def answered (columns : List String) (cells : List Value) : Event :=
  .signal 1 (.answer (.ok ⟨columns, [cells]⟩))

/-- It gives an answer to one of the questions of that task. -/
def partAnswered (index : Nat) (column : String) (cell : Value) : Event :=
  .signal 1 (.part index (.ok ⟨[column], [[cell]]⟩))

/-- The members of both dimensions are counted before the facts, and the number of the facts is
none. -/
def uncounted : List Event :=
  [partAnswered 2 "member_count" (.int 24), partAnswered 1 "member_count" (.int 3),
    partAnswered 0 "total_records" (.text "many"), .signal 1 .wake]

/-- With these answers the statistics of the visits are over, and end so. -/
theorem statistics_uncounted :
    (Read.statistics "Visits").Valid ∧
      ∃ bound rest, ((registered.next (.call (.read (.statistics "Visits")) .empty)).run
          uncounted).tasks[registered.tasks.length]? =
        some ⟨.read (.statistics "Visits"), registered.engine, bound, rest⟩ ∧
      ∃ failure, rest = .done (.error failure) ∧ failure.isEngine = false := by
  have hvalid : (Read.statistics "Visits").Valid := trivial
  have hworld : registered =
      (fresh .standard).run [.call (.register (.visits "Clock") false) .empty] := rfl
  let facts : Except Failure QueryResult := .ok ⟨["total_records"], [[.text "many"]]⟩
  let clocks : Except Failure QueryResult := .ok ⟨["member_count"], [[.int 24]]⟩
  let days : Except Failure QueryResult := .ok ⟨["member_count"], [[.int 3]]⟩
  let front : List Signal := [.part 2 clocks, .part 1 days, .part 0 facts]
  have hsignals : front ++ .wake :: [] =
      uncounted.filterMap (Event.signal? registered.tasks.length) := rfl
  obtain ⟨bound, rest, htask, -, hfails⟩ :=
    read_fails_iff_slips _ hvalid .empty uncounted hworld hsignals
  have hentry : registered.engine.catalog.entry? "Visits" =
      some ⟨.visits "Clock", .visits "Clock", 0, none⟩ := rfl
  have hparts (index : Nat) (hindex : index ≤ (Cube.visits "Clock").dimensions.length) :
      index = 0 ∨ index = 1 ∨ index = 2 := by
    have hlength : (Cube.visits "Clock").dimensions.length = 2 := rfl
    omega
  have hanswered : (Cube.visits "Clock").Answered front := by
    intro index hindex
    obtain rfl | rfl | rfl := hparts index hindex
    · exact ⟨facts, rfl⟩
    · exact ⟨days, rfl⟩
    · exact ⟨clocks, rfl⟩
  have hfront : (Cube.visits "Clock").Satisfied front := by
    intro index hindex answer hanswer
    obtain rfl | rfl | rfl := hparts index hindex
    · exact ⟨_, (Option.some.inj hanswer).symm⟩
    · exact ⟨_, 3, (Option.some.inj hanswer).symm, rfl⟩
    · exact ⟨_, 24, (Option.some.inj hanswer).symm, rfl⟩
  refine ⟨hvalid, bound, rest, htask, hfails.2 (.statistics hentry ?_)⟩
  exact .records rfl hanswered hfront rfl ⟨_, .noInteger (Text.display "many"), rfl, rfl⟩

/-- The growth of the guests from year to year. -/
def byYear : Read :=
  .growthRates "Visits" "[Time].[Year]" "Guests" none

/-- The growth of so many guests that no double stands for them is none, but fails with an
overflow. -/
theorem byYear_tooLarge :
    byYear.Valid ∧ (Cube.visits "Clock").check = .ok () ∧
      ((((registered.next (.call (.read byYear) .empty)).next
          (answered ["Time_Year", "Guests"] [.int 2024, .int (10 ^ 309)])).tasks[1]?.bind
            Task.failure?).map
        fun failure => (failure.kind, failure.isEngine)) = some ("OverflowError", false) := by
  have hreads : (MemberReference.parse "[Time].[Year]").isOk = true := by decide +kernel
  have hrefers : Refers "[Time].[Year]" := by
    cases hparse : MemberReference.parse "[Time].[Year]" with
    | ok reference => exact ⟨reference, hparse⟩
    | error failure => simp [hparse, Except.isOk, Except.toBool] at hreads
  exact ⟨⟨hrefers, by simp⟩, by decide +kernel, by decide +kernel⟩

end World

end StarCube
