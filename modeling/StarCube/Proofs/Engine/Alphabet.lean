import StarCube.Proofs.Engine.Current
import StarCube.Proofs.Engine.Handling
import StarCube.Proofs.Engine.Requests
import StarCube.Proofs.Engine.Site
import StarCube.Proofs.Query.Alphabet

/-!
The characters of what an engine hands to its store. Names come from definitions and settings, and
whatever a definition has for a name, nothing is handed over but what is in the alphabet of
statements: an operation that needs another name fails before it asks for anything with it.
Definitions are not taken to have been checked.
-/

namespace StarCube

section Texts

theorem MemberStatement.inAlphabet_text {statement : MemberStatement}
    (hcolumns : ∀ column ∈ statement.columns, InAlphabet column)
    (htable : InAlphabet statement.table) (hflag : InAlphabet statement.flagColumn)
    (horders : ∀ column ∈ statement.orders, InAlphabet column) : InAlphabet statement.text := by
  have hselected : InAlphabet (Statement.listed statement.selected) := by
    apply Statement.inAlphabet_listed
    unfold selected
    rw [List.forall_mem_append]
    exact ⟨hcolumns, fun column hcolumn => horders column (List.mem_of_mem_filter hcolumn)⟩
  have hwords : InAlphabet "SELECT DISTINCT " ∧ InAlphabet "\nFROM " ∧ InAlphabet "\nWHERE " ∧
      InAlphabet " = ?\nORDER BY " := by decide
  unfold text
  simp only [inAlphabet_append_iff, hwords, hselected, htable, hflag,
    Statement.inAlphabet_listed horders, and_self]

theorem inAlphabet_factStatement {table dateColumn : String} (htable : InAlphabet table)
    (hdate : InAlphabet dateColumn) : InAlphabet (factStatement table dateColumn) := by
  have hwords : InAlphabet "SELECT COUNT(*) AS total_records, MIN(" ∧
      InAlphabet ") AS earliest_date, MAX(" ∧ InAlphabet ") AS latest_date\nFROM " := by decide
  unfold factStatement
  simp only [inAlphabet_append_iff, hwords, htable, hdate, and_self]

theorem inAlphabet_countStatement {table keyColumn flagColumn : String} (htable : InAlphabet table)
    (hkey : InAlphabet keyColumn) (hflag : InAlphabet flagColumn) :
    InAlphabet (countStatement table keyColumn flagColumn) := by
  have hwords : InAlphabet "SELECT COUNT(DISTINCT " ∧ InAlphabet ") AS member_count\nFROM " ∧
      InAlphabet "\nWHERE " ∧ InAlphabet " = ?" := by decide
  unfold countStatement
  simp only [inAlphabet_append_iff, hwords, htable, hkey, hflag, and_self]

theorem inAlphabet_createStatement {snapshot table : String} (hsnapshot : InAlphabet snapshot)
    (htable : InAlphabet table) : InAlphabet (createStatement snapshot table) := by
  have hwords : InAlphabet "CREATE TABLE " ∧ InAlphabet " AS SELECT * FROM " := by decide
  unfold createStatement
  simp only [inAlphabet_append_iff, hwords, hsnapshot, htable, and_self]

theorem inAlphabet_dropStatement {table : String} (htable : InAlphabet table) :
    InAlphabet (dropStatement table) :=
  inAlphabet_append_iff.2 ⟨by decide, htable⟩

theorem inAlphabet_toString {version : Int} (h : 0 ≤ version) : InAlphabet (toString version) := by
  obtain ⟨n, rfl⟩ := Int.eq_ofNat_of_zero_le h
  intro c hc
  have hdigit : c.isDigit := isDigit_of_mem_repr hc
  rw [isStatementChar, Char.isAlphanum, hdigit, Bool.or_true, Bool.true_or]

/-- The names of the snapshots of a table differ in the version only. -/
theorem inAlphabet_snapshotTable {cube table : String} {version other : Int}
    (h : InAlphabet (snapshotTable cube version table)) (hother : 0 ≤ other) :
    InAlphabet (snapshotTable cube other table) := by
  unfold snapshotTable at h ⊢
  rw [inAlphabet_append_iff] at h ⊢
  exact ⟨h.1, inAlphabet_toString hother⟩

end Texts

/-- A new engine has settings of which the columns have been checked. -/
theorem Engine.create_eq_ok {settings : Settings} {catalog : Catalog} {engine : Engine}
    (h : create settings catalog = .ok engine) :
    engine = ⟨settings, catalog, [], [], []⟩ ∧ Acceptable settings.currentFlagColumn ∧
      Acceptable settings.statisticsDateColumn := by
  obtain ⟨-, h⟩ := Except.seq_eq_ok_iff.1 h
  obtain ⟨hflag, h⟩ := Except.seq_eq_ok_iff.1 h
  obtain ⟨hdate, h⟩ := Except.seq_eq_ok_iff.1 h
  obtain rfl := Except.ok.inj h
  obtain ⟨_, hflag⟩ := Except.discard_eq_ok_iff.1 hflag
  obtain ⟨_, hdate⟩ := Except.discard_eq_ok_iff.1 hdate
  rw [Except.mapError_eq_ok_iff, checkIdentifier_eq_ok_iff] at hflag hdate
  exact ⟨rfl, hflag.1, hdate.1⟩

/-- A definition is found under a name. -/
def Engine.Finds (engine : Engine) (name : String) (cube : Cube) : Prop :=
  engine.catalog.require name = .ok cube

theorem Engine.Finds.unique {engine : Engine} {name : String} {cube other : Cube}
    (h : engine.Finds name cube) (hother : engine.Finds name other) : other = cube :=
  Except.ok.inj (hother.symm.trans h)

/-- An operation poses one query at most. -/
theorem Read.Poses.unique {engine : Engine} {operation : Read} {lookup other : String}
    {query posed : Query} (h : operation.Poses engine.Finds lookup query)
    (hother : operation.Poses engine.Finds other posed) : other = lookup ∧ posed = query := by
  cases h with
  | executeQuery hquery =>
      cases hother with
      | executeQuery hposed => exact ⟨rfl, Except.ok.inj (hposed.symm.trans hquery)⟩
  | runQuery query =>
      cases hother with
      | runQuery _ => exact ⟨rfl, rfl⟩
  | sliceAndDice hcube hquery =>
      cases hother with
      | sliceAndDice hfound hposed =>
          obtain rfl := hcube.unique hfound
          exact ⟨rfl, Except.ok.inj (hposed.symm.trans hquery)⟩
  | drillDown hquery hcube hdrilled =>
      cases hother with
      | drillDown hread hfound hposed =>
          obtain rfl := Except.ok.inj (hread.symm.trans hquery)
          obtain rfl := hcube.unique hfound
          exact ⟨rfl, Except.ok.inj (hposed.symm.trans hdrilled)⟩
  | rankings hcube hquery =>
      cases hother with
      | rankings hfound hposed =>
          obtain rfl := hcube.unique hfound
          exact ⟨rfl, Except.ok.inj (hposed.symm.trans hquery)⟩
  | growthRates hcube hquery =>
      cases hother with
      | growthRates hfound hposed =>
          obtain rfl := hcube.unique hfound
          exact ⟨rfl, Except.ok.inj (hposed.symm.trans hquery)⟩

/-- A reading operation needs a name for what it asks the store. -/
inductive Read.Needs (engine : Engine) : Read → String → Prop
  | query {operation : Read} {lookup name : String} {query : Query} {cube : Cube}
      (poses : operation.Poses engine.Finds lookup query) (found : engine.Finds lookup cube)
      (needs : query.Needs cube name) : Needs engine operation name
  | memberTable {cube dimension : String} {hierarchy : Option String} {definition : Cube}
      {found : Dimension} {chosen : Hierarchy} (hcube : engine.Finds cube definition)
      (hchosen : definition.memberHierarchy cube dimension hierarchy = .ok (found, chosen)) :
      Needs engine (.members cube dimension hierarchy) found.table
  | memberColumn {cube dimension : String} {hierarchy : Option String} {definition : Cube}
      {found : Dimension} {chosen : Hierarchy} {level : Level}
      (hcube : engine.Finds cube definition)
      (hchosen : definition.memberHierarchy cube dimension hierarchy = .ok (found, chosen))
      (mem : level ∈ chosen.levels) : Needs engine (.members cube dimension hierarchy) level.column
  | memberSort {cube dimension : String} {hierarchy : Option String} {definition : Cube}
      {found : Dimension} {chosen : Hierarchy} {level : Level}
      (hcube : engine.Finds cube definition)
      (hchosen : definition.memberHierarchy cube dimension hierarchy = .ok (found, chosen))
      (mem : level ∈ chosen.levels) :
      Needs engine (.members cube dimension hierarchy) level.sortColumn
  | facts {cube : String} {entry : CatalogEntry}
      (hentry : engine.catalog.entry? cube = some entry) :
      Needs engine (.statistics cube) entry.published.factTable
  | table {cube : String} {entry : CatalogEntry} {dimension : Dimension}
      (hentry : engine.catalog.entry? cube = some entry)
      (mem : dimension ∈ entry.published.dimensions) :
      Needs engine (.statistics cube) dimension.table
  | keyColumn {cube : String} {entry : CatalogEntry} {dimension : Dimension}
      (hentry : engine.catalog.entry? cube = some entry)
      (mem : dimension ∈ entry.published.dimensions) :
      Needs engine (.statistics cube) dimension.keyColumn

/-- The names that an operation needs are in the alphabet if the query that it poses is compiled. -/
theorem Read.inAlphabet_of_poses {engine : Engine} {operation : Read} {lookup : String}
    {query : Query}
    {cube : Cube} {statement : Statement} (hposes : operation.Poses engine.Finds lookup query)
    (hcube : engine.Finds lookup cube) (hstatement : query.statement cube = .ok statement)
    (name : String) (h : operation.Needs engine name) : InAlphabet name := by
  cases h with
  | query poses found needs =>
      obtain ⟨rfl, rfl⟩ := hposes.unique poses
      obtain rfl := hcube.unique found
      exact (Query.inAlphabet_statement hstatement).2 name needs
  | _ => cases hposes

/-- The texts that a procedure waits for the store to answer or to execute. -/
def Procedure.handed {α : Type} (procedure : Procedure α) : List String :=
  procedure.asked.map StoreQuery.sql ++ procedure.submitted

/-- All requests of a dialogue are in the alphabet, whatever is answered; and where it is closed
with a result, something is granted. -/
inductive Dialogue.Guarded {α : Type} (granted : Prop) : Dialogue α → Prop
  | closed {outcome : Except Failure α} (h : ∀ value, outcome = .ok value → granted) :
      Guarded granted (.closed outcome)
  | ask {request : StoreQuery} {next : Except Failure QueryResult → Dialogue α}
      (hsql : InAlphabet request.sql) (h : ∀ answer, Guarded granted (next answer)) :
      Guarded granted (.ask request next)
  | gather {gathering : Gathering} {next : Except Failure (List (List Row)) → Dialogue α}
      (hsql : ∀ request ∈ gathering.requests, InAlphabet request.sql)
      (h : ∀ outcome, (∀ rows, outcome = .ok rows → gathering.failure = none) →
        Guarded granted (next outcome)) : Guarded granted (.gather gathering next)

namespace Dialogue

variable {α β : Type} {granted after : Prop} {dialogue : Dialogue α}

theorem guarded_error (failure : Failure) :
    (closed (.error failure) : Dialogue α).Guarded granted :=
  .closed fun _ hvalue => by cases hvalue

theorem Guarded.attempt {f : Except Failure α → Dialogue β} (h : dialogue.Guarded granted)
    (hf : ∀ outcome, (∀ value, outcome = .ok value → granted) → (f outcome).Guarded after) :
    (dialogue.attempt f).Guarded after := by
  induction h with
  | closed h => exact hf _ h
  | ask hsql h ih => exact .ask hsql ih
  | gather hsql h ih => exact .gather hsql ih

theorem Guarded.bind {f : α → Dialogue β} (h : dialogue.Guarded granted)
    (hf : ∀ value, granted → (f value).Guarded after) : (dialogue >>= f).Guarded after := by
  apply h.attempt
  intro outcome houtcome
  cases outcome with
  | ok value => exact hf value (houtcome value rfl)
  | error failure => exact guarded_error failure

theorem guarded_closed_bind {outcome : Except Failure α} {f : α → Dialogue β}
    (hf : ∀ value, outcome = .ok value → (f value).Guarded granted) :
    (closed outcome >>= f).Guarded granted := by
  cases outcome with
  | ok value => exact hf value rfl
  | error failure => exact guarded_error failure

/-- What is granted before the last step of a dialogue is granted where it is closed. -/
theorem guarded_of_granted (h : granted) (outcome : Except Failure α) :
    (closed outcome).Guarded granted :=
  .closed fun _ _ => h

theorem guarded_send (settings : Settings) {sql : String} (h : InAlphabet sql)
    (params : List Value) : (send settings sql params).Guarded True :=
  .ask h fun _ => guarded_of_granted trivial _

theorem guarded_evaluate {settings : Settings} {query : Query} {cube : Cube} {statement : Statement}
    (h : query.statement cube = .ok statement) (hgranted : granted) :
    (evaluate settings query cube statement).Guarded granted :=
  (guarded_send settings (Query.inAlphabet_statement h).1 _).bind fun _ _ =>
    guarded_of_granted hgranted _

theorem guarded_runQuery {engine : Engine} {query : Query}
    (h : ∀ cube statement, engine.Finds query.cube cube → query.statement cube = .ok statement →
      granted) : (runQuery engine query).Guarded granted := by
  refine guarded_closed_bind fun cube hcube => ?_
  refine guarded_closed_bind fun statement hstatement => ?_
  exact guarded_evaluate hstatement (h cube statement hcube hstatement)

/-- An operation that runs the query that it poses grants what it needs. -/
theorem guarded_runQuery_of_poses {engine : Engine} {operation : Read} {query : Query}
    (h : operation.Poses engine.Finds query.cube query) :
    (runQuery engine query).Guarded (∀ name, operation.Needs engine name → InAlphabet name) :=
  guarded_runQuery fun _ _ hcube hstatement => Read.inAlphabet_of_poses h hcube hstatement

theorem guarded_series {engine : Engine} {operation : Read} {cube dimension measure what : String}
    {count : Int}
    (h : ∀ definition query, engine.Finds cube definition →
      Query.ofSeries definition cube dimension measure = .ok query →
        operation.Poses engine.Finds cube query) :
    (series engine cube dimension measure what count).Guarded
      (∀ name, operation.Needs engine name → InAlphabet name) := by
  unfold series
  split
  · exact guarded_error _
  · refine guarded_closed_bind fun definition hcube => ?_
    refine guarded_closed_bind fun query hquery => ?_
    apply guarded_runQuery_of_poses
    rw [Query.cube_ofSeries hquery]
    exact h definition query hcube hquery

/-- A question for a dimension is put only if its names may be written. -/
theorem inAlphabet_of_countQuestion {settings : Settings}
    (h : InAlphabet settings.currentFlagColumn) {dimension : Dimension} {question : Question}
    (hquestion : countQuestion settings dimension = .ok question) :
    InAlphabet question.request.sql ∧ InAlphabet dimension.table ∧
      InAlphabet dimension.keyColumn := by
  obtain ⟨table, htable, hquestion⟩ := Except.bind_eq_ok_iff.1 hquestion
  obtain ⟨keyColumn, hkey, hquestion⟩ := Except.bind_eq_ok_iff.1 hquestion
  obtain ⟨hwritable, rfl⟩ := requireIdentifier_eq_ok_iff.1 htable
  have htable := hwritable.identifier.inAlphabet
  obtain ⟨hwritable, rfl⟩ := requireIdentifier_eq_ok_iff.1 hkey
  have hkey := hwritable.identifier.inAlphabet
  obtain rfl := Except.ok.inj hquestion
  exact ⟨inAlphabet_countStatement htable hkey h, htable, hkey⟩

/-- Questions that are put side by side grant what each of them does, if rows come of them. -/
theorem guarded_questions {settings : Settings} (hflag : InAlphabet settings.currentFlagColumn)
    (hdate : InAlphabet settings.statisticsDateColumn) (cube : Cube) {table : String}
    (htable : InAlphabet table) :
    (gather (.ofQuestions (cube.questions settings table)) closed).Guarded
      (∀ dimension ∈ cube.dimensions, InAlphabet dimension.table ∧
        InAlphabet dimension.keyColumn) := by
  refine .gather (fun request hrequest => ?_) fun outcome hnone => .closed fun rows hrows => ?_
  · obtain ⟨question, hquestion, rfl⟩ := Gathering.mem_requests_ofQuestions hrequest
    rcases List.mem_cons.1 hquestion with hfacts | hcount
    · obtain rfl := Except.ok.inj hfacts
      exact inAlphabet_factStatement htable hdate
    · obtain ⟨dimension, -, hquestion⟩ := List.mem_map.1 hcount
      exact (inAlphabet_of_countQuestion hflag hquestion).1
  · intro dimension hdimension
    obtain ⟨question, hquestion⟩ := Gathering.exists_question_of_failure (hnone rows hrows) _
      (List.mem_cons_of_mem _ (List.mem_map_of_mem hdimension))
    exact (inAlphabet_of_countQuestion hflag hquestion).2

theorem guarded_members {engine : Engine} (hflag : InAlphabet engine.settings.currentFlagColumn)
    (cube dimension : String) (hierarchy : Option String) :
    (members engine cube dimension hierarchy).Guarded
      (∀ name, (Read.members cube dimension hierarchy).Needs engine name → InAlphabet name) := by
  refine guarded_closed_bind fun definition hcube => ?_
  refine guarded_closed_bind fun pair hpair => ?_
  obtain ⟨found, chosen⟩ := pair
  refine guarded_closed_bind fun statement hstatement => ?_
  obtain ⟨hlevels, htable, rfl⟩ := memberStatement_eq_ok_iff.1 hstatement
  have hcolumns : ∀ column ∈ chosen.columns, InAlphabet column := by
    intro column hcolumn
    obtain ⟨level, hlevel, rfl⟩ := List.mem_map.1 (List.mem_eraseDups.1 hcolumn)
    exact (hlevels level hlevel).1.identifier.inAlphabet
  have hsorts : ∀ column ∈ chosen.sortColumns, InAlphabet column := by
    intro column hcolumn
    obtain ⟨level, hlevel, rfl⟩ := List.mem_map.1 (List.mem_eraseDups.1 hcolumn)
    exact (hlevels level hlevel).2.identifier.inAlphabet
  have htable := htable.identifier.inAlphabet
  refine (guarded_send _ ?_ _).bind fun rows _ => guarded_of_granted ?_ _
  · exact MemberStatement.inAlphabet_text hcolumns htable hflag hsorts
  · have hchosen {other : Cube} {dimension' : Dimension} {hierarchy' : Hierarchy}
        (hother : engine.Finds cube other)
        (h : other.memberHierarchy cube dimension hierarchy = .ok (dimension', hierarchy')) :
        dimension' = found ∧ hierarchy' = chosen := by
      obtain rfl := Engine.Finds.unique hcube hother
      exact Prod.mk.inj (Except.ok.inj (h.symm.trans hpair))
    intro name hname
    cases hname with
    | memberTable hother h =>
        obtain ⟨rfl, rfl⟩ := hchosen hother h
        exact htable
    | memberColumn hother h mem =>
        obtain ⟨rfl, rfl⟩ := hchosen hother h
        exact (hlevels _ mem).1.identifier.inAlphabet
    | memberSort hother h mem =>
        obtain ⟨rfl, rfl⟩ := hchosen hother h
        exact (hlevels _ mem).2.identifier.inAlphabet
    | query poses found needs => cases poses

theorem guarded_statistics {engine : Engine} (hflag : InAlphabet engine.settings.currentFlagColumn)
    (hdate : InAlphabet engine.settings.statisticsDateColumn) (cube : String) :
    (statistics engine cube).Guarded
      (∀ name, (Read.statistics cube).Needs engine name → InAlphabet name) := by
  refine guarded_closed_bind fun entry hentry => ?_
  rw [Catalog.entry_eq_ok_iff] at hentry
  refine guarded_closed_bind fun table htable => ?_
  obtain ⟨hwritable, rfl⟩ := requireIdentifier_eq_ok_iff.1 htable
  have hfacts := hwritable.identifier.inAlphabet
  refine (guarded_questions hflag hdate entry.published hfacts).bind fun rows hdimensions =>
    guarded_of_granted ?_ _
  intro name hname
  cases hname with
  | facts hother =>
      obtain rfl := Option.some.inj (hother.symm.trans hentry)
      exact hfacts
  | table hother mem =>
      obtain rfl := Option.some.inj (hother.symm.trans hentry)
      exact (hdimensions _ mem).1
  | keyColumn hother mem =>
      obtain rfl := Option.some.inj (hother.symm.trans hentry)
      exact (hdimensions _ mem).2
  | query poses found needs => cases poses

theorem Guarded.inAlphabet_of_handed {settings : Settings} {rest : Procedure α}
    (h : dialogue.Guarded granted) (hstands : Procedure.Stands settings rest dialogue) :
    ∀ text ∈ rest.handed, InAlphabet text := by
  cases hstands with
  | closed outcome => simp [Procedure.handed, Procedure.asked, Procedure.submitted]
  | ask request hnext =>
      cases h with
      | ask hsql _ => simpa [Procedure.handed, Procedure.asked, Procedure.submitted] using hsql
  | gather gathering hnext =>
      cases h with
      | gather hsql _ => simpa [Procedure.handed, Procedure.asked, Procedure.submitted] using hsql

/-- A dialogue that is told something stays guarded. -/
theorem Guarded.told (h : dialogue.Guarded granted) (signal : Signal) :
    (dialogue.told signal).Guarded granted := by
  cases h with
  | closed h => exact .closed h
  | ask hsql h =>
      cases signal with
      | answer result => exact h result
      | _ => exact .ask hsql h
  | @gather gathering next hsql h =>
      cases signal with
      | part index result =>
          rw [Dialogue.told, Gathering.answered]
          split
          · refine .gather (fun request hrequest => ?_) fun outcome hnone =>
              h outcome fun rows hrows => ?_
            · exact hsql request (Gathering.mem_requests_of_settle hrequest)
            · exact Gathering.failure_of_settle (hnone rows hrows)
          · exact .gather hsql h
      | wake =>
          rw [Dialogue.told]
          split
          · exact h _ fun rows hrows => Gathering.failure_of_outcome hrows
          · exact .gather hsql h
      | _ => exact .gather hsql h

theorem Guarded.granted_of_stands {settings : Settings} {value : α} (h : dialogue.Guarded granted)
    (hstands : Procedure.Stands settings (.done (.ok value)) dialogue) : granted := by
  cases hstands
  cases h with
  | closed h => exact h value rfl

end Dialogue

/-- What a reading operation asks is in the alphabet, and if it gives a result, all that it needs
is. -/
theorem Read.guarded {engine : Engine} (hflag : InAlphabet engine.settings.currentFlagColumn)
    (hdate : InAlphabet engine.settings.statisticsDateColumn) (operation : Read) :
    (operation.dialogue engine).Guarded
      (∀ name, operation.Needs engine name → InAlphabet name) := by
  cases operation with
  | executeQuery cube text =>
      refine Dialogue.guarded_closed_bind fun prepared hprepared => ?_
      obtain ⟨hcube, hquery, hstatement⟩ := Engine.prepare_eq_ok hprepared
      exact Dialogue.guarded_evaluate hstatement
        (inAlphabet_of_poses (.executeQuery hquery) hcube hstatement)
  | runQuery query => exact Dialogue.guarded_runQuery_of_poses (.runQuery query)
  | sliceAndDice cube dimensions measures filters =>
      refine Dialogue.guarded_closed_bind fun definition hcube => ?_
      refine Dialogue.guarded_closed_bind fun query hquery => ?_
      apply Dialogue.guarded_runQuery_of_poses
      rw [Query.cube_ofSlice hquery]
      exact .sliceAndDice hcube hquery
  | drillDown cube text path =>
      refine Dialogue.guarded_closed_bind fun prepared hprepared => ?_
      refine Dialogue.guarded_closed_bind fun definition hcube => ?_
      refine Dialogue.guarded_closed_bind fun drilled hdrilled => ?_
      apply Dialogue.guarded_runQuery_of_poses
      rw [Query.cube_drilled hdrilled]
      exact .drillDown (Engine.prepare_eq_ok hprepared).2.1 hcube hdrilled
  | rankings cube dimension measure count =>
      have hposes (definition : Cube) (query : Query) (hcube : engine.Finds cube definition)
          (hquery : Query.ofSeries definition cube dimension measure = .ok query) :
          (rankings cube dimension measure count).Poses engine.Finds cube query :=
        .rankings hcube hquery
      exact (Dialogue.guarded_series hposes).bind fun _ h => Dialogue.guarded_of_granted h _
  | growthRates cube dimension measure count =>
      have hposes (definition : Cube) (query : Query) (hcube : engine.Finds cube definition)
          (hquery : Query.ofSeries definition cube dimension measure = .ok query) :
          (growthRates cube dimension measure count).Poses engine.Finds cube query :=
        .growthRates hcube hquery
      exact (Dialogue.guarded_series hposes).bind fun _ h => Dialogue.guarded_of_granted h _
  | members cube dimension hierarchy =>
      exact Dialogue.guarded_members hflag cube dimension hierarchy
  | statistics cube => exact Dialogue.guarded_statistics hflag hdate cube

/-- The tables of a definition and their snapshots of a version are in the alphabet. -/
def Cube.Copyable (source : Cube) (cube : String) (version : Int) : Prop :=
  ∀ table ∈ source.tables, InAlphabet table ∧ InAlphabet (snapshotTable cube version table)

/-- A definition is the registered one of a cube. -/
def Engine.Registers (engine : Engine) (cube : String) (source : Cube) : Prop :=
  ∃ entry, engine.catalog.entry? cube = some entry ∧ entry.source = source

/-- The tables that wait to be dropped are in the alphabet. -/
def Engine.RetiresSpelled (engine : Engine) : Prop :=
  ∀ cube, ∀ table ∈ engine.retiredTables cube, InAlphabet table

theorem Engine.inAlphabet_of_mem_due {engine : Engine} {source : Cube} {cube table : String}
    {version : Int} (hretired : ∀ table ∈ engine.retiredTables cube, InAlphabet table)
    (hsource : source.Copyable cube version) (h : table ∈ engine.due source cube version) :
    InAlphabet table := by
  rcases mem_due_iff.1 h with hold | ⟨hexpired, before, hbefore, rfl⟩
  · exact hretired table hold
  · exact inAlphabet_snapshotTable (hsource before hbefore).2 (by omega)

namespace Stage

/-- A refresh creates and drops tables in the alphabet only, and publishes no others. `begun` is the
engine as it was when the refresh was called. -/
def Guarded (begun : Engine) (cube : String) : Stage → Prop
  | .waiting source => begun.Registers cube source
  | .creating source version created table rest =>
      begun.Registers cube source ∧ source.Copyable cube version ∧
        (∀ made ∈ created, InAlphabet made) ∧ ∀ before ∈ table :: rest, before ∈ source.tables
  | .cleaning _ created _ => ∀ table ∈ created, InAlphabet table
  | .expiring version idle =>
      (∀ table ∈ idle, InAlphabet table) ∧
        ∃ source, begun.Registers cube source ∧ source.Copyable cube version
  | .ended (.ok version) => ∃ source, begun.Registers cube source ∧ source.Copyable cube version
  | .ended (.error _) => True

variable {cube : String} {begun engine after : Engine} {stage next : Stage}

theorem Guarded.inAlphabet_of_submitted (h : stage.Guarded begun cube) :
    ∀ text ∈ stage.submitted cube, InAlphabet text := by
  have hdrops {tables : List String} (htables : ∀ table ∈ tables, InAlphabet table) :
      ∀ text ∈ tables.map dropStatement, InAlphabet text := by
    rw [List.forall_mem_map]
    exact fun table htable => inAlphabet_dropStatement (htables table htable)
  cases stage with
  | creating source version created table rest =>
      obtain ⟨-, hcopyable, -, htables⟩ := h
      have htable := hcopyable table (htables table List.mem_cons_self)
      rw [submitted, List.forall_mem_singleton]
      exact inAlphabet_createStatement htable.2 htable.1
  | cleaning version created failure => exact hdrops h
  | expiring version idle => exact hdrops h.1
  | waiting source => simp [submitted]
  | ended outcome => simp [submitted]

/-- What a refresh publishes and what it keeps as retired is in the alphabet. -/
theorem Guarded.published {source : Cube} {version : Int} {created : List String} {table : String}
    {published : Engine} (h : (creating source version created table []).Guarded begun cube)
    (hpublished : engine.Published cube source version published)
    (hretired : ∀ table ∈ engine.retiredTables cube, InAlphabet table) :
    (∃ source, begun.Registers cube source ∧ source.Copyable cube version) ∧
      ∀ table ∈ published.due source cube version, InAlphabet table := by
  obtain ⟨hregisters, hcopyable, -, -⟩ := h
  obtain ⟨catalog, -, rfl⟩ := hpublished
  exact ⟨⟨source, hregisters, hcopyable⟩, fun table =>
    Engine.inAlphabet_of_mem_due hretired hcopyable⟩

theorem Goes.guarded (h : Goes cube engine stage after next) (hstage : stage.Guarded begun cube)
    (hretired : ∀ table ∈ engine.retiredTables cube, InAlphabet table) :
    next.Guarded begun cube ∧ ∀ table ∈ after.retiredTables cube, InAlphabet table := by
  cases h with
  | waits source busy => exact ⟨hstage, hretired⟩
  | refused source failure => exact ⟨trivial, hretired⟩
  | enters source entry free registered checked =>
      refine ⟨⟨hstage, fun table htable => ?_, by simp, ?_⟩, hretired⟩
      · have hwritable := Procedure.checkSnapshots_eq_ok_iff.1 checked table htable
        exact ⟨hwritable.1.identifier.inAlphabet, hwritable.2.identifier.inAlphabet⟩
      · rw [← source.tables_eq_cons]
        exact fun _ => id
  | creates source version created table following rest =>
      obtain ⟨hregisters, hcopyable, hcreated, htables⟩ := hstage
      rw [List.forall_mem_cons] at htables
      refine ⟨⟨hregisters, hcopyable, ?_, htables.2⟩, hretired⟩
      rw [List.forall_mem_append, List.forall_mem_singleton]
      exact ⟨hcreated, (hcopyable table htables.1).2⟩
  | gives source version created table rest failure => exact ⟨trivial, hretired⟩
  | fails source version created table rest made failure hmade =>
      obtain ⟨-, hcopyable, hcreated, htables⟩ := hstage
      refine ⟨?_, hretired⟩
      rcases hmade with rfl | rfl
      · exact hcreated
      · show ∀ made ∈ created ++ [snapshotTable cube version table], InAlphabet made
        rw [List.forall_mem_append, List.forall_mem_singleton]
        exact ⟨hcreated, (hcopyable table (htables table List.mem_cons_self)).2⟩
  | publishes source version created table published hpublished =>
      obtain ⟨hended, hdue⟩ := hstage.published hpublished hretired
      refine ⟨⟨fun table hidle => hdue table (Engine.mem_idle_iff.1 hidle).1, hended⟩, ?_⟩
      rw [Engine.retiredTables_retire]
      exact fun table hheld => hdue table (List.mem_of_mem_filter hheld)
  | finishes source version created table published hpublished =>
      obtain ⟨hended, hdue⟩ := hstage.published hpublished hretired
      refine ⟨hended, ?_⟩
      show ∀ table ∈ (published.retire cube _).retiredTables cube, InAlphabet table
      rw [Engine.retiredTables_retire]
      exact fun table hheld => hdue table (List.mem_of_mem_filter hheld)
  | cleaned version created failure => exact ⟨trivial, hretired⟩
  | expired version idle => exact ⟨hstage.2, hretired⟩

theorem handed_procedure (cube : String) (stage : Stage) :
    (stage.procedure cube).handed = stage.submitted cube := by
  have hasked : (stage.procedure cube).asked = [] := by
    cases stage with
    | creating source version created table rest =>
        rw [procedure, building_cons]
        rfl
    | waiting source => rfl
    | cleaning version created failure => rfl
    | expiring version idle => rfl
    | ended outcome => rfl
  rw [Procedure.handed, hasked, submitted_procedure]
  rfl

/-- A refresh that is over is at the stage that says so. -/
theorem eq_ended_of_procedure {outcome : Except Failure Int}
    (h : stage.procedure cube = .done outcome) : stage = .ended outcome := by
  cases stage with
  | creating source version created table rest =>
      rw [procedure, building_cons] at h
      cases h
  | waiting source => cases h
  | cleaning version created failure => cases h
  | expiring version idle => cases h
  | ended other => rw [Procedure.done.inj h]

end Stage

/-- Refreshes are guarded, and tables are retired by refreshes only. -/
theorem guarded_invariant :
    Invariant Engine.RetiresSpelled fun begun cube stage => stage.Guarded begun cube where
  fresh settings := by simp [Engine.RetiresSpelled, World.fresh, Engine.retiredTables, Keyed.get?]
  register h := by simpa [Engine.RetiresSpelled, Engine.retiredTables] using h
  unregister h := by simpa [Engine.RetiresSpelled, Engine.retiredTables] using h
  reads hafter h := by simpa [Engine.RetiresSpelled, Engine.retiredTables, hafter.retired] using h
  ended begun cube failure := trivial
  waiting _ hentry := ⟨_, hentry, rfl⟩
  goes := by
    intro cube begun engine after stage next hgoes hsheltered hstage
    obtain ⟨hnext, hretired⟩ := hgoes.guarded hstage (hsheltered cube)
    refine ⟨fun other => ?_, hnext⟩
    by_cases hother : other = cube
    · rw [hother]
      exact hretired
    · rw [hgoes.retiredTables_of_ne hother]
      exact hsheltered other

/-- A read stands where a guarded dialogue does that grants what it needs. -/
def Task.Guarded (settings : Settings) : Task → Prop
  | ⟨.read operation, begun, _, rest⟩ =>
      ∃ dialogue, Procedure.Stands settings rest dialogue ∧
        dialogue.Guarded (∀ name, operation.Needs begun name → InAlphabet name)
  | _ => True

namespace World

/-- Whatever the engine hands to the store is in the alphabet of statements, so that no name that is
not in it occurs there, and an operation that needs such a name comes to no result. -/
structure Guarded (world : World) : Prop where
  handed : ∀ task ∈ world.tasks, ∀ text ∈ task.rest.handed, InAlphabet text
  absent : ∀ task ∈ world.tasks, ∀ text ∈ task.rest.handed, ∀ name, ¬ InAlphabet name →
    ¬ name.toList <:+: text.toList
  read : ∀ operation begun context value,
    (⟨.read operation, begun, context, .done (.ok value)⟩ : Task) ∈ world.tasks →
      ∀ name, operation.Needs begun name → InAlphabet name
  refreshed : ∀ cube begun context version,
    (⟨.refresh cube, begun, context, .done (.ok version)⟩ : Task) ∈ world.tasks →
      ∃ source, begun.Registers cube source ∧ source.Copyable cube version

/-- Refreshes and reads are guarded, and the columns that settings name are in the alphabet. -/
structure Sheltered (world : World) : Prop where
  refreshes : world.Satisfies Engine.RetiresSpelled fun begun cube stage => stage.Guarded begun cube
  flagColumn : InAlphabet world.engine.settings.currentFlagColumn
  dateColumn : InAlphabet world.engine.settings.statisticsDateColumn
  reads : ∀ task ∈ world.tasks, task.Guarded world.engine.settings

variable {world : World} {event : Event} {engine : Engine} {task : Task}

/-- A read that moves stands where a guarded dialogue does. -/
theorem Sheltered.of_moved (h : world.Sheltered)
    (hmoved : world.moved event = some (engine, task)) : task.Guarded world.engine.settings := by
  rcases moved_eq_some hmoved with ⟨call, context, -, hproceed⟩ |
    ⟨index, signal, before, rest, -, hbefore, hrest, hproceed⟩
  · obtain rfl : _ = task := congrArg Prod.snd hproceed
    cases call with
    | read operation =>
        refine ⟨operation.dialogue world.engine, ?_, operation.guarded h.flagColumn h.dateColumn⟩
        exact (operation.speaks world.engine).advance ⟨rfl, by simp⟩ context
    | _ => trivial
  · obtain rfl : _ = task := congrArg Prod.snd hproceed
    have hguarded := h.reads before (List.mem_of_getElem? hbefore)
    obtain ⟨call, begun, context, waiting⟩ := before
    cases call with
    | read operation =>
        obtain ⟨dialogue, hstands, hdialogue⟩ := hguarded
        exact ⟨dialogue.told signal, (hstands.resume hrest).advance ⟨rfl, by simp⟩ context,
          hdialogue.told signal⟩
    | _ => trivial

theorem Sheltered.next (h : world.Sheltered) (event : Event) : (world.next event).Sheltered := by
  have hsettings := settings_next h.refreshes.sound event
  refine ⟨guarded_invariant.next h.refreshes event, ?_, ?_, ?_⟩
  · rw [hsettings]
    exact h.flagColumn
  · rw [hsettings]
    exact h.dateColumn
  · rw [hsettings]
    intro task htask
    rcases mem_tasks_next htask with hold | ⟨engine, hmoved⟩
    · exact h.reads task hold
    · exact h.of_moved hmoved

theorem Sheltered.run (h : world.Sheltered) (events : List Event) :
    (world.run events).Sheltered := by
  induction events generalizing world with
  | nil => exact h
  | cons event rest ih => exact ih (h.next event)

theorem Sheltered.inAlphabet_of_handed (h : world.Sheltered) (htask : task ∈ world.tasks) :
    ∀ text ∈ task.rest.handed, InAlphabet text := by
  have hguarded := h.reads task htask
  cases h.refreshes.sound task htask with
  | registered definition replace begun context outcome =>
      simp [Procedure.handed, Procedure.asked, Procedure.submitted]
  | unregistered name begun context outcome =>
      simp [Procedure.handed, Procedure.asked, Procedure.submitted]
  | refreshing cube begun context stage hstage =>
      have hhanded : (stage.procedure cube).handed = stage.submitted cube :=
        stage.handed_procedure cube
      exact fun text htext => hstage.inAlphabet_of_submitted text (hhanded ▸ htext)
  | reading operation begun context rest hreads =>
      obtain ⟨dialogue, hstands, hdialogue⟩ := hguarded
      exact hdialogue.inAlphabet_of_handed hstands

theorem Sheltered.guarded (h : world.Sheltered) : world.Guarded where
  handed task htask := h.inAlphabet_of_handed htask
  absent task htask text htext name hname hoccurs :=
    hname ((h.inAlphabet_of_handed htask text htext).of_occurs hoccurs)
  read := by
    intro operation begun context value htask
    obtain ⟨dialogue, hstands, hdialogue⟩ := h.reads _ htask
    exact hdialogue.granted_of_stands hstands
  refreshed := by
    intro cube begun context version htask
    obtain ⟨other, bound, stage, heq, hstage⟩ := (h.refreshes.sound _ htask).exists_stage rfl
    obtain ⟨-, rfl, -, hrest⟩ := Task.mk.inj heq
    rw [Stage.eq_ended_of_procedure (eq_of_heq hrest).symm] at hstage
    exact hstage

theorem sheltered_created {settings : Settings} {catalog : Catalog} {engine : Engine}
    (h : Engine.create settings catalog = .ok engine) : (⟨engine, []⟩ : World).Sheltered := by
  obtain ⟨rfl, hflag, hdate⟩ := Engine.create_eq_ok h
  refine ⟨⟨?_, by simp⟩, hflag.identifier.inAlphabet, hdate.identifier.inAlphabet, by simp⟩
  simp [Engine.RetiresSpelled, Engine.retiredTables, Keyed.get?]

/-- Over any definition, checked or not, a query is refused or has a statement in the alphabet, as
is every name that the query needs; and over a catalog of any definitions, whatever a new engine
hands to the store in any run is in the alphabet, and an operation that needs a name that is not
comes to no result. -/
theorem inAlphabet_run :
    (∀ (query : Query) (cube : Cube), (∃ failure, query.statement cube = .error failure) ∨
      ∃ statement, query.statement cube = .ok statement ∧ InAlphabet statement.text ∧
        ∀ name, query.Needs cube name → InAlphabet name) ∧
    ∀ settings catalog engine, Engine.create settings catalog = .ok engine →
      ∀ events, ((⟨engine, []⟩ : World).run events).Guarded := by
  constructor
  · intro query cube
    cases hstatement : query.statement cube with
    | error failure => exact .inl ⟨failure, rfl⟩
    | ok statement =>
        obtain ⟨htext, hneeds⟩ := Query.inAlphabet_statement hstatement
        exact .inr ⟨statement, rfl, htext, hneeds⟩
  · intro settings catalog engine hcreate events
    exact ((sheltered_created hcreate).run events).guarded

/-- A new engine over definitions that nobody has checked: one has a name that is an ASCII letter
only when it is small, and one is over a table of which the name is no identifier. -/
def unchecked : World :=
  ⟨⟨.standard,
    ⟨[("\u212A", ⟨.ofFacts "\u212A" "sales", .ofFacts "\u212A" "sales", 0, none⟩),
      ("Sales", ⟨.ofFacts "Sales" "sales; DROP TABLE sales",
        .ofFacts "Sales" "sales; DROP TABLE sales", 0, none⟩)], 0⟩, [], [], []⟩, []⟩

/-- Both definitions are asked for. -/
def askedBoth : List Event :=
  [.call (.refresh "\u212A") .empty, .call (.read (.statistics "Sales")) .empty]

theorem inAlphabet_run_unchecked :
    Engine.create .standard unchecked.engine.catalog = .ok unchecked.engine ∧
      (unchecked.run askedBoth).Guarded ∧
      ((unchecked.run askedBoth).tasks.map fun task =>
          (task.rest.handed, task.failure?.map Failure.kind)) =
        [(["CREATE TABLE sales__k_v1 AS SELECT * FROM sales"], none), ([], some "ValueError")] := by
  have hcreate : Engine.create .standard unchecked.engine.catalog = .ok unchecked.engine := rfl
  exact ⟨hcreate, inAlphabet_run.2 _ _ _ hcreate askedBoth, by decide +kernel⟩

end World

end StarCube
