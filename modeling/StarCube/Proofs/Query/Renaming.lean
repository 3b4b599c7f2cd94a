import StarCube.Proofs.Engine.Definitions

/-!
Queries of a cube over renamed tables. A cube names its tables in two places of a statement, after
FROM and after LEFT JOIN, and looks nothing up by them. So a query over a renamed cube means the
same statement with the tables renamed, or it fails for the same reason.
-/

namespace StarCube

namespace Dimension

/-- The same dimension over a renamed table. -/
def renameTable (rename : String → String) (dimension : Dimension) : Dimension :=
  { dimension with table := rename dimension.table }

variable {rename : String → String} {dimension : Dimension}

@[simp] theorem renameTable_name : (dimension.renameTable rename).name = dimension.name := rfl

@[simp] theorem renameTable_ref (column : String) :
    (dimension.renameTable rename).ref column = dimension.ref column := rfl

/-- Levels are found without the table. -/
@[simp] theorem resolveLevel_renameTable (level : String) (hierarchy : Option String) :
    (dimension.renameTable rename).resolveLevel level hierarchy =
      dimension.resolveLevel level hierarchy := rfl

/-- Where the table may be written under both names, the check of the other names decides. -/
theorem checkJoin_renameTable (htable : Acceptable dimension.table)
    (hrename : Acceptable (rename dimension.table)) :
    (dimension.renameTable rename).checkJoin = dimension.checkJoin := by
  have hbefore : discard (requireIdentifier "table name" dimension.table) = .ok () :=
    discard_requireIdentifier_eq_ok_iff.2 htable
  have hafter : discard (requireIdentifier "table name" (dimension.renameTable rename).table) =
      .ok () := discard_requireIdentifier_eq_ok_iff.2 hrename
  rw [checkJoin, checkJoin, hbefore, hafter]
  rfl

end Dimension

namespace ResolvedItem

def renameTables (rename : String → String) : ResolvedItem → ResolvedItem
  | .aggregated measure => .aggregated measure
  | .grouped dimension level label => .grouped (dimension.renameTable rename) level label

variable {rename : String → String}

theorem column_renameTables (item : ResolvedItem) :
    (item.renameTables rename).column = item.column := by
  cases item <;> rfl

theorem groups_renameTables (item : ResolvedItem) :
    (item.renameTables rename).groups = item.groups := by
  cases item <;> rfl

theorem order?_renameTables (item : ResolvedItem) :
    (item.renameTables rename).order? = item.order? := by
  cases item <;> rfl

theorem dimension?_renameTables (item : ResolvedItem) :
    (item.renameTables rename).dimension? = item.dimension?.map (Dimension.renameTable rename) := by
  cases item <;> rfl

end ResolvedItem

namespace ResolvedCondition

def renameTables (rename : String → String) (resolved : ResolvedCondition) : ResolvedCondition :=
  { resolved with dimension := resolved.dimension.renameTable rename }

theorem condition_renameTables {rename : String → String} (resolved : ResolvedCondition) :
    (resolved.renameTables rename).condition = resolved.condition := rfl

end ResolvedCondition

namespace Statement

/-- The same statement over renamed tables. -/
def renameTables (rename : String → String) (statement : Statement) : Statement :=
  { statement with
    factTable := rename statement.factTable
    joins := statement.joins.map fun join => { join with table := rename join.table } }

/-- The text of a statement in which the names after FROM and LEFT JOIN are replaced. -/
def textOver (rename : String → String) (statement : Statement) : String :=
  String.intercalate "\n" (("SELECT " ++ listed (statement.columns.map OutputColumn.text)) ::
    ("FROM " ++ rename statement.factTable ++ " " ++ factAlias) ::
    statement.joins.map (fun join =>
      "LEFT JOIN " ++ rename join.table ++ " " ++ join.tableAlias ++ " ON " ++ join.factKey.text ++
        " = " ++ join.keyColumn.text) ++
    statement.restriction ++ statement.closing)

theorem textOver_id (statement : Statement) : statement.textOver id = statement.text := by
  rw [text, lines_eq, textOver]
  rfl

theorem text_renameTables (rename : String → String) (statement : Statement) :
    (statement.renameTables rename).text = statement.textOver rename := by
  have hjoins : (statement.renameTables rename).joins.map Join.text =
      statement.joins.map fun join =>
      "LEFT JOIN " ++ rename join.table ++ " " ++ join.tableAlias ++ " ON " ++ join.factKey.text ++
        " = " ++ join.keyColumn.text := by
    rw [renameTables, List.map_map]
    rfl
  rw [text, lines_eq, opening, hjoins]
  rfl

variable {rename : String → String}

/-- Dimensions of different names stay different, so each is joined where it was. -/
theorem mentioned_renameTables {items : List ResolvedItem} {conditions : List ResolvedCondition}
    (hnames : ∀ first ∈ items.filterMap ResolvedItem.dimension? ++
        conditions.map ResolvedCondition.dimension,
      ∀ second ∈ items.filterMap ResolvedItem.dimension? ++
        conditions.map ResolvedCondition.dimension,
      first.name = second.name → first = second) :
    mentioned (items.map (ResolvedItem.renameTables rename))
        (conditions.map (ResolvedCondition.renameTables rename)) =
      (mentioned items conditions).map (Dimension.renameTable rename) := by
  have hitems : (items.map (ResolvedItem.renameTables rename)).filterMap ResolvedItem.dimension? =
      (items.filterMap ResolvedItem.dimension?).map (Dimension.renameTable rename) := by
    rw [List.filterMap_map, List.map_filterMap]
    exact List.filterMap_congr fun item _ => item.dimension?_renameTables
  have hconditions : (conditions.map (ResolvedCondition.renameTables rename)).map
        ResolvedCondition.dimension =
      (conditions.map ResolvedCondition.dimension).map (Dimension.renameTable rename) := by
    rw [List.map_map, List.map_map]
    rfl
  rw [mentioned, hitems, hconditions, ← List.map_append]
  apply (firsts_eraseDups _).unique
  apply (firsts_eraseDups _).map
  intro first hfirst second hsecond hsame
  have hname := congrArg Dimension.name hsame
  rw [Dimension.renameTable_name, Dimension.renameTable_name] at hname
  exact hnames first hfirst second hsecond hname

theorem ofResolved_renameTables {items : List ResolvedItem} {conditions : List ResolvedCondition}
    {factTable : String}
    (hmentioned : mentioned (items.map (ResolvedItem.renameTables rename))
        (conditions.map (ResolvedCondition.renameTables rename)) =
      (mentioned items conditions).map (Dimension.renameTable rename)) :
    ofResolved (items.map (ResolvedItem.renameTables rename))
        (conditions.map (ResolvedCondition.renameTables rename)) (rename factTable) =
      (ofResolved items conditions factTable).renameTables rename := by
  simp only [ofResolved, renameTables, hmentioned, List.map_map, List.flatMap_map,
    List.filterMap_map,
    Function.comp_def, ResolvedItem.column_renameTables, ResolvedItem.groups_renameTables,
    ResolvedItem.order?_renameTables, ResolvedCondition.condition_renameTables]
  rfl

end Statement

namespace Cube

variable {cube : Cube} {rename : String → String}

theorem dimension?_renameTables (name : String) :
    (cube.renameTables rename).dimension? name =
      (cube.dimension? name).map (Dimension.renameTable rename) := by
  rw [dimension?, renameTables, List.find?_map]
  rfl

/-- The tables of a cube may be written, under their names and under those that they are given. -/
structure Renameable (cube : Cube) (rename : String → String) : Prop where
  before : ∀ table ∈ cube.tables, Acceptable table
  after : ∀ table ∈ cube.tables, Acceptable (rename table)

section Resolution

variable (h : cube.Renameable rename)

include h

theorem joinable_renameTables (name : String) :
    (cube.renameTables rename).joinable name =
      (cube.joinable name).map (Dimension.renameTable rename) := by
  rw [joinable, joinable, requireDimension, requireDimension, dimension?_renameTables]
  cases hfound : cube.dimension? name with
  | none => rfl
  | some dimension =>
      have htable : dimension.table ∈ cube.tables :=
        mem_tables_iff.2 (.inr ⟨dimension, mem_of_dimension? hfound, rfl⟩)
      have hcheck := Dimension.checkJoin_renameTable (h.before _ htable) (h.after _ htable)
      simp only [Option.map_some, Except.mapError, bind, Except.bind, hcheck]
      cases dimension.checkJoin <;> rfl

theorem resolveLevel_renameTables (ref : LevelRef) :
    (cube.renameTables rename).resolveLevel ref =
      (cube.resolveLevel ref).map fun found => (found.1.renameTable rename, found.2) := by
  simp only [resolveLevel, joinable_renameTables h, Except.bind_map, Except.map_bind,
    Except.map_pure, Dimension.resolveLevel_renameTable]

theorem resolveItem_renameTables (item : SelectItem) :
    (cube.renameTables rename).resolveItem item =
      (cube.resolveItem item).map (ResolvedItem.renameTables rename) := by
  cases item with
  | measure name =>
      simp only [resolveItem, resolveMeasure, Except.map_bind, Except.map_pure,
        ResolvedItem.renameTables]
      rfl
  | level ref =>
      simp only [resolveItem, resolveLevel_renameTables h, Except.bind_map, Except.map_bind,
        Except.map_pure, ResolvedItem.renameTables]

theorem resolveItems_renameTables (seen : List String) (select : List SelectItem) :
    (cube.renameTables rename).resolveItems seen select =
      (cube.resolveItems seen select).map (List.map (ResolvedItem.renameTables rename)) := by
  induction select generalizing seen with
  | nil => rfl
  | cons item rest ih =>
      rw [resolveItems, resolveItems]
      by_cases hseen : seen.contains item.label = true
      · rw [if_pos hseen, if_pos hseen]
        rfl
      · rw [if_neg hseen, if_neg hseen]
        simp only [resolveItem_renameTables h, ih, Except.bind_map, Except.map_bind,
          Except.map_pure, List.map_cons]

theorem resolveConditions_renameTables (predicates : List Predicate) :
    predicates.mapM (cube.renameTables rename).resolveCondition =
      (predicates.mapM cube.resolveCondition).map
        (List.map (ResolvedCondition.renameTables rename)) := by
  induction predicates with
  | nil => rfl
  | cons predicate rest ih =>
      simp only [List.mapM_cons, ih, resolveCondition, resolveLevel_renameTables h, bind_assoc,
        pure_bind, Except.bind_map, Except.map_bind, Except.map_pure, List.map_cons,
        ResolvedCondition.renameTables]

end Resolution

end Cube

/-- A query over renamed tables fails as it does over the tables themselves, or has the same
statement with the tables renamed. -/
theorem Query.statement_renameTables {cube : Cube} {rename : String → String}
    (h : cube.Renameable rename) (query : Query) :
    query.statement (cube.renameTables rename) =
      (query.statement cube).map (Statement.renameTables rename) := by
  have hfact : cube.factTable ∈ cube.tables := Cube.mem_tables_iff.2 (.inl rfl)
  have hbefore : requireIdentifier "table name" cube.factTable = .ok cube.factTable :=
    requireIdentifier_eq_ok_iff.2 ⟨h.before _ hfact, rfl⟩
  have hafter : requireIdentifier "table name" (cube.renameTables rename).factTable =
      .ok (rename cube.factTable) := requireIdentifier_eq_ok_iff.2 ⟨h.after _ hfact, rfl⟩
  rw [statement, statement, hbefore, hafter, Cube.resolveItems_renameTables h,
    Cube.resolveConditions_renameTables h]
  cases hitems : cube.resolveItems [] query.select with
  | error failure => rfl
  | ok items =>
      cases hconditions : query.conditions.mapM cube.resolveCondition with
      | error failure => rfl
      | ok conditions =>
          have hresolves : query.Resolves cube items conditions :=
            ⟨Cube.resolveItems_eq_ok hitems, Cube.resolveConditions_eq_ok hconditions,
              (h.before _ hfact).identifier⟩
          apply congrArg Except.ok
          apply Statement.ofResolved_renameTables
          apply Statement.mentioned_renameTables
          exact fun _ hfirst _ hsecond hsame => hresolves.eq_of_name_eq hfirst hsecond hsame

/-- A cube over renamed tables differs from the cube in the names of its tables only. Its tables are
the renamed ones in their order, if no two get one name; it is consistent if the cube is; and a
query of it fails alike or has the statement of the same parameters in which the tables are
renamed. -/
theorem Cube.renameTables_only_tables (cube : Cube) (rename : String → String) :
    ((∀ table ∈ cube.tables, ∀ other ∈ cube.tables, rename table = rename other → table = other) →
      (cube.renameTables rename).tables = cube.tables.map rename) ∧
    ((∀ table ∈ cube.tables, Acceptable (rename table)) → cube.check = .ok () →
      (cube.renameTables rename).check = .ok ()) ∧
    (cube.Renameable rename → ∀ query : Query,
      query.statement (cube.renameTables rename) =
        (query.statement cube).map (Statement.renameTables rename)) ∧
    ∀ statement : Statement,
      (statement.renameTables rename).params = statement.params ∧
        (statement.renameTables rename).text = statement.textOver rename ∧
        statement.textOver id = statement.text := by
  refine ⟨tables_renameTables_of_injOn, ?_, fun h query => query.statement_renameTables h, ?_⟩
  · intro hrename hcheck
    apply check_eq_ok_iff.2
    exact (check_eq_ok_iff.1 hcheck).renameTables hrename
  · intro statement
    exact ⟨rfl, statement.text_renameTables rename, statement.textOver_id⟩

/-- Voyages by the days of departure and of arrival, which are both in one table. -/
def Cube.voyages : Cube where
  name := "Voyages"
  description := ""
  factTable := "voyages"
  dimensions :=
    [⟨"Departure", "days", "day_key", "day", [⟨"Days", [⟨"Year", "year", none⟩]⟩], []⟩,
      ⟨"Arrival", "days", "day_key", "day", [⟨"Days", [⟨"Year", "year", none⟩]⟩], []⟩]
  measures := [⟨"Distance", "miles", .sum, .number, none⟩]
  calculatedMembers := []

/-- The table of both dimensions is renamed once, and in each of their joins. -/
theorem Cube.voyages_copied :
    voyages.tables = ["voyages", "days"] ∧
      (voyages.renameTables (· ++ "_copy")).tables = ["voyages_copy", "days_copy"] ∧
      (voyages.renameTables (· ++ "_copy")).check = .ok () ∧
      ∀ query : Query, query.statement (voyages.renameTables (· ++ "_copy")) =
        (query.statement voyages).map (Statement.renameTables (· ++ "_copy")) := by
  obtain ⟨htables, hcheck, hstatement, -⟩ := renameTables_only_tables voyages (· ++ "_copy")
  have hall : voyages.tables = ["voyages", "days"] := by decide
  have hnames : ∀ table ∈ voyages.tables, checkIdentifier "" table = .ok table ∧
      checkIdentifier "" (table ++ "_copy") = .ok (table ++ "_copy") := by
    decide +kernel
  have hrenamed : ∀ table ∈ voyages.tables, Acceptable (table ++ "_copy") :=
    fun table htable => (checkIdentifier_eq_ok_iff.1 (hnames table htable).2).1
  refine ⟨hall, ?_, ?_, ?_⟩
  · rw [htables (by simp), hall]
    decide
  · apply hcheck hrenamed
    decide +kernel
  · apply hstatement
    exact ⟨fun table htable => (checkIdentifier_eq_ok_iff.1 (hnames table htable).1).1, hrenamed⟩

end StarCube
