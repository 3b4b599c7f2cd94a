import StarCube.Proofs.Engine.Handling
import StarCube.Proofs.Engine.Inquiry
import StarCube.Proofs.Engine.Replies
import StarCube.Proofs.Result.Distinct

/-!
The members of a hierarchy. They are asked for with one statement over the table of the dimension,
and come out as the different rows over the columns of the levels, each where the store returns it
first.
-/

namespace StarCube

/-- The hierarchy of a dimension that is asked for: the first one of a name, or the first of all. -/
def Dimension.Chooses (dimension : Dimension) : Option String → Hierarchy → Prop
  | some name, chosen => dimension.hierarchy? name = some chosen
  | none, chosen => dimension.hierarchies.head? = some chosen

/-- A statement that selects the columns of the levels of a hierarchy from the table of a dimension,
each once and coarsest first, and orders by the columns that sort them, which it selects as well. -/
structure MemberStatement.Enumerates (statement : MemberStatement) (dimension : Dimension)
    (hierarchy : Hierarchy) : Prop where
  table : statement.table = dimension.table
  columns : Firsts (hierarchy.levels.map Level.column) statement.columns
  orders : Firsts (hierarchy.levels.map Level.sortColumn) statement.orders
  front : statement.columns <+: statement.selected
  nodup_selected : statement.selected.Nodup
  orders_subset : statement.orders ⊆ statement.selected

/-- The text of such a statement, by its columns. -/
theorem MemberStatement.Enumerates.text_eq {statement : MemberStatement} {dimension : Dimension}
    {hierarchy : Hierarchy} (h : statement.Enumerates dimension hierarchy) :
    statement.text =
      "SELECT DISTINCT " ++ String.intercalate ", " statement.selected ++
      "\nFROM " ++ dimension.table ++
      "\nWHERE " ++ statement.flagColumn ++ " = ?\nORDER BY " ++
      String.intercalate ", " statement.orders := by
  unfold MemberStatement.text
  simp only [Statement.listed, h.table]

/-- The statement for the members of a hierarchy whose names need no check. -/
def MemberStatement.of (dimension : Dimension) (hierarchy : Hierarchy) (flagColumn : String) :
    MemberStatement :=
  ⟨hierarchy.columns, dimension.table, flagColumn, hierarchy.sortColumns⟩

theorem MemberStatement.enumerates_of (found : Dimension) (chosen : Hierarchy)
    (flagColumn : String) :
    (MemberStatement.of found chosen flagColumn).Enumerates found chosen := by
  have hcolumns := firsts_eraseDups (chosen.levels.map Level.column)
  have horders := firsts_eraseDups (chosen.levels.map Level.sortColumn)
  refine ⟨rfl, hcolumns, horders, List.prefix_append _ _, ?_, fun column hcolumn => ?_⟩
  · refine List.nodup_append.2 ⟨hcolumns.nodup, horders.nodup.filter _, ?_⟩
    rintro column hmem other hother rfl
    have hout := (List.mem_filter.1 hother).2
    simp [hmem] at hout
  · by_cases hmem : column ∈ chosen.columns
    · exact List.mem_append_left _ hmem
    · refine List.mem_append_right _ (List.mem_filter.2 ⟨hcolumn, ?_⟩)
      simpa [MemberStatement.of] using hmem

variable {cube : Cube} {found : Dimension} {chosen : Hierarchy}

/-- The hierarchy that is asked for is looked up. -/
theorem Cube.memberHierarchy_eq_ok (name : String) {dimension : String} {hierarchy : Option String}
    (hfound : cube.dimension? dimension = some found) (hchosen : found.Chooses hierarchy chosen) :
    cube.memberHierarchy name dimension hierarchy = .ok (found, chosen) := by
  rw [memberHierarchy_eq hfound]
  cases hierarchy with
  | none =>
      show found.firstHierarchy >>= _ = _
      rw [Dimension.firstHierarchy, show found.hierarchies.head? = some chosen from hchosen]
      rfl
  | some hierarchy =>
      show (found.requireHierarchy hierarchy).mapError _ >>= _ = _
      rw [Dimension.requireHierarchy, show found.hierarchy? hierarchy = some chosen from hchosen]
      rfl

/-- What comes of an answer to the statement for the members of a hierarchy. -/
def MemberStatement.result (statement : MemberStatement) (answer : Except Failure QueryResult) :
    Except Failure (List Row) :=
  rowsOf statement.text answer >>= distinctMembers statement.columns

theorem Dialogue.members_eq {engine : Engine} {name dimension : String} {hierarchy : Option String}
    (hcube : engine.published? name = some cube) (hconsistent : cube.Consistent)
    (hfound : cube.dimension? dimension = some found) (hchosen : found.Chooses hierarchy chosen) :
    let statement := MemberStatement.of found chosen engine.settings.currentFlagColumn
    members engine name dimension hierarchy =
      .ask ⟨statement.text, [.bool true], engine.settings.timeout⟩ fun answer =>
        .closed (statement.result answer) := by
  have hmember := Cube.memberHierarchy_eq_ok name hfound hchosen
  obtain ⟨hfoundMem, hchosenMem⟩ := Cube.mem_of_memberHierarchy hmember
  unfold Dialogue.members
  rw [Engine.require_eq_ok_iff.2 hcube]
  show (closed (cube.memberHierarchy name dimension hierarchy) >>= fun found =>
    closed (memberStatement found.1 found.2 engine.settings.currentFlagColumn) >>= _) = _
  rw [hmember]
  show closed (memberStatement found chosen engine.settings.currentFlagColumn) >>= _ = _
  rw [hconsistent.memberStatement_eq_ok hfoundMem hchosenMem]
  exact congrArg (ask _) (funext fun answer => closed_bind _ _)

namespace World

variable {settings : Settings} {before : List Event} {world : World}

end World

end StarCube
