import StarCube.Proofs.Engine.Enumeration
import StarCube.Proofs.Result.Columns

/-!
The members of a hierarchy as they come from a store that folds the letter case of columns. The
cells of members are looked up by the columns as they are written, and not, as those of queries are,
in any letter case. So folding makes no difference just if there is nothing to fold in the columns
of the levels, and no column that sorts them is folded into one of them.
-/

namespace StarCube

/-- Keys may be renamed as long as none comes to be the key that is looked up, or ceases to be
it. -/
theorem Keyed.get?_map_keys {α : Type} {entries : Keyed α} {rename : String → String} {key : String}
    (h : ∀ entry ∈ entries, rename entry.1 = key ↔ entry.1 = key) :
    get? (entries.map (Prod.map rename id)) key = entries.get? key := by
  induction entries with
  | nil => rfl
  | cons entry rest ih =>
      obtain ⟨hfirst, hrest⟩ := List.forall_mem_cons.1 h
      have hsame : (key == rename entry.1) = (key == entry.1) := by
        rw [Bool.eq_iff_iff, beq_iff_eq, beq_iff_eq, eq_comm, hfirst, eq_comm]
      have ih := ih hrest
      simp only [get?] at ih ⊢
      rw [List.map_cons, List.lookup_cons, ih, List.lookup_cons]
      simp only [Prod.map, hsame, id_eq]

namespace Row

variable {columns : List String} {cells : List Value} {column : String}

/-- Of several cells of one column the last one is found. -/
theorem exactCell_ofCells (columns : List String) (cells : List Value) (column : String) :
    (ofCells columns cells).exactCell column =
      (Keyed.get? (columns.zip cells).reverse column).getD .null := by
  rw [exactCell, ofCells, Keyed.get?_putAll]
  have hnone : Keyed.get? ([] : Row) column = none := rfl
  rw [hnone, Option.or_none]

theorem exactCell_renamed {rename : String → String}
    (h : ∀ other ∈ columns, rename other = column ↔ other = column) (cells : List Value) :
    (ofCells (columns.map rename) cells).exactCell column =
      (ofCells columns cells).exactCell column := by
  rw [exactCell_ofCells, exactCell_ofCells, List.zip_map_left, ← List.map_reverse,
    Keyed.get?_map_keys]
  exact fun entry hentry => h entry.1 (List.of_mem_zip (List.mem_reverse.1 hentry)).1

theorem isMember_exactCell (h : ∀ cell ∈ cells, cell.isMember = true) (columns : List String)
    (column : String) : ((ofCells columns cells).exactCell column).isMember = true := by
  rw [exactCell_ofCells]
  cases hget : Keyed.get? (columns.zip cells).reverse column with
  | none => rfl
  | some value =>
      exact h value (List.of_mem_zip (List.mem_reverse.1 (Keyed.mem_of_get? hget))).2

/-- The cells of a row that marks one column. -/
def marking (columns : List String) (column : String) : List Value :=
  columns.map fun other => if other = column then .int 0 else .int 1

theorem exactCell_marking (hnodup : columns.Nodup) (hcolumn : column ∈ columns) :
    (ofCells columns (marking columns column)).exactCell column = .int 0 := by
  have hzip : ofCells columns (marking columns column) =
      columns.map fun other => (other, if other = column then .int 0 else .int 1) := by
    rw [ofCells_of_nodup hnodup (by simp [marking]), marking, List.map_prod_left_eq_zip]
  have hkeys : (ofCells columns (marking columns column)).keys.Nodup := by
    rw [hzip, Keyed.keys, List.map_map]
    simpa [Function.comp_def] using hnodup
  have hmem : (column, .int 0) ∈ ofCells columns (marking columns column) := by
    rw [hzip]
    exact List.mem_map.2 ⟨column, hcolumn, by simp⟩
  rw [exactCell, Keyed.get?_of_nodup hkeys hmem]
  rfl

/-- Where the mark is found under renamed columns, its column keeps its name, and no later column is
renamed to it. -/
theorem exists_split_of_marking {rename : String → String}
    (h : (ofCells (columns.map rename) (marking columns column)).exactCell column = .int 0) :
    ∃ front back, columns = front ++ column :: back ∧ rename column = column ∧
      ∀ other ∈ back, rename other ≠ column := by
  rw [exactCell_ofCells, marking, List.zip_map', ← List.map_reverse] at h
  cases hget : Keyed.get? (columns.reverse.map fun other =>
      (rename other, if other = column then Value.int 0 else .int 1)) column with
  | none =>
      rw [hget] at h
      cases h
  | some value =>
      rw [hget] at h
      obtain rfl : value = .int 0 := h
      obtain ⟨later, earlier, hsplit, hlater⟩ := List.lookup_eq_some_iff.1 hget
      obtain ⟨back, rest, hcolumns, rfl, hrest⟩ := List.map_eq_append_iff.1 hsplit
      obtain ⟨marked, front, rfl, hmarked, -⟩ := List.map_eq_cons_iff.1 hrest
      obtain ⟨hname, hmark⟩ := Prod.mk.inj hmarked
      obtain rfl : marked = column := by
        by_contra hne
        simp [hne] at hmark
      refine ⟨front.reverse, back.reverse, ?_, hname, fun other hother => ?_⟩
      · rw [← List.reverse_reverse columns, hcolumns]
        simp
      · have hne := bne_iff_ne.1 (hlater _ (List.mem_map_of_mem (List.mem_reverse.1 hother)))
        exact Ne.symm hne

end Row

/-- The columns of the levels are in small letters, and no column that sorts them is a further
spelling of one of them. -/
structure Hierarchy.Small (hierarchy : Hierarchy) : Prop where
  columns : ∀ level ∈ hierarchy.levels, Text.lowerCase level.column = level.column
  apart : ∀ level ∈ hierarchy.levels, ∀ other ∈ hierarchy.levels,
    Text.lowerCase other.sortColumn = level.column → other.sortColumn = level.column

namespace MemberStatement

/-- The rows of an answer to a statement, the selected columns in a letter case. -/
def answered (statement : MemberStatement) (letterCase : LetterCase) (data : List (List Value)) :
    QueryResult :=
  ⟨statement.selected.map letterCase.spell, data⟩

variable {statement : MemberStatement} {found : Dimension} {chosen : Hierarchy}
  {flagColumn : String}

theorem result_answered (letterCase : LetterCase) (data : List (List Value)) :
    statement.result (.ok (statement.answered letterCase data)) =
      distinctMembers statement.columns
        (data.map (Row.ofCells (statement.selected.map letterCase.spell))) :=
  rfl

theorem mem_columns_of {column : String} :
    column ∈ (of found chosen flagColumn).columns ↔
      ∃ level ∈ chosen.levels, level.column = column := by
  rw [((enumerates_of found chosen flagColumn).columns.mem_iff column), List.mem_map]

theorem mem_selected_of {column : String} :
    column ∈ (of found chosen flagColumn).selected ↔
      column ∈ (of found chosen flagColumn).columns ∨
        ∃ level ∈ chosen.levels, level.sortColumn = column := by
  have horders := (enumerates_of found chosen flagColumn).orders.mem_iff column
  rw [List.mem_map] at horders
  rw [selected, List.mem_append, List.mem_filter, horders]
  by_cases hmem : column ∈ (of found chosen flagColumn).columns <;> simp [hmem]

theorem result_singleton (letterCase : LetterCase) {cells : List Value}
    (hcells : ∀ cell ∈ cells, cell.isMember = true) :
    statement.result (.ok (statement.answered letterCase [cells])) =
      .ok [memberOf statement.columns
        (Row.ofCells (statement.selected.map letterCase.spell) cells)] := by
  have hmember : ∀ row ∈ [Row.ofCells (statement.selected.map letterCase.spell) cells],
      ∀ column ∈ statement.columns, (row.exactCell column).isMember = true := by
    simpa using fun column _ => Row.isMember_exactCell hcells _ column
  rw [result_answered]
  exact distinctMembers_eq_ok hmember

/-- Where nothing is there to fold, folding makes no difference to any answer. -/
theorem result_eq_of_small (hsmall : chosen.Small) (data : List (List Value)) :
    let statement := of found chosen flagColumn
    statement.result (.ok (statement.answered .small data)) =
      statement.result (.ok (statement.answered .written data)) := by
  intro statement
  have hkept : ∀ column ∈ statement.columns, ∀ other ∈ statement.selected,
      Text.lowerCase other = column ↔ other = column := by
    intro column hcolumn other hother
    obtain ⟨level, hlevel, rfl⟩ := mem_columns_of.1 hcolumn
    constructor
    · intro hfolded
      rcases mem_selected_of.1 hother with hother | ⟨sorting, hsorting, rfl⟩
      · obtain ⟨level', hlevel', rfl⟩ := mem_columns_of.1 hother
        rwa [hsmall.columns level' hlevel'] at hfolded
      · exact hsmall.apart level hlevel sorting hsorting hfolded
    · rintro rfl
      exact hsmall.columns level hlevel
  have hmember (cells : List Value) :
      memberOf statement.columns (Row.ofCells (statement.selected.map Text.lowerCase) cells) =
        memberOf statement.columns (Row.ofCells statement.selected cells) :=
    List.map_congr_left fun column hcolumn =>
      congrArg (Prod.mk column) (Row.exactCell_renamed (hkept column hcolumn) cells)
  have hwritten : statement.selected.map LetterCase.written.spell = statement.selected :=
    List.map_id _
  rw [result_answered, result_answered, hwritten, distinctMembers, distinctMembers, List.map_map,
    List.map_map]
  exact congrArg (List.foldlM addMember []) (List.map_congr_left fun cells _ => hmember cells)

/-- What is selected before a column of a level is one as well. -/
theorem Enumerates.mem_columns_of_before (h : statement.Enumerates found chosen)
    {column other : String} {front back : List String} (hcolumn : column ∈ statement.columns)
    (hsplit : statement.selected = front ++ column :: back) (hother : other ∈ front) :
    other ∈ statement.columns := by
  obtain ⟨tail, htail⟩ := h.front
  obtain ⟨before, behind, hcolumns⟩ := List.append_of_mem hcolumn
  have hnodup := h.nodup_selected
  rw [← htail, hcolumns, List.append_assoc, List.cons_append] at hnodup hsplit
  obtain ⟨hnew, -⟩ := List.nodup_cons.1 (List.nodup_middle.1 hnodup)
  rw [List.mem_append, not_or] at hnew
  rw [List.append_cons_inj_of_notMem hnew.1 hnew.2] at hsplit
  rw [hcolumns, hsplit.1]
  exact List.mem_append_left _ hother

/-- A row that marks the column of a level shows whether it is found when it is folded. -/
theorem small_of_result_eq
    (h : ∀ data, (of found chosen flagColumn).result
        (.ok ((of found chosen flagColumn).answered .small data)) =
      (of found chosen flagColumn).result
        (.ok ((of found chosen flagColumn).answered .written data))) :
    chosen.Small := by
  generalize hstatement : of found chosen flagColumn = statement at h
  have henumerates : statement.Enumerates found chosen :=
    hstatement ▸ enumerates_of found chosen flagColumn
  have hwritten : statement.selected.map LetterCase.written.spell = statement.selected :=
    List.map_id _
  -- Folding keeps the mark of a column only if the last column that is folded to it is itself.
  have hsplit : ∀ column ∈ statement.columns, ∃ front back,
      statement.selected = front ++ column :: back ∧ Text.lowerCase column = column ∧
        ∀ other ∈ back, Text.lowerCase other ≠ column := by
    intro column hcolumn
    have hcells : ∀ cell ∈ Row.marking statement.selected column, cell.isMember = true := by
      refine List.forall_mem_map.2 fun other _ => ?_
      split <;> rfl
    have hrow := h [Row.marking statement.selected column]
    rw [result_singleton .small hcells, result_singleton .written hcells, hwritten] at hrow
    have hcell := List.map_inj_left.1 (List.singleton_inj.1 (Except.ok.inj hrow)) column hcolumn
    have hmark := Row.exactCell_marking henumerates.nodup_selected
      (henumerates.front.subset hcolumn)
    exact Row.exists_split_of_marking ((Prod.mk.inj hcell).2.trans hmark)
  have hsmall : ∀ column ∈ statement.columns, Text.lowerCase column = column := by
    intro column hcolumn
    obtain ⟨_, _, _, hname, -⟩ := hsplit column hcolumn
    exact hname
  have hlevels : ∀ level ∈ chosen.levels, level.column ∈ statement.columns := fun level hlevel =>
    hstatement ▸ mem_columns_of.2 ⟨level, hlevel, rfl⟩
  refine ⟨fun level hlevel => hsmall _ (hlevels level hlevel),
    fun level hlevel other hother hfolded => ?_⟩
  have hselected : other.sortColumn ∈ statement.selected :=
    hstatement ▸ mem_selected_of.2 (.inr ⟨other, hother, rfl⟩)
  obtain ⟨front, back, hboth, -, hback⟩ := hsplit _ (hlevels level hlevel)
  rw [hboth, List.mem_append, List.mem_cons] at hselected
  rcases hselected with hearlier | hsame | hlater
  · have hsorting := henumerates.mem_columns_of_before (hlevels level hlevel) hboth hearlier
    exact (hsmall _ hsorting).symm.trans hfolded
  · exact hsame
  · exact absurd hfolded (hback _ hlater)

end MemberStatement

namespace World

variable {settings : Settings} {before : List Event} {world : World} {cube : Cube}
  {found : Dimension}
  {chosen : Hierarchy}

theorem asks_members (hworld : world = (fresh settings).run before) {name dimension : String}
    {hierarchy : Option String} (hcube : world.engine.published? name = some cube)
    (hfound : cube.dimension? dimension = some found) (hchosen : found.Chooses hierarchy chosen) :
    let statement := MemberStatement.of found chosen world.engine.settings.currentFlagColumn
    world.Asks (.members name dimension hierarchy)
      ⟨statement.text, [.bool true], world.engine.settings.timeout⟩ statement.result := by
  have hconsistent : cube.Consistent := by
    refine Engine.Consistent.of_require ?_ (Engine.require_eq_ok_iff.2 hcube)
    exact hworld ▸ consistent_engine_run settings before
  exact asks_of_dialogue hworld (Dialogue.members_eq hcube hconsistent hfound hchosen)

/-- In every state that can be reached, asking for the members of a hierarchy comes to the same
whether the store returns the selected columns as they are written or folded to small letters, and
whatever its rows are, just if there is nothing to fold in the columns of the levels and no column
that sorts them is folded into one of them. -/
theorem members_folded_iff (hworld : world = (fresh settings).run before) {name dimension : String}
    {hierarchy : Option String} (hcube : world.engine.published? name = some cube)
    (hfound : cube.dimension? dimension = some found) (hchosen : found.Chooses hierarchy chosen) :
    ∃ (statement : MemberStatement)
    (result : Except Failure QueryResult → Except Failure (List Row)),
      statement.Enumerates found chosen ∧
        world.Asks (.members name dimension hierarchy)
          ⟨statement.text, [.bool true], world.engine.settings.timeout⟩ result ∧
        ((∀ data, result (.ok (statement.answered .small data)) =
          result (.ok (statement.answered .written data))) ↔ chosen.Small) :=
  ⟨_, _, MemberStatement.enumerates_of found chosen _, asks_members hworld hcube hfound hchosen,
    MemberStatement.small_of_result_eq, fun hsmall data =>
      MemberStatement.result_eq_of_small hsmall data⟩

/-- The columns of the days on which orders were placed are in small letters. -/
theorem ordering_members_folded :
    ordering.engine.published? "Orders" = some .orders ∧
      ∃ time calendar, Cube.orders.dimension? "Time" = some time ∧ time.Chooses none calendar ∧
        ∃ (statement : MemberStatement)
          (result : Except Failure QueryResult → Except Failure (List Row)),
          statement.Enumerates time calendar ∧
            ordering.Asks (.members "Orders" "Time" none)
              ⟨statement.text, [.bool true], ordering.engine.settings.timeout⟩ result ∧
            ∀ data, result (.ok (statement.answered .small data)) =
              result (.ok (statement.answered .written data)) := by
  let time : Dimension := Cube.orders.dimensions[0]
  have hfound : Cube.orders.dimension? "Time" = some time := rfl
  have hchosen : time.Chooses none time.hierarchies[0] := rfl
  obtain ⟨statement, result, henumerates, hasks, hiff⟩ :=
    members_folded_iff rfl published_ordering hfound hchosen
  have hsmall : time.hierarchies[0].Small := ⟨by decide +kernel, by decide +kernel⟩
  exact ⟨published_ordering, _, _, hfound, hchosen, statement, result, henumerates, hasks,
    hiff.2 hsmall⟩

/-- Visits by a year and a month that are capitalised in the warehouse. -/
def capitalVisits : Cube where
  name := "Visits"
  description := ""
  factTable := "visits"
  dimensions := [⟨"Time", "days", "day_key", "day",
    [⟨"Calendar", [⟨"Year", "Year", none⟩, ⟨"Month", "Month", none⟩]⟩], []⟩]
  measures := []
  calculatedMembers := []

/-- The months of two years, of which nothing is left once their columns are folded. -/
theorem capitalVisits_members_lost :
    let world := (fresh .standard).run [.call (.register capitalVisits false) .empty]
    let levels := capitalVisits.dimensions[0].hierarchies[0].levels
    let data : List (List Value) := [[.int 2023, .int 12], [.int 2024, .int 1]]
    world.engine.published? "Visits" = some capitalVisits ∧
      (levels.map fun level => Text.lowerCase level.column).Nodup ∧
      ∃ request,
        world.Gives (.members "Visits" "Time" none) request ⟨["Year", "Month"], data⟩
          [[("Year", .int 2023), ("Month", .int 12)], [("Year", .int 2024), ("Month", .int 1)]] ∧
        world.Gives (.members "Visits" "Time" none) request ⟨["year", "month"], data⟩
          [[("Year", .null), ("Month", .null)]] := by
  intro world levels data
  have hcube : world.engine.published? "Visits" = some capitalVisits := by decide +kernel
  have hfound : capitalVisits.dimension? "Time" = some capitalVisits.dimensions[0] := rfl
  have hchosen : capitalVisits.dimensions[0].Chooses none
      capitalVisits.dimensions[0].hierarchies[0] := rfl
  have hasks := asks_members rfl hcube hfound hchosen
  exact ⟨hcube, by decide +kernel, _, hasks.gives_iff.2 rfl, hasks.gives_iff.2 rfl⟩

end World

end StarCube
