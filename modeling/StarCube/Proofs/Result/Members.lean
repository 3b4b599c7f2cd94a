import StarCube.Proofs.Result.Columns
import StarCube.Proofs.Result.Distinct

/-!
The members of the columns of a table. For each column of a level a table has the values that occur
there, each once and where it is seen first. Values of different kinds count as one if they are
equal, and of these it is the first that stands for all.
-/

namespace StarCube

/-- To be the same is an equivalence among definite values. -/
theorem sameness_same {values : List Value} (h : ∀ value ∈ values, value.isDefinite = true) :
    Sameness Value.same values where
  refl a ha := Value.same_self (h a ha)
  symm a ha b hb := Value.same_symm (h a ha) (h b hb)
  trans a ha b hb c hc := Value.same_trans (h a ha) (h b hb) (h c hc)

namespace ResultTable

section Columns

variable {column : List Value}

theorem addMember_eq_ok {value : Value} (h : value.isMember = true) (members : List Value) :
    addMember members value =
      .ok (if value.isNull then members else keepNew Value.same members value) := by
  rw [addMember, h, keepNew]
  cases value.isNull <;> cases members.any (·.same value) <;> rfl

/-- The members of a column are collected from what is not null in it. -/
theorem membersOf_eq_ok (h : ∀ value ∈ column, value.isMember = true) :
    membersOf column = .ok ((column.filter (!·.isNull)).foldl (keepNew Value.same) []) := by
  rw [membersOf]
  generalize ([] : List Value) = members
  induction column generalizing members with
  | nil => rfl
  | cons value rest ih =>
      rw [List.forall_mem_cons] at h
      have hstep : (value :: rest).foldlM addMember members =
          rest.foldlM addMember
            (if value.isNull then members else keepNew Value.same members value) := by
        rw [List.foldlM_cons, addMember_eq_ok h.1]
        rfl
      rw [hstep, ih h.2, List.filter_cons]
      cases value.isNull <;> rfl

/-- A list has the values of a column that are not null, each once and where it is seen first. -/
structure Lists (column members : List Value) : Prop where
  present : ∀ value ∈ members, value.isNull = false
  firsts : FirstsUpTo Value.same (column.filter (!·.isNull)) members

theorem exists_membersOf_lists
    (h : ∀ value ∈ column, value.isMember = true ∧ value.isDefinite = true) :
    ∃ members, membersOf column = .ok members ∧ Lists column members := by
  refine ⟨_, membersOf_eq_ok fun value hvalue => (h value hvalue).1, ?_⟩
  have hdefinite : ∀ value ∈ column.filter (!·.isNull), value.isDefinite = true :=
    fun value hvalue => (h value (List.mem_filter.1 hvalue).1).2
  have hfirsts := firstsUpTo_foldl (sameness_same hdefinite)
  refine ⟨fun value hvalue => ?_, hfirsts⟩
  simpa using (List.mem_filter.1 (hfirsts.sublist.subset hvalue)).2

end Columns

/-- What the rows of a table have in one of its columns. -/
def column (table : ResultTable) (index : Nat) : List Value :=
  table.data.filterMap (·[index]?)

end ResultTable

namespace Query

variable {query : Query} {cube : Cube} {rows : List Row}

/-- The column of a level has the cells of all rows under the label of the level. -/
theorem column_of_table {table : ResultTable} (h : query.table cube rows = .ok table) {index : Nat}
    {label : String} (hlabel : table.dimensions[index]? = some label) :
    table.column index = rows.map (·.cell label) := by
  obtain ⟨hdimensions, -, hdata⟩ := table_eq_ok h
  rw [hdimensions] at hlabel
  have hcell (row : Row) : ((query.levels.map LevelRef.label).map row.cell ++
      query.measures.map row.cell)[index]? = some (row.cell label) := by
    have hmapped : ((query.levels.map LevelRef.label).map row.cell)[index]? =
        some (row.cell label) := by
      rw [List.getElem?_map, hlabel, Option.map_some]
    exact List.getElem?_append_left (List.getElem?_eq_some_iff.1 hmapped).1 |>.trans hmapped
  rw [ResultTable.column, hdata, List.filterMap_map]
  exact (List.filterMap_congr fun row _ => hcell row).trans (congrFun List.filterMap_eq_map rows)

theorem exists_measuresOf_iff : (∃ measures, query.measuresOf cube = .ok measures) ↔
    ∀ name ∈ query.measures, ∃ measure, cube.measure? name = some measure := by
  have hfound (name : String) (measure : Measure) :
      (cube.requireMeasure name).mapError Failure.reference = .ok measure ↔
        cube.measure? name = some measure := by
    rw [Except.mapError_eq_ok_iff, Cube.requireMeasure_eq_ok_iff]
  constructor
  · rintro ⟨measures, hmeasures⟩ name hname
    obtain ⟨measure, -, hmeasure⟩ := exists_of_forall₂ (Except.forall₂_of_mapM hmeasures) hname
    exact ⟨measure, (hfound name measure).1 hmeasure⟩
  · intro hall
    apply Except.exists_mapM_eq_ok
    intro name hname
    obtain ⟨measure, hmeasure⟩ := hall name hname
    exact ⟨measure, (hfound name measure).2 hmeasure⟩

/-- The members that a table has under a label are those of the cells under it, also if levels share
the label. -/
theorem members_of_table {table : ResultTable} (h : query.table cube rows = .ok table)
    {label : String} (hlabel : label ∈ table.dimensions) :
    ∃ members, table.members.get? label = some members ∧
      ResultTable.membersOf (rows.map (·.cell label)) = .ok members := by
  obtain ⟨measures, -, h⟩ := Except.bind_eq_ok_iff.1 h
  obtain ⟨entries, hentries, h⟩ := Except.bind_eq_ok_iff.1 h
  obtain rfl := Except.pure_eq_ok_iff.1 h
  have hall := Except.forall₂_of_mapM hentries
  have hentry {label : String} {entry : String × List Value}
      (h : (ResultTable.membersOf (rows.map (·.cell label)) >>= fun found => pure (label, found)) =
        .ok entry) : entry.1 = label ∧
          ResultTable.membersOf (rows.map (·.cell label)) = .ok entry.2 := by
    obtain ⟨found, hfound, h⟩ := Except.bind_eq_ok_iff.1 h
    obtain rfl := Except.pure_eq_ok_iff.1 h
    exact ⟨rfl, hfound⟩
  obtain ⟨entry, hmem, hcollected⟩ := exists_of_forall₂ hall hlabel
  obtain ⟨hkey, -⟩ := hentry hcollected
  have hkeys : label ∈ Keyed.keys entries.reverse :=
    List.mem_map.2 ⟨entry, List.mem_reverse.2 hmem, hkey⟩
  obtain ⟨members, hmembers⟩ := Keyed.mem_keys_iff.1 hkeys
  refine ⟨members, ?_, ?_⟩
  · show (Keyed.putAll [] entries).get? label = some members
    rw [Keyed.get?_putAll, hmembers, Option.some_or]
  · -- Each entry was collected under its own label.
    obtain ⟨other, -, hother⟩ := exists_of_forall₂ hall.flip
      (List.mem_reverse.1 (Keyed.mem_of_get? hmembers))
    obtain ⟨rfl, hother⟩ := hentry hother
    exact hother

/-- A cell of a level may be a member of a set and is not an undefined number. -/
def Hashes (query : Query) (rows : List Row) : Prop :=
  ∀ ref ∈ query.levels, ∀ row ∈ rows,
    (row.cell ref.label).isMember = true ∧ (row.cell ref.label).isDefinite = true

/-- Rows with such cells are shaped for any measures of the cube, and for each column of a level the
table lists what is not null in the column, each value once and where it is seen first. -/
theorem lists_members_of_hashes (h : query.Hashes rows) :
    ((∃ table, query.table cube rows = .ok table) ↔
        ∀ name ∈ query.measures, ∃ measure, cube.measure? name = some measure) ∧
      ∀ table, query.table cube rows = .ok table →
        table.dimensions = query.levels.map LevelRef.label ∧
          ∀ index label, table.dimensions[index]? = some label →
            table.column index = rows.map (·.cell label) ∧
              ∃ members, table.members.get? label = some members ∧
                ResultTable.Lists (table.column index) members := by
  have hcollected : ∀ label ∈ query.levels.map LevelRef.label, ∃ members,
      ResultTable.membersOf (rows.map (·.cell label)) = .ok members ∧
        ResultTable.Lists (rows.map (·.cell label)) members := by
    rw [List.forall_mem_map]
    intro ref href
    exact ResultTable.exists_membersOf_lists (List.forall_mem_map.2 (h ref href))
  refine ⟨?_, fun table htable => ?_⟩
  · rw [← exists_measuresOf_iff]
    constructor
    · rintro ⟨table, htable⟩
      obtain ⟨measures, hmeasures, -⟩ := Except.bind_eq_ok_iff.1 htable
      exact ⟨measures, hmeasures⟩
    · rintro ⟨measures, hmeasures⟩
      have hentries : ∃ entries, (query.levels.map LevelRef.label).mapM (fun label =>
          ResultTable.membersOf (rows.map (·.cell label)) >>= fun found => pure (label, found)) =
            (.ok entries : Except Failure _) := by
        apply Except.exists_mapM_eq_ok
        intro label hlabel
        obtain ⟨members, hmembers, -⟩ := hcollected label hlabel
        exact ⟨(label, members), by rw [hmembers]; rfl⟩
      obtain ⟨entries, hentries⟩ := hentries
      exact ⟨_, Except.bind_eq_ok_iff.2 ⟨measures, hmeasures, Except.bind_eq_ok_iff.2
        ⟨entries, hentries, rfl⟩⟩⟩
  · have hdimensions := (table_eq_ok htable).1
    refine ⟨hdimensions, fun index label hlabel => ?_⟩
    have hmem := List.mem_of_getElem? hlabel
    have hcolumn := column_of_table htable hlabel
    obtain ⟨members, hget, hmembers⟩ := members_of_table htable hmem
    obtain ⟨others, hothers, hlists⟩ := hcollected label (hdimensions ▸ hmem)
    rw [hmembers, Except.ok.injEq] at hothers
    exact ⟨hcolumn, members, hget, hcolumn ▸ hothers ▸ hlists⟩

/-- Guests by year and hour, with one year written in three kinds of numbers. -/
def mixedYears : List Row :=
  [("1", .int 1, .text "noon"), ("2", .bool true, .null), ("3", .null, .text "dusk"),
    ("4", .float ⟨0x3ff0000000000000⟩, .text "noon"), ("5", .int 2, .text "dusk")].map fun cells =>
      [("Guests", .text cells.1), ("Time_Year", cells.2.1), ("Clock_Hour", cells.2.2)]

/-- The first of the three numbers stands for the year. -/
theorem lists_members_mixedYears :
    (guestsByYearAndHour "Clock").Hashes mixedYears ∧
      ∃ table, (guestsByYearAndHour "Clock").table (Cube.visits "Clock") mixedYears = .ok table ∧
        table.dimensions = ["Time_Year", "Clock_Hour"] ∧
        table.members.get? "Time_Year" = some [.int 1, .int 2] ∧
        ResultTable.Lists (table.column 0) [.int 1, .int 2] ∧
        table.members.get? "Clock_Hour" = some [.text "noon", .text "dusk"] ∧
        ResultTable.Lists (table.column 1) [.text "noon", .text "dusk"] := by
  have hashes : (guestsByYearAndHour "Clock").Hashes mixedYears := by
    unfold Hashes
    decide +kernel
  have hmeasures : ∀ name ∈ (guestsByYearAndHour "Clock").measures,
      ∃ measure, (Cube.visits "Clock").measure? name = some measure := by
    intro name hname
    obtain rfl : name = "Guests" := List.mem_singleton.1 hname
    exact ⟨_, rfl⟩
  obtain ⟨htables, hlists⟩ := @lists_members_of_hashes _ (Cube.visits "Clock") _ hashes
  obtain ⟨table, htable⟩ := htables.2 hmeasures
  obtain ⟨hdimensions, hlists⟩ := hlists table htable
  have hlabels : table.dimensions = ["Time_Year", "Clock_Hour"] := hdimensions.trans (by decide)
  -- The lists that the table has are those that are collected from the cells.
  have hfound (index : Nat) (label : String) (column : List Value)
      (hlabel : table.dimensions[index]? = some label)
      (hcollected : ResultTable.membersOf (mixedYears.map (·.cell label)) = .ok column) :
      table.members.get? label = some column ∧ ResultTable.Lists (table.column index) column := by
    obtain ⟨-, members, hget, hmembers⟩ := hlists index label hlabel
    obtain ⟨others, hothers, heq⟩ := members_of_table htable (List.mem_of_getElem? hlabel)
    rw [hget, Option.some.injEq] at hothers
    rw [← hothers, hcollected, Except.ok.injEq] at heq
    exact ⟨heq ▸ hget, heq ▸ hmembers⟩
  obtain ⟨hyears, hyearsListed⟩ := hfound 0 "Time_Year" [.int 1, .int 2]
    (by rw [hlabels]; rfl) rfl
  obtain ⟨hhours, hhoursListed⟩ := hfound 1 "Clock_Hour"
    [.text "noon", .text "dusk"] (by rw [hlabels]; rfl) rfl
  exact ⟨hashes, table, htable, hlabels, hyears, hyearsListed, hhours, hhoursListed⟩

end Query

end StarCube
