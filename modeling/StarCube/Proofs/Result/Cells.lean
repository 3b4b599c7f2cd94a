import StarCube.Engine.Members
import StarCube.Engine.Statistics
import StarCube.Proofs.Foreign
import StarCube.Proofs.Query.Reachability
import StarCube.Result.Growth

/-!
Results that cannot be shaped. The cells of a store may be of any kind, and there are four ways in
which they break what is made of them: as members of a set, in a sort, as doubles and as counts.
Whatever else they are is put up with.
-/

namespace StarCube

namespace ResultTable

theorem raw_addMember (members : List Value) (value : Value) : Raw (addMember members value) := by
  unfold addMember
  split
  · exact .inr ⟨members, rfl⟩
  · split
    · exact .inl (by simp [Failure.isEngine])
    · split <;> exact .inr ⟨_, rfl⟩

theorem foreign_addMember_iff {members : List Value} {value : Value} :
    Foreign (addMember members value) ↔ value.isMember = false := by
  have hnull : value.isNull = true → value.isMember = true := by
    cases value <;> simp [Value.isNull, Value.isMember]
  unfold addMember
  split
  · simp_all
  · split
    · simp_all [Failure.isEngine]
    · split <;> simp_all

/-- The members of a column are collected unless one of its cells cannot be in a set. -/
theorem foreign_labeled_iff {label : String} {column : List Value} :
    Foreign (membersOf column >>= fun found => pure (label, found)) ↔
      ∃ value ∈ column, value.isMember = false := by
  have hpure (members : List Value) :
      ¬ Foreign (pure (label, members) : Except Failure (String × List Value)) := not_foreign_ok _
  have hmembers : Foreign (membersOf column) ↔ ∃ value ∈ column, value.isMember = false :=
    foreign_foldlM_iff raw_addMember (fun _ _ => foreign_addMember_iff) []
  rw [foreign_bind_iff, hmembers]
  simp only [hpure, and_false, exists_false, or_false]

theorem raw_labeled (label : String) (column : List Value) :
    Raw (membersOf column >>= fun found => pure (label, found)) := by
  have hmembers : Raw (membersOf column) := raw_foldlM raw_addMember []
  obtain hforeign | ⟨members, hmembers⟩ := hmembers
  · exact .inl (foreign_bind_iff.2 (.inl hforeign))
  · exact .inr ⟨(label, members), Except.bind_eq_ok_iff.2 ⟨members, hmembers, rfl⟩⟩

end ResultTable

/-- The measures of a query that is compiled are measures of the cube. -/
theorem Query.measuresOf_eq_ok {query : Query} {cube : Cube} {statement : Statement}
    (h : query.statement cube = .ok statement) :
    ∃ measures, query.measuresOf cube = .ok measures := by
  apply Except.exists_mapM_eq_ok
  intro name hname
  obtain ⟨items, hitems, -⟩ := Except.bind_eq_ok_iff.1 h
  obtain ⟨item, hitem, hmeasure⟩ := List.mem_filterMap.1 hname
  obtain ⟨found, -, hfound⟩ := exists_of_forall₂ (Cube.resolveItems_eq_ok_iff.1 hitems).1 hitem
  cases item with
  | level ref => simp [SelectItem.measure?] at hmeasure
  | measure other =>
      obtain rfl := Option.some.inj hmeasure
      obtain ⟨measure, hrequired, -⟩ := Except.bind_eq_ok_iff.1 hfound
      exact ⟨measure, hrequired⟩

/-- The rows of a query are shaped unless there is such a cell in the column of a level. -/
theorem Query.foreign_table_iff {query : Query} {cube : Cube} {statement : Statement}
    (hstatement : query.statement cube = .ok statement) {rows : List Row} :
    Foreign (query.table cube rows) ↔
      ∃ ref ∈ query.levels, ∃ row ∈ rows, (row.cell ref.label).isMember = false := by
  obtain ⟨measures, hmeasures⟩ := measuresOf_eq_ok hstatement
  rw [table, hmeasures]
  show Foreign ((query.levels.map LevelRef.label).mapM (fun label =>
    ResultTable.membersOf (rows.map (·.cell label)) >>= fun found => pure (label, found)) >>=
      fun members => Except.ok _) ↔ _
  rw [foreign_bind_iff, foreign_mapM_iff_exists fun label _ => ResultTable.raw_labeled label _]
  simp only [not_foreign_ok, and_false, exists_false, or_false, ResultTable.foreign_labeled_iff,
    List.mem_map, exists_exists_and_eq_and]

/-- The members of a hierarchy are told apart unless a cell of one cannot be in a set. -/
theorem foreign_distinctMembers_iff {columns : List String} {rows : List Row} :
    Foreign (distinctMembers columns rows) ↔
      ∃ row ∈ rows, ∃ column ∈ columns, (row.exactCell column).isMember = false := by
  have hraw (members : List Row) (member : Row) : Raw (addMember members member) := by
    unfold addMember
    split
    · exact .inl (by simp [Failure.isEngine])
    · split <;> exact .inr ⟨_, rfl⟩
  have hbad (members : List Row) (member : Row) :
      Foreign (addMember members member) ↔ ∃ entry ∈ member, entry.2.isMember = false := by
    unfold addMember
    split
    · simp_all [Failure.isEngine]
    · rename_i hmember
      have hnone : ¬ ∃ entry ∈ member, entry.2.isMember = false := by simpa using hmember
      split <;> simpa using hnone
  rw [distinctMembers, foreign_foldlM_iff hraw hbad]
  simp only [List.mem_map, exists_exists_and_eq_and, memberOf]

namespace ResultTable

variable {table : ResultTable} {count : Nat}

/-- Rows are ranked unless they cannot be sorted. -/
theorem foreign_ranking_iff :
    Foreign (table.ranking count) ↔ ∃ fault, Ranking.falling table.series = .error fault := by
  have hfault (fault : Value.OrderFault) : (Failure.ofOrder fault).isEngine = false := by
    cases fault <;> rfl
  rw [ranking, foreign_map_iff, foreign_mapError_iff]
  simp only [hfault, and_true]

/-- A cell that is a whole number beyond the range of doubles. -/
def Exceeds (value : Value) : Prop :=
  ∃ n, value = .int n ∧ (Binary64.ofInt n).isInfinite = true

/-- Every other cell counts as some double. -/
theorem toBinary64_eq_error_iff {value : Value} :
    (∃ fault, value.toBinary64 = .error fault) ↔ Exceeds value := by
  cases value with
  | int n => by_cases h : (Binary64.ofInt n).isInfinite = true <;>
      simp [Value.toBinary64, Exceeds, h]
  | _ => simp [Value.toBinary64, Exceeds]

/-- Growth is computed unless there is such a number among the values. -/
theorem foreign_growth_iff :
    Foreign (table.growth count) ↔ ∃ entry ∈ table.series, Exceeds entry.2 := by
  have hseries (previous : Binary64) (rows : List (Value × Value)) :
      (∃ fault, GrowthPoint.series previous rows = .error fault) ↔
        ∃ entry ∈ rows, Exceeds entry.2 := by
    induction rows generalizing previous with
    | nil => simp [GrowthPoint.series]
    | cons entry rest ih =>
        obtain ⟨period, value⟩ := entry
        rw [GrowthPoint.series, List.exists_mem_cons_iff, ← toBinary64_eq_error_iff]
        cases hvalue : value.toBinary64 with
        | error fault => simp [bind, Except.bind]
        | ok current =>
            rw [← ih current]
            cases hrest : GrowthPoint.series current rest <;>
              simp [bind, Except.bind, pure, Except.pure, hrest]
  rw [growth, foreign_map_iff, foreign_mapError_iff, ← hseries Binary64.zero]
  simp only [Failure.isEngine, and_true]

end ResultTable

/-- A count is read unless its cell counts as no whole number. -/
theorem foreign_countIn_iff {row : Row} {column : String} :
    Foreign (countIn row column) ↔ ∃ fault, (row.exactCell column).toCount = .error fault := by
  rw [countIn, foreign_mapError_iff]
  simp only [Failure.isEngine, and_true]

end StarCube
