import StarCube.Proofs.Engine.Escapes
import StarCube.Proofs.Result.Cells

/-!
What the statistics of a cube come to by the answers of the store. The questions for them are put
side by side, so it is the first answer in time that does not do by which they fail; the number of
the facts is read only when all answers do.
-/

namespace StarCube

/-- An answer that gives a count in a column. -/
def Counts (column : String) (answer : Except Failure QueryResult) : Prop :=
  ∃ result count, answer = .ok result ∧ countIn (firstRow result.rows) column = .ok count

/-- An answer whose cell in a column counts as no whole number. -/
def Miscounts (column : String) (answer : Except Failure QueryResult) : Prop :=
  ∃ result fault, answer = .ok result ∧
    ((firstRow result.rows).exactCell column).toCount = .error fault

/-- An answer does for one of the questions for statistics: for the first, which is for the facts,
any rows do, and for that of a dimension rows that give a number of members. -/
def Suffices : Nat → Except Failure QueryResult → Prop
  | 0, answer => ∃ result, answer = .ok result
  | _ + 1, answer => Counts "member_count" answer

namespace Cube

/-- Each question for the statistics of a cube has been answered. -/
def Answered (cube : Cube) (signals : List Signal) : Prop :=
  ∀ index ≤ cube.dimensions.length, ∃ answer, replyTo index signals = some answer

/-- The answers to the questions for the statistics of a cube do, as many as there are. -/
def Satisfied (cube : Cube) (signals : List Signal) : Prop :=
  ∀ index ≤ cube.dimensions.length, ∀ answer, replyTo index signals = some answer →
    Suffices index answer

/-- The statistics of a cube go on when all answers are there, or one that does not do. -/
def Concluded (cube : Cube) (signals : List Signal) : Prop :=
  ∃ front back, signals = front ++ .wake :: back ∧ (cube.Answered front ∨ ¬ cube.Satisfied front)

/-- The statistics of a cube go on with a number that is none. -/
inductive Uncounted (cube : Cube) (signals : List Signal) : Prop
  /-- That of the members of a dimension, in the first answer that does not do. -/
  | members {front middle back : List Signal} {index : Nat} {answer : Except Failure QueryResult}
      (hsignals : signals = front ++ .part (index + 1) answer :: (middle ++ .wake :: back))
      (hindex : index < cube.dimensions.length) (hopen : replyTo (index + 1) front = none)
      (hfront : cube.Satisfied front) (h : Miscounts "member_count" answer)
  /-- That of the facts, where all answers do. -/
  | records {front back : List Signal} {answer : Except Failure QueryResult}
      (hsignals : signals = front ++ .wake :: back) (hanswered : cube.Answered front)
      (hfront : cube.Satisfied front) (hanswer : replyTo 0 front = some answer)
      (h : Miscounts "total_records" answer)

/-- The questions for the statistics of a cube whose names may be written. -/
def asked (cube : Cube) (settings : Settings) : List Question :=
  factQuestion settings cube.factTable ::
    cube.dimensions.map fun dimension => memberQuestion settings dimension.table dimension.keyColumn

variable {cube : Cube} {settings : Settings} {signals : List Signal}

theorem Consistent.questions_eq (h : cube.Consistent) :
    cube.questions settings cube.factTable = (cube.asked settings).map .ok := by
  have hcount (dimension : Dimension) (hdimension : dimension ∈ cube.dimensions) :
      countQuestion settings dimension =
        .ok (memberQuestion settings dimension.table dimension.keyColumn) := by
    have hconsistent := h.dimensions dimension hdimension
    have htable : requireIdentifier "table name" dimension.table = .ok dimension.table :=
      requireIdentifier_eq_ok_iff.2 ⟨hconsistent.table, rfl⟩
    have hkey : requireIdentifier "column name" dimension.keyColumn = .ok dimension.keyColumn :=
      requireIdentifier_eq_ok_iff.2 ⟨hconsistent.keyColumn, rfl⟩
    rw [countQuestion, htable, hkey]
    rfl
  rw [questions, asked, List.map_cons, List.map_map, List.map_congr_left hcount]
  rfl

theorem length_asked : (cube.asked settings).length = cube.dimensions.length + 1 := by
  simp [asked]

section Outcomes

variable {table keyColumn : String} {answer : Except Failure QueryResult}

theorem outcome_memberQuestion_eq_ok_iff {rows : List Row} :
    (memberQuestion settings table keyColumn).outcome answer = .ok rows ↔
      ∃ result count, answer = .ok result ∧ result.rows = rows ∧
        countIn (firstRow rows) "member_count" = .ok count := by
  simp only [memberQuestion, Except.bind_eq_ok_iff, Except.discard_eq_ok_iff, Except.pure_eq_ok_iff]
  cases answer with
  | error failure => simp [rowsOf]
  | ok result =>
      simp only [rowsOf, Except.ok.injEq, exists_eq_left']
      constructor
      · rintro ⟨_, ⟨count, hcount⟩, rfl⟩
        exact ⟨result, count, rfl, rfl, hcount⟩
      · rintro ⟨_, count, rfl, rfl, hcount⟩
        exact ⟨⟨⟩, ⟨count, hcount⟩, rfl⟩

theorem foreign_outcome_memberQuestion_iff :
    Foreign ((memberQuestion settings table keyColumn).outcome answer) ↔
      Miscounts "member_count" answer := by
  have hpure (rows : List Row) : ¬ Foreign (pure rows : Except Failure (List Row)) :=
    not_foreign_ok _
  simp only [memberQuestion, foreign_bind_iff, Dialogue.not_foreign_rowsOf, foreign_discard_iff,
    foreign_countIn_iff, hpure, and_false, exists_false, or_false, false_or]
  cases answer <;> simp [rowsOf, Miscounts]

/-- A question for the statistics is not failed by an answer that does. -/
theorem outcome_eq_ok_iff_suffices {index : Nat} {question : Question}
    (h : (cube.asked settings)[index]? = some question) :
    (∃ rows, question.outcome answer = .ok rows) ↔ Suffices index answer := by
  cases index with
  | zero =>
      obtain rfl : factQuestion settings cube.factTable = question := Option.some.inj h
      cases answer <;> simp [factQuestion, rowsOf, Suffices]
  | succ index =>
      obtain ⟨dimension, -, rfl⟩ := List.mem_map.1 (List.mem_of_getElem? h)
      simp only [outcome_memberQuestion_eq_ok_iff, Suffices, Counts]
      constructor
      · rintro ⟨rows, result, count, hanswer, rfl, hcount⟩
        exact ⟨result, count, hanswer, hcount⟩
      · rintro ⟨result, count, hanswer, hcount⟩
        exact ⟨_, result, count, hanswer, rfl, hcount⟩

theorem unfailing_asked_iff :
    (Gathering.asking (cube.asked settings)).Unfailing signals ↔ cube.Satisfied signals := by
  simp only [Gathering.Unfailing, Gathering.question?_asking]
  constructor
  · intro h index hindex answer hanswer
    have hquestion := List.getElem?_eq_getElem
      (show index < (cube.asked settings).length by rw [length_asked]; omega)
    exact (outcome_eq_ok_iff_suffices hquestion).1 (h index _ answer hquestion hanswer)
  · intro h index question answer hquestion hanswer
    have hindex := (List.getElem?_eq_some_iff.1 hquestion).1
    rw [length_asked] at hindex
    exact (outcome_eq_ok_iff_suffices hquestion).2 (h index (by omega) answer hanswer)

/-- One goes on when all answers are there, or one that does not do. -/
theorem ready_after_asked_iff :
    ((Gathering.asking (cube.asked settings)).after signals).ready = true ↔
      cube.Answered signals ∨ ¬ cube.Satisfied signals := by
  by_cases h : cube.Satisfied signals
  · rw [Gathering.ready_after_iff (unfailing_asked_iff.2 h), length_asked]
    simp only [Nat.lt_succ_iff, h, not_true_eq_false, or_false]
    rfl
  · have hfailure : ((Gathering.asking (cube.asked settings)).after signals).failure ≠ none :=
      fun hnone => h (unfailing_asked_iff.1 (Gathering.failure_after_eq_none_iff.1 hnone).2)
    simp [Gathering.ready, Option.isSome_iff_ne_none, hfailure, h]

end Outcomes

/-- The rows that the questions for the statistics have come to. -/
def told (cube : Cube) (settings : Settings) (signals : List Signal) : List (List Row) :=
  ((Gathering.asking (cube.asked settings)).after signals).parts.map Part.rows

section Told

variable (hfront : cube.Satisfied signals)
include hfront

theorem outcome_after_asked :
    ((Gathering.asking (cube.asked settings)).after signals).outcome =
      .ok (cube.told settings signals) := by
  have hunfailing : (Gathering.asking (cube.asked settings)).Unfailing signals :=
    unfailing_asked_iff.2 hfront
  have hnone := Gathering.failure_after_eq_none_iff.2 ⟨Gathering.failure_asking, hunfailing⟩
  rw [Gathering.outcome, hnone, told]

/-- Where all answers do, each dimension has a number of members. -/
theorem exists_memberCounts (settings : Settings) (hanswered : cube.Answered signals) :
    ∃ counts, memberCounts cube.dimensions ((cube.told settings signals).drop 1) = .ok counts := by
  apply Except.exists_mapM_eq_ok
  rintro ⟨dimension, rows⟩ hmem
  obtain ⟨index, hindex⟩ := List.mem_iff_getElem?.1 hmem
  rw [List.getElem?_zip_eq_some, List.getElem?_drop, Nat.add_comm] at hindex
  obtain ⟨hdimension, hrows⟩ := hindex
  have hlength := (List.getElem?_eq_some_iff.1 hdimension).1
  obtain ⟨answer, hanswer⟩ := hanswered (index + 1) hlength
  obtain ⟨result, count, rfl, hcount⟩ := hfront (index + 1) hlength answer hanswer
  have hquestion : (cube.asked settings)[index + 1]? =
      some (memberQuestion settings dimension.table dimension.keyColumn) := by
    simp [asked, hdimension]
  have htold := Gathering.rows_after hquestion hanswer
    (outcome_memberQuestion_eq_ok_iff.2 ⟨result, count, rfl, rfl, hcount⟩)
  obtain rfl : result.rows = rows := Option.some.inj (htold.symm.trans hrows)
  exact ⟨_, Except.map_eq_ok_iff.2 ⟨count, hcount, rfl⟩⟩

/-- Where all answers do, the rows for the facts are those of the first answer. -/
theorem exists_rows_facts (settings : Settings) (hanswered : cube.Answered signals) :
    ∃ result, replyTo 0 signals = some (.ok result) ∧
      (cube.told settings signals).headD [] = result.rows := by
  obtain ⟨answer, hanswer⟩ := hanswered 0 (Nat.zero_le _)
  obtain ⟨result, rfl⟩ := hfront 0 (Nat.zero_le _) answer hanswer
  have hquestion : (cube.asked settings)[0]? = some (factQuestion settings cube.factTable) := rfl
  have htold := Gathering.rows_after hquestion hanswer rfl
  refine ⟨result, hanswer, ?_⟩
  rw [List.headD_eq_head?_getD, List.head?_eq_getElem?, told, htold]
  rfl

end Told

end Cube

variable {settings : Settings} {signals : List Signal}

/-- Where all answers do, the statistics fail by the number of the facts alone. -/
theorem CatalogEntry.foreign_statistics_iff {entry : CatalogEntry}
    (hanswered : entry.published.Answered signals) (hfront : entry.published.Satisfied signals) :
    Foreign (entry.statistics (entry.published.told settings signals)) ↔
      ∃ answer, replyTo 0 signals = some answer ∧ Miscounts "total_records" answer := by
  obtain ⟨counts, hcounts⟩ := Cube.exists_memberCounts hfront settings hanswered
  obtain ⟨result, hanswer, hrows⟩ := Cube.exists_rows_facts hfront settings hanswered
  have hpure (statistics : CubeStatistics) :
      ¬ Foreign (pure statistics : Except Failure CubeStatistics) := not_foreign_ok _
  rw [statistics, hcounts, hrows, hanswer]
  show Foreign (countIn (firstRow result.rows) "total_records" >>= _) ↔ _
  simp only [foreign_bind_iff, hpure, and_false, exists_false, or_false, foreign_countIn_iff]
  simp [Miscounts]

namespace Dialogue

variable {cube : Cube}

/-- The failure that comes first is none of the engine's own just if a number of members is none. -/
theorem foreign_failure_iff (settings : Settings) {front : List Signal} :
    (∃ failure, ((Gathering.asking (cube.asked settings)).after front).failure = some failure ∧
        failure.isEngine = false) ↔
      ∃ first index answer rest, front = first ++ .part (index + 1) answer :: rest ∧
        index < cube.dimensions.length ∧ replyTo (index + 1) first = none ∧ cube.Satisfied first ∧
          Miscounts "member_count" answer := by
  simp only [Gathering.failure_after_eq_some_iff Gathering.failure_asking,
    Gathering.question?_asking, Cube.unfailing_asked_iff]
  constructor
  · rintro ⟨failure, ⟨first, index, answer, rest, question, rfl, hquestion, hopen, hfirst,
      hfailure⟩, hforeign⟩
    have hanswer : Foreign (question.outcome answer) := ⟨failure, hfailure, hforeign⟩
    cases index with
    | zero =>
        obtain rfl : factQuestion settings cube.factTable = question := Option.some.inj hquestion
        exact absurd hanswer not_foreign_rowsOf
    | succ index =>
        have hindex := (List.getElem?_eq_some_iff.1 hquestion).1
        rw [Cube.length_asked] at hindex
        obtain ⟨dimension, -, rfl⟩ := List.mem_map.1 (List.mem_of_getElem? hquestion)
        exact ⟨first, index, answer, rest, rfl, by omega, hopen, hfirst,
          Cube.foreign_outcome_memberQuestion_iff.1 hanswer⟩
  · rintro ⟨first, index, answer, rest, rfl, hindex, hopen, hfirst, hmiscounts⟩
    have hquestion : (cube.asked settings)[index + 1]? =
        some (memberQuestion settings (cube.dimensions[index]).table
          (cube.dimensions[index]).keyColumn) := by
      simp [Cube.asked, hindex]
    obtain ⟨failure, hfailure, hforeign⟩ := Cube.foreign_outcome_memberQuestion_iff.2 hmiscounts
    exact ⟨failure, ⟨first, index + 1, answer, rest, _, rfl, hquestion, hopen, hfirst, hfailure⟩,
      hforeign⟩

/-- Questions that are put side by side go on to statistics that fail so just if a number is
none. -/
theorem escapes_asked_iff {entry : CatalogEntry} :
    (gather (.asking (entry.published.asked settings)) closed >>= fun rows =>
      closed (entry.statistics rows)).Escapes signals ↔ entry.published.Uncounted signals := by
  rw [escapes_gather_bind_iff]
  constructor
  · rintro ⟨front, back, rfl, hready, hforeign⟩
    cases hfailure : ((Gathering.asking (entry.published.asked settings)).after front).failure with
    | some failure =>
        rw [Gathering.outcome, hfailure] at hforeign
        obtain ⟨first, index, answer, rest, rfl, hindex, hopen, hfirst, hmiscounts⟩ :=
          (foreign_failure_iff settings).1 ⟨failure, hfailure, foreign_error_iff.1 hforeign⟩
        exact .members (List.append_assoc first _ _) hindex hopen hfirst hmiscounts
    | none =>
        have hfront := Cube.unfailing_asked_iff.1 (Gathering.failure_after_eq_none_iff.1 hfailure).2
        have hanswered := (Cube.ready_after_asked_iff.1 hready).resolve_right (not_not_intro hfront)
        rw [Cube.outcome_after_asked hfront] at hforeign
        obtain ⟨answer, hanswer, hmiscounts⟩ :=
          (CatalogEntry.foreign_statistics_iff hanswered hfront).1 hforeign
        exact .records rfl hanswered hfront hanswer hmiscounts
  · rintro (@⟨front, middle, back, index, answer, rfl, hindex, hopen, hfront, h⟩ |
      @⟨front, back, answer, rfl, hanswered, hfront, hanswer, h⟩)
    · obtain ⟨failure, hfailure, hforeign⟩ := (foreign_failure_iff settings).2
        ⟨front, index, answer, middle, rfl, hindex, hopen, hfront, h⟩
      refine ⟨front ++ .part (index + 1) answer :: middle, back, by simp, ?_, ?_⟩
      · simp [Gathering.ready, hfailure]
      · rw [Gathering.outcome, hfailure]
        exact foreign_error_iff.2 hforeign
    · refine ⟨front, back, rfl, Cube.ready_after_asked_iff.2 (.inl hanswered), ?_⟩
      rw [Cube.outcome_after_asked hfront]
      exact (CatalogEntry.foreign_statistics_iff hanswered hfront).2 ⟨answer, hanswer, h⟩

variable {engine : Engine} {name : String}

theorem statistics_eq_closed (hentry : engine.catalog.entry? name = none) :
    statistics engine name = closed (.error (.reference (.unknownCube name))) := by
  rw [statistics, Catalog.entry, hentry]
  rfl

/-- What a read of statistics says to the store once it has found the cube. -/
theorem statistics_eq_gather {entry : CatalogEntry}
    (hentry : engine.catalog.entry? name = some entry) (h : entry.published.Consistent) :
    statistics engine name = gather (.asking (entry.published.asked engine.settings)) closed >>=
      fun rows => closed (entry.statistics rows) := by
  have htable : requireIdentifier "table name" entry.published.factTable =
      .ok entry.published.factTable := requireIdentifier_eq_ok_iff.2 ⟨h.factTable, rfl⟩
  rw [statistics, Catalog.entry_eq_ok_iff.2 hentry]
  show (closed (requireIdentifier "table name" entry.published.factTable) >>= _) = _
  rw [htable, Gathering.asking, ← h.questions_eq]
  rfl

section Statistics

variable (h : ∀ entry, engine.catalog.entry? name = some entry → entry.published.Consistent)
include h

theorem escapes_statistics_iff :
    (statistics engine name).Escapes signals ↔
      ∃ entry, engine.catalog.entry? name = some entry ∧ entry.published.Uncounted signals := by
  cases hentry : engine.catalog.entry? name with
  | none =>
      rw [statistics_eq_closed hentry, escapes_closed_iff]
      simp [Failure.isEngine]
  | some entry =>
      rw [statistics_eq_gather hentry (h entry hentry), escapes_asked_iff]
      simp

/-- A read of statistics is closed once all answers are there, or one that does not do. -/
theorem hear_statistics_eq_closed
    (hover : ∀ entry, engine.catalog.entry? name = some entry → entry.published.Concluded signals) :
    ∃ outcome, (statistics engine name).hear signals = .closed outcome := by
  cases hentry : engine.catalog.entry? name with
  | none => exact ⟨_, by rw [statistics_eq_closed hentry, hear_closed]⟩
  | some entry =>
      obtain ⟨front, back, hsignals, hconcluded⟩ := hover entry hentry
      rw [statistics_eq_gather hentry (h entry hentry), gather_bind_eq_gather]
      exact ⟨_, hear_gather_eq_closed_iff.2
        ⟨front, back, hsignals, Cube.ready_after_asked_iff.2 hconcluded, rfl⟩⟩

end Statistics

end Dialogue

end StarCube
