import StarCube.Proofs.Engine.Handling
import StarCube.Proofs.Engine.Inquiry
import StarCube.Proofs.Engine.Replies
import StarCube.Proofs.Result.Columns
import StarCube.Proofs.Result.Growth
import StarCube.Proofs.Result.Ranking

/-!
Rankings and growth rates. Either makes one request, for a measure by a level, and works on the
pairs of their cells in the rows that come back. It comes to that unless one of the cells of the
level is of a kind that cannot be a member of a set, which is the same for both and for every count.
-/

namespace StarCube

/-- The query of one measure by one level. -/
def Query.series (ref : LevelRef) (measure name : String) : Query :=
  ⟨[.level ref, .measure measure], name, []⟩

/-- The cells of a level and of a measure in the rows of an answer. -/
def QueryResult.pairs (answer : QueryResult) (ref : LevelRef) (measure : String) :
    List (Value × Value) :=
  answer.rows.map fun row => (row.cell ref.label, row.cell measure)

section Shaped

variable {cube : Cube} {ref : LevelRef} {measure name : String} {statement : Statement}

theorem Query.exists_series_iff
    (hstatement : (series ref measure name).statement cube = .ok statement) (answer : QueryResult) :
    (∃ table, (series ref measure name).table cube answer.rows = .ok table) ↔
      ∀ row ∈ answer.rows, (row.cell ref.label).isMember = true := by
  rw [exists_table_iff hstatement]
  exact List.forall_mem_singleton

/-- The table of a series is made of the pairs of cells. -/
theorem Query.series_of_table {answer : QueryResult} {table : ResultTable}
    (h : (series ref measure name).table cube answer.rows = .ok table) :
    table.series = answer.pairs ref measure := by
  rw [ResultTable.series, (table_eq_ok h).2.2, List.map_map]
  rfl

end Shaped

/-- A reference and a measure by which a series is asked for: the reference denotes a level, and the
query of the measure by that level is compiled. -/
structure Engine.Serves (engine : Engine) (name dimension measure : String) (cube : Cube)
    (ref : LevelRef) (statement : Statement) : Prop where
  published : engine.published? name = some cube
  denotes : cube.Denotes dimension ref
  compiles : (Query.series ref measure name).statement cube = .ok statement

namespace Engine.Serves

variable {engine : Engine} {name dimension measure : String} {cube : Cube} {ref : LevelRef}
  {statement : Statement}

theorem ofSeries_eq_ok (h : engine.Serves name dimension measure cube ref statement) :
    Query.ofSeries cube name dimension measure = .ok (.series ref measure name) :=
  Except.bind_eq_ok_iff.2 ⟨ref, Cube.levelRef_eq_ok_iff.2 h.denotes, rfl⟩

/-- A series is asked for once, and its answer is shaped before anything is made of it. -/
theorem series_bind_eq (h : engine.Serves name dimension measure cube ref statement) {β : Type}
    {what : String} {count : Int} (hcount : 0 ≤ count) (finish : ResultTable → Except Failure β) :
    (Dialogue.series engine name dimension measure what count >>= fun table =>
      .closed (finish table)) =
      .ask ⟨statement.text, statement.params, engine.settings.timeout⟩ fun answer =>
        .closed (rowsOf statement.text answer >>=
          (Query.series ref measure name).table cube >>= finish) := by
  have hinquiry : engine.inquiry (.series ref measure name) =
      .ok (Inquiry.ofStatement engine.settings (.series ref measure name) cube statement) := by
    have hpublished : engine.published? (Query.series ref measure name).cube = some cube :=
      h.published
    rw [Engine.inquiry_eq hpublished, h.compiles]
    rfl
  have hseries : Dialogue.series engine name dimension measure what count =
      Inquiry.dialogue (engine.inquiry (.series ref measure name)) := by
    unfold Dialogue.series
    rw [if_neg (not_lt.2 hcount), Engine.require_eq_ok_iff.2 h.published]
    show Dialogue.closed (Query.ofSeries cube name dimension measure) >>=
        Dialogue.runQuery engine = _
    rw [h.ofSeries_eq_ok]
    exact Dialogue.runQuery_eq_inquiry
  rw [hseries, hinquiry]
  exact congrArg (Dialogue.ask _) (funext fun answer => Dialogue.closed_bind _ finish)

/-- What is made of the rows of a series is what is made of their table, if there is one. -/
theorem gives_iff (h : engine.Serves name dimension measure cube ref statement)
    {settings : Settings}
    {before : List Event} {world : World} (hworld : world = (World.fresh settings).run before)
    (hengine : world.engine = engine) {operation : Read} {what : String} {count : Int}
    (hcount : 0 ≤ count) {finish : ResultTable → Except Failure operation.Result}
    (hdialogue : operation.dialogue engine =
      (Dialogue.series engine name dimension measure what count >>= fun table =>
        .closed (finish table)))
    {answer : QueryResult} {value : operation.Result} :
    world.Gives operation ⟨statement.text, statement.params, engine.settings.timeout⟩ answer value ↔
      ∃ table, (Query.series ref measure name).table cube answer.rows = .ok table ∧
        finish table = .ok value := by
  rw [h.series_bind_eq hcount] at hdialogue
  rw [← hengine] at hdialogue
  rw [← hengine, (World.asks_of_dialogue hworld hdialogue).gives_iff]
  exact Except.bind_eq_ok_iff

end Engine.Serves

namespace World

variable {settings : Settings} {before : List Event} {world : World}
  {name dimension measure : String}
  {cube : Cube} {ref : LevelRef} {statement : Statement}

/-- In every state that can be reached, and for comparable values, the rankings of all counts show
the first rows of one falling order of the rows that the store answers, unless there is a cell of
the level among these that cannot be in a set. -/
theorem ranks_iff (hworld : world = (fresh settings).run before)
    (hserves : world.engine.Serves name dimension measure cube ref statement) (answer : QueryResult)
    (hvalues : Value.Comparable (answer.rows.map fun row => row.cell measure)) :
    (∃ order ranking, Ranks (answer.pairs ref measure) order ranking ∧
      ∀ count : Option Int, 0 ≤ count.getD world.engine.settings.defaultTopN →
        world.Gives (.rankings name dimension measure count)
          ⟨statement.text, statement.params, world.engine.settings.timeout⟩ answer
          (ranking (count.getD world.engine.settings.defaultTopN).toNat)) ↔
      ∀ row ∈ answer.rows, (row.cell ref.label).isMember = true := by
  have hpairs : (answer.pairs ref measure).map Prod.snd = answer.rows.map fun row =>
    row.cell measure :=
    List.map_map ..
  rw [← Query.exists_series_iff hserves.compiles answer]
  constructor
  · rintro ⟨order, ranking, -, hgives⟩
    obtain ⟨table, htable, -⟩ := (hserves.gives_iff hworld rfl (Int.le_refl 0) rfl).1
      (hgives (some 0) (Int.le_refl 0))
    exact ⟨table, htable⟩
  · rintro ⟨table, htable⟩
    obtain ⟨order, hfalling, hfalls⟩ := Ranking.falling_eq_ok (hpairs ▸ hvalues)
    refine ⟨order, _, Ranked.ranks_numbered hfalls, fun count hcount => ?_⟩
    refine (hserves.gives_iff hworld rfl hcount rfl).2 ⟨table, htable, ?_⟩
    rw [ResultTable.ranking, Query.series_of_table htable, hfalling]
    rfl

/-- The amounts of the days, as the store may answer them: numbers of different kinds, two of which
are the same, and a day without any. -/
def amountsByDay : QueryResult where
  columns := ["Time_Day", "Amount"]
  data := [[.text "Monday", .int 3], [.text "Tuesday", .null],
    [.text "Wednesday", .decimal (.finite false 75 (-1))], [.text "Thursday", .bool true],
    [.text "Friday", .decimal (.finite false 30 (-1))]]

/-- The amounts by the finest level of time. -/
theorem ordering_serves : ∃ statement,
    ordering.engine.Serves "Orders" "Time" "Amount" .orders ⟨"Time", "Day", none⟩ statement := by
  have hfinest : (Cube.orders.levelRef "Time").toOption = some ⟨"Time", "Day", none⟩ := by
    decide +kernel
  have hdenotes := Cube.levelRef_eq_ok_iff.1 (Except.toOption_eq_some_iff.1 hfinest)
  obtain ⟨statement, hstatement⟩ : ∃ statement,
      (Query.series ⟨"Time", "Day", none⟩ "Amount" "Orders").statement .orders = .ok statement :=
    Except.isOk_iff.1 (by decide +kernel)
  exact ⟨statement, published_ordering, hdenotes, hstatement⟩

/-- Days in the order of their amounts, as they were answered. -/
theorem ordering_ranks : ∃ statement,
    ordering.engine.Serves "Orders" "Time" "Amount" .orders ⟨"Time", "Day", none⟩ statement ∧
      Value.Comparable (amountsByDay.rows.map fun row => row.cell "Amount") ∧
      ∃ order ranking, Ranks (amountsByDay.pairs ⟨"Time", "Day", none⟩ "Amount") order ranking ∧
        ∀ count : Option Int, 0 ≤ count.getD ordering.engine.settings.defaultTopN →
          ordering.Gives (.rankings "Orders" "Time" "Amount" count)
            ⟨statement.text, statement.params, ordering.engine.settings.timeout⟩ amountsByDay
            (ranking (count.getD ordering.engine.settings.defaultTopN).toNat) := by
  obtain ⟨statement, hserves⟩ := ordering_serves
  have hordered : ∀ left ∈ amountsByDay.rows.map (fun row => row.cell "Amount"),
      ∀ right ∈ amountsByDay.rows.map (fun row => row.cell "Amount"),
        left.isNull = false → right.isNull = false → (left.before right).isOk = true := by
    decide +kernel
  have hvalues : Value.Comparable (amountsByDay.rows.map fun row => row.cell "Amount") :=
    ⟨by decide +kernel, fun left hleft right hright hleftNull hrightNull =>
      Except.isOk_iff.1 (hordered left hleft right hright hleftNull hrightNull)⟩
  exact ⟨statement, hserves, hvalues,
    (ranks_iff rfl hserves amountsByDay hvalues).2 (by decide +kernel)⟩

/-- The store may give several days for one row, as a list, and then the amount of it is not
ranked. -/
theorem ordering_not_ranked :
    Value.Comparable [.int 3] ∧
      (((ordering.next (.call (.read (.rankings "Orders" "Time" "Amount" (some 1))) .empty)).next
          (answered ["Time_Day", "Amount"]
            [.list [.text "Monday", .text "Tuesday"], .int 3])).tasks[1]?.bind
        Task.failure?).map (fun failure => (failure.kind, failure.isEngine)) =
          some ("TypeError", false) := by
  refine ⟨⟨by decide +kernel, ?_⟩, by decide +kernel⟩
  rw [List.forall_mem_singleton, List.forall_mem_singleton]
  exact fun _ _ => ⟨false, by decide +kernel⟩

/-- In every state that can be reached, and for values in the range of doubles, the growth rates of
all counts are the last points of one series over the rows that the store answers, unless there is a
cell of the level among these that cannot be in a set. -/
theorem grows_iff (hworld : world = (fresh settings).run before)
    (hserves : world.engine.Serves name dimension measure cube ref statement) (answer : QueryResult)
    (hvalues : ∀ row ∈ answer.rows, ¬ ResultTable.Exceeds (row.cell measure)) :
    (∃ points latest, Grows (answer.pairs ref measure) points ∧ Latest points latest ∧
      ∀ count : Option Int, 0 ≤ count.getD world.engine.settings.defaultGrowthPeriods →
        world.Gives (.growthRates name dimension measure count)
          ⟨statement.text, statement.params, world.engine.settings.timeout⟩ answer
          (latest (count.getD world.engine.settings.defaultGrowthPeriods).toNat)) ↔
      ∀ row ∈ answer.rows, (row.cell ref.label).isMember = true := by
  rw [← Query.exists_series_iff hserves.compiles answer]
  constructor
  · rintro ⟨points, latest, -, -, hgives⟩
    obtain ⟨table, htable, -⟩ := (hserves.gives_iff hworld rfl (Int.le_refl 0) rfl).1
      (hgives (some 0) (Int.le_refl 0))
    exact ⟨table, htable⟩
  · rintro ⟨table, htable⟩
    have hseries := Query.series_of_table htable
    have hrange : ∀ row ∈ table.series, ¬ ResultTable.Exceeds row.2 := by
      rw [hseries]
      exact List.forall_mem_map.2 hvalues
    obtain ⟨points, hgrows, hgrowth⟩ := ResultTable.growth_eq_ok hrange
    refine ⟨points, _, hseries ▸ hgrows, GrowthPoint.latest_latest points, fun count hcount => ?_⟩
    exact (hserves.gives_iff hworld rfl hcount rfl).2 ⟨table, htable, hgrowth _⟩

/-- The amounts from day to day, of which one is absent. -/
theorem ordering_grows : ∃ statement,
    ordering.engine.Serves "Orders" "Time" "Amount" .orders ⟨"Time", "Day", none⟩ statement ∧
      (∀ row ∈ amountsByDay.rows, ¬ ResultTable.Exceeds (row.cell "Amount")) ∧
      ∃ points latest, Grows (amountsByDay.pairs ⟨"Time", "Day", none⟩ "Amount") points ∧
        Latest points latest ∧
        ∀ count : Option Int, 0 ≤ count.getD ordering.engine.settings.defaultGrowthPeriods →
          ordering.Gives (.growthRates "Orders" "Time" "Amount" count)
            ⟨statement.text, statement.params, ordering.engine.settings.timeout⟩ amountsByDay
            (latest (count.getD ordering.engine.settings.defaultGrowthPeriods).toNat) := by
  obtain ⟨statement, hserves⟩ := ordering_serves
  have hconverts : ∀ row ∈ amountsByDay.rows, (row.cell "Amount").toBinary64.isOk = true := by
    decide +kernel
  have hvalues : ∀ row ∈ amountsByDay.rows, ¬ ResultTable.Exceeds (row.cell "Amount") := by
    intro row hrow hexceeds
    obtain ⟨fault, hfault⟩ := ResultTable.toBinary64_eq_error_iff.2 hexceeds
    obtain ⟨number, hnumber⟩ := Except.isOk_iff.1 (hconverts row hrow)
    cases hfault.symm.trans hnumber
  exact ⟨statement, hserves, hvalues,
    (grows_iff rfl hserves amountsByDay hvalues).2 (by decide +kernel)⟩

/-- No growth is computed either where a row has several days. -/
theorem ordering_not_growing :
    ¬ ResultTable.Exceeds (.int 3) ∧
      (((ordering.next (.call (.read (.growthRates "Orders" "Time" "Amount" (some 1))) .empty)).next
          (answered ["Time_Day", "Amount"]
            [.list [.text "Monday", .text "Tuesday"], .int 3])).tasks[1]?.bind
        Task.failure?).map (fun failure => (failure.kind, failure.isEngine)) =
          some ("TypeError", false) := by
  refine ⟨?_, by decide +kernel⟩
  rintro ⟨n, ⟨⟩, hinfinite⟩
  exact absurd hinfinite (by decide +kernel)

end World

end StarCube
