import StarCube.Proofs.Engine.Handling
import StarCube.Proofs.Engine.Inquiry
import StarCube.Proofs.Query.DrillDown

/-!
Drilling down as an operation. It asks one query, over the same cube and with the same conditions,
that has the levels of the path in front of what was selected.
-/

namespace StarCube

/-- A query is drilled down to the query that is asked in its place. -/
theorem Procedure.speaks_drillQuery {engine : Engine} {query drilled : Query} {cube : Cube}
    {path : List String} (hcube : engine.published? query.cube = some cube)
    (hdrilled : query.drilled cube path = .ok drilled) :
    Speaks engine.settings (some engine.catalog) (drillQuery query path)
      (Inquiry.dialogue (engine.inquiry drilled)) := by
  have hspeaks : Speaks engine.settings (some engine.catalog) (drillQuery query path)
      (.closed (engine.catalog.require query.cube) >>= fun definition =>
        .closed (query.drilled definition path) >>= Dialogue.runQuery engine) := by
    refine (speaks_requireCube query.cube).bind_closed fun definition _ => ?_
    exact Speaks.bind_closed (.closed _) fun drilled _ => speaks_runQuery drilled
  rw [Engine.require_eq_ok_iff.2 hcube] at hspeaks
  change Speaks _ _ _ (.closed (query.drilled cube path) >>= Dialogue.runQuery engine) at hspeaks
  rw [hdrilled] at hspeaks
  rw [← Dialogue.runQuery_eq_inquiry]
  exact hspeaks

namespace World

variable {settings : Settings} {before : List Event} {world : World} {query : Query} {cube : Cube}
  {statement : Statement} {path : List String} {refs : List LevelRef}

/-- In every state that can be reached, a query that is compiled is drilled down by asking the query
that has the levels of the path in front, each that is not selected yet and each once. That query is
compiled just if these can be selected and no measure has the name of the label of a level of the
path; a measure of such a name alone is refused as a label that is selected twice. Once it is
compiled, it shows the column that a level of the path names just if the levels of the query and of
the path present it, where those of one label have only their first to speak for them. -/
theorem drills_down (hworld : world = (fresh settings).run before)
    (hcube : world.engine.published? query.cube = some cube)
    (hcompiles : query.statement cube = .ok statement)
    (hpath : List.Forall₂ cube.Denotes path refs) :
    ∃ added, Query.Adds (query.levels.map LevelRef.label) refs added ∧
      Procedure.Speaks world.engine.settings (some world.engine.catalog)
        (Procedure.drillQuery query path)
        (Inquiry.dialogue (world.engine.inquiry (query.withLevels added))) ∧
      (∀ text, Query.parse text = .ok query →
        world.Pursues (.drillDown query.cube text path)
          (world.engine.inquiry (query.withLevels added))) ∧
      ((∃ drilled, (query.withLevels added).statement cube = .ok drilled) ↔
        (∀ ref ∈ added, cube.Offers ref) ∧ ∀ ref ∈ refs, ref.label ∉ query.measures) ∧
      ((∀ ref ∈ added, cube.Offers ref) → (∃ ref ∈ refs, ref.label ∈ query.measures) →
        ∃ label,
          (query.withLevels added).statement cube = .error (.semantic (.repeatedLabel label))) ∧
      ∀ drilled, (query.withLevels added).statement cube = .ok drilled →
        ∀ ref ∈ refs, ∀ dimension level, cube.level? ref = some (dimension, level) →
          ((query.withLevels added).Shows cube drilled dimension level.column ↔
            cube.Presents (query.levels ++ refs) dimension level.column) := by
  obtain ⟨added, hdrilled, hadds⟩ := Query.drilled_eq_ok query hpath
  have hconsistent : cube.Consistent := by
    refine Engine.Consistent.of_require ?_ (Engine.require_eq_ok_iff.2 hcube)
    exact hworld ▸ consistent_engine_run settings before
  refine ⟨added, hadds, Procedure.speaks_drillQuery hcube hdrilled, fun text hparse => ?_,
    hadds.compiles_iff hconsistent hcompiles, fun hoffers => ?_, ?_⟩
  · have hname := name_of_published hworld hcube
    have hpublished : world.engine.published? (query.withLevels added).cube = some cube := hcube
    exact pursues_of_leads hworld hpublished rfl
      (Dialogue.drillDown_eq_inquiry_drilled hparse hcube hname hcompiles hdrilled)
  · rintro ⟨ref, href, hmeasure⟩
    exact hadds.refused hconsistent hcompiles hoffers href hmeasure
  · exact fun drilled hstatement ref href dimension level _ => hadds.shows_iff_presents hstatement

/-- A path that names the years twice, with the hierarchy and without, the flags as the finest level
of vessels, and the days by the dimension alone. -/
def downToDays : List String × List LevelRef :=
  (["[Time].[Calendar].[Year]", "Vessel", "[Time].[Year]", "Time"],
    [⟨"Time", "Year", some "Calendar"⟩, ⟨"Vessel", "Flag", none⟩, ⟨"Time", "Year", none⟩,
      ⟨"Time", "Day", none⟩])

/-- The orders of each day, which are selected already, by the years and the flags as well. -/
theorem ordersByDay_drilled_down :
    ordering.engine.published? "Orders" = some .orders ∧
      ∃ statement, ordersByDay.2.statement .orders = .ok statement ∧
      List.Forall₂ Cube.orders.Denotes downToDays.1 downToDays.2 ∧
      ∃ added, Query.Adds (ordersByDay.2.levels.map LevelRef.label) downToDays.2 added ∧
        ∃ drilled, (ordersByDay.2.withLevels added).statement .orders = .ok drilled ∧
          ∀ ref ∈ downToDays.2, ∃ dimension level, Cube.orders.level? ref =
            some (dimension, level) ∧
            (ordersByDay.2.withLevels added).Shows .orders drilled dimension level.column := by
  obtain ⟨statement, hstatement⟩ : ∃ statement, ordersByDay.2.statement .orders = .ok statement :=
    Except.isOk_iff.1 (by decide +kernel)
  have hdenotes : ∀ text ref, (Cube.orders.levelRef text).toOption = some ref →
      Cube.orders.Denotes text ref :=
    fun _ _ href => Cube.levelRef_eq_ok_iff.1 (Except.toOption_eq_some_iff.1 href)
  have hpath : List.Forall₂ Cube.orders.Denotes downToDays.1 downToDays.2 :=
    .cons (hdenotes _ _ (by decide +kernel)) (.cons (hdenotes _ _ (by decide +kernel))
      (.cons (hdenotes _ _ (by decide +kernel)) (.cons (hdenotes _ _ (by decide +kernel)) .nil)))
  have hname : ∀ text : String,
      identifierStart text.toList = true ∧ text.length ≤ identifierLimit → Acceptable text :=
    fun _ h => ⟨h.1, h.2⟩
  have hlevels : ∀ ref ∈ downToDays.2, ∃ dimension level first found,
      Cube.orders.level? ref = some (dimension, level) ∧
        (ordersByDay.2.levels ++ downToDays.2).find? (·.label == ref.label) = some first ∧
        Cube.orders.level? first = some (dimension, found) ∧ found.column = level.column ∧
        Acceptable dimension.factKey ∧ Acceptable ref.label := by
    simp only [downToDays, List.forall_mem_cons, List.not_mem_nil, false_implies, implies_true,
      and_true]
    refine ⟨?_, ?_, ?_, ?_⟩
    all_goals
      exact ⟨_, _, _, _, rfl, rfl, rfl, rfl, hname _ (by decide +kernel),
        hname _ (by decide +kernel)⟩
  have hpublished : ordering.engine.published? ordersByDay.2.cube = some .orders :=
    published_ordering
  obtain ⟨added, hadds, -, -, hcompiles, -, hshows⟩ := drills_down rfl hpublished hstatement hpath
  have hoffers : ∀ ref ∈ added, Cube.orders.Offers ref := by
    intro ref href
    obtain ⟨dimension, level, _, _, hlevel, -, -, -, hkey, hlabel⟩ :=
      hlevels ref (hadds.sublist.subset href)
    exact ⟨dimension, level, hlevel, hkey, hlabel⟩
  obtain ⟨drilled, hdrilled⟩ := hcompiles.2 ⟨hoffers, by decide +kernel⟩
  refine ⟨published_ordering, statement, hstatement, hpath, added, hadds, drilled, hdrilled, ?_⟩
  intro ref href
  obtain ⟨dimension, level, first, found, hlevel, hfirst, hfound, hcolumn, -⟩ := hlevels ref href
  have hpresents := Cube.presents_of_find? hfirst hfound
  rw [hcolumn] at hpresents
  exact ⟨dimension, level, hlevel,
    (hshows drilled hdrilled ref href dimension level hlevel).2 hpresents⟩

end World

/-- The name of a level that may be written, although not behind the name of its dimension. -/
def longName : String := "".pushn 'Y' 124

/-- Orders by the years of the calendar and by fiscal years, with a measure that has the name of the
label of both levels, and by a level of a long name. -/
def Cube.ledger : Cube where
  name := "Ledger"
  description := ""
  factTable := "orders"
  dimensions :=
    [⟨"Time", "days", "day_key", "day",
      [⟨"Calendar", [⟨"Year", "year", none⟩]⟩,
        ⟨"Fiscal", [⟨"Year", "fiscal_year", none⟩, ⟨longName, "closing_day", none⟩]⟩], []⟩]
  measures :=
    [⟨"Amount", "amount", .sum, .number, none⟩, ⟨"Time_Year", "year", .max, .number, none⟩]
  calculatedMembers := []

namespace World

/-- The ledger is registered. -/
def keeping : World :=
  (fresh .standard).run [.call (.register .ledger false) .empty]

/-- What a call comes to at once: the kind of its failure, or the statement that it sends. -/
def opening (world : World) (operation : Read) : Option String × Option String :=
  match (world.next (.call (.read operation) .empty)).tasks[world.tasks.length]? with
  | some task => (task.failure?.map Failure.kind, task.rest.asked?.map StoreQuery.sql)
  | none => (none, none)

/-- Years cannot be drilled down to beside a measure of the name of their label, nor a level whose
label is too long; and fiscal years are not shown, and not missed, where years of the calendar
are. -/
theorem keeping_not_drilled_down :
    keeping.opening (.executeQuery "Ledger" "SELECT [Measures].[Time_Year] FROM [Ledger]") =
        (none, some "SELECT MAX(fact.year) AS Time_Year\nFROM orders fact") ∧
      keeping.opening (.drillDown "Ledger" "SELECT [Measures].[Time_Year] FROM [Ledger]"
        ["[Time].[Year]"]) = (some "SemanticError", none) ∧
      (Cube.ledger.level? ⟨"Time", longName, none⟩).map (·.2.column) = some "closing_day" ∧
      keeping.opening (.drillDown "Ledger" "SELECT [Time].[Calendar].[Year] FROM [Ledger]"
        ["[Time].[" ++ longName ++ "]"]) = (some "ValueError", none) ∧
      (Cube.ledger.level? ⟨"Time", "Year", some "Fiscal"⟩).map (·.2.column) = some "fiscal_year" ∧
      ∀ operation ∈ [Read.executeQuery "Ledger" "SELECT [Time].[Calendar].[Year] FROM [Ledger]",
          .drillDown "Ledger" "SELECT [Time].[Calendar].[Year] FROM [Ledger]"
            ["[Time].[Fiscal].[Year]"]],
        keeping.opening operation =
          (none, some ("SELECT d_time.year AS Time_Year\nFROM orders fact\n" ++
            "LEFT JOIN days d_time ON fact.time_key = d_time.day_key\n" ++
            "GROUP BY d_time.year\nORDER BY d_time.year")) := by
  decide +kernel

end World

end StarCube
