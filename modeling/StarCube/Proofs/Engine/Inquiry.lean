import StarCube.Proofs.Engine.Isolation
import StarCube.Proofs.Query.Slices

/-!
The paths by which a query is asked. A query that is submitted as text, one that is given as such
and one that is put together from references come to the same inquiry: one request that is made
while a lease is held on the tables of the cube, and a result that depends on the answer alone; or
the refusal of it.
-/

namespace StarCube

/-- A request to the store, the tables on which a lease is held meanwhile, and what comes of the
answer. -/
structure Inquiry where
  tables : List String
  request : StoreQuery
  result : Except Failure QueryResult → Except Failure ResultTable

/-- The inquiry that is made by a statement of a query over a cube. -/
def Inquiry.ofStatement (settings : Settings) (query : Query) (cube : Cube)
    (statement : Statement) : Inquiry where
  tables := cube.tables
  request := ⟨statement.text, statement.params, settings.timeout⟩
  result answer := rowsOf statement.text answer >>= query.table cube

/-- The inquiry of a query over the definition that is published under the name of its cube, or the
failure with which it is refused. -/
def Engine.inquiry (engine : Engine) (query : Query) : Except Failure Inquiry := do
  let cube ← engine.catalog.require query.cube
  (query.statement cube).map (Inquiry.ofStatement engine.settings query cube)

theorem Engine.inquiry_eq {engine : Engine} {query : Query} {cube : Cube}
    (hcube : engine.published? query.cube = some cube) :
    engine.inquiry query =
      (query.statement cube).map (Inquiry.ofStatement engine.settings query cube) := by
  rw [inquiry, require_eq_ok_iff.2 hcube]
  rfl

/-- What is to be seen of a call at some time: with what it is over, what it asks the store, and the
tables on which it has a lease. -/
structure Standing where
  outcome : Option (Except Failure ResultTable)
  asked : Option StoreQuery
  lent : Option (List String)

namespace Inquiry

/-- The dialogue with the store in which an inquiry is made. -/
def dialogue : Except Failure Inquiry → Dialogue ResultTable
  | .error failure => .closed (.error failure)
  | .ok inquiry => .ask inquiry.request fun answer => .closed (inquiry.result answer)

/-- How a call stands that makes an inquiry, after some answers. A refused inquiry is over with the
failure and never asks; any other asks once, and is over with the first answer. -/
def standing : Except Failure Inquiry → List (Except Failure QueryResult) → Standing
  | .error failure, _ => ⟨some (.error failure), none, none⟩
  | .ok inquiry, [] => ⟨none, some inquiry.request, some inquiry.tables⟩
  | .ok inquiry, answer :: _ => ⟨some (inquiry.result answer), none, none⟩

end Inquiry

namespace Dialogue

variable {engine : Engine} {query : Query} {text : String} {cube : Cube}

theorem evaluate_eq_inquiry (settings : Settings) (statement : Statement) :
    evaluate settings query cube statement =
      Inquiry.dialogue (.ok (Inquiry.ofStatement settings query cube statement)) :=
  congrArg (ask _) (funext fun answer =>
    closed_bind (rowsOf statement.text answer) (query.table cube))

theorem runQuery_eq_inquiry : runQuery engine query = Inquiry.dialogue (engine.inquiry query) := by
  unfold runQuery Engine.inquiry
  cases engine.catalog.require query.cube with
  | error failure => rfl
  | ok cube =>
      show (closed (query.statement cube) >>= evaluate engine.settings query cube) =
        Inquiry.dialogue ((query.statement cube).map _)
      cases query.statement cube with
      | error failure => rfl
      | ok statement => exact evaluate_eq_inquiry engine.settings statement

/-- A text is prepared to the query that it is read as, over the definition of its cube. -/
theorem prepare_eq (hparse : Query.parse text = .ok query)
    (hcube : engine.published? query.cube = some cube) (hname : query.cube = cube.name) :
    engine.prepare query.cube text =
      (query.statement cube).map fun statement => ⟨cube, query, statement⟩ := by
  unfold Engine.prepare
  rw [Engine.require_eq_ok_iff.2 hcube, hparse]
  show (if query.cube ≠ cube.name then _ else _) = _
  rw [if_neg (not_not_intro hname)]
  cases query.statement cube <;> rfl

theorem executeQuery_eq_inquiry (hparse : Query.parse text = .ok query)
    (hcube : engine.published? query.cube = some cube) (hname : query.cube = cube.name) :
    executeQuery engine query.cube text = Inquiry.dialogue (engine.inquiry query) := by
  rw [executeQuery, prepare_eq hparse hcube hname, Engine.inquiry_eq hcube]
  cases query.statement cube with
  | error failure => rfl
  | ok statement => exact evaluate_eq_inquiry engine.settings statement

/-- A text that is compiled is drilled down to a query that is asked in its place. -/
theorem drillDown_eq_inquiry_drilled {path : List String} {statement : Statement} {drilled : Query}
    (hparse : Query.parse text = .ok query) (hcube : engine.published? query.cube = some cube)
    (hname : query.cube = cube.name) (hstatement : query.statement cube = .ok statement)
    (hdrilled : query.drilled cube path = .ok drilled) :
    drillDown engine query.cube text path = Inquiry.dialogue (engine.inquiry drilled) := by
  unfold drillDown
  rw [prepare_eq hparse hcube hname, hstatement]
  show (closed (engine.catalog.require query.cube) >>= fun definition =>
    closed (query.drilled definition path) >>= runQuery engine) = _
  rw [Engine.require_eq_ok_iff.2 hcube]
  show closed (query.drilled cube path) >>= runQuery engine = _
  rw [hdrilled]
  exact runQuery_eq_inquiry

/-- A text that cannot be compiled is refused before it is drilled down; any other is compiled
again. -/
theorem drillDown_eq_inquiry {path : List String} (hparse : Query.parse text = .ok query)
    (hcube : engine.published? query.cube = some cube) (hname : query.cube = cube.name)
    (hpath : ∀ reference ∈ path, ∃ ref ∈ query.levels, cube.Denotes reference ref) :
    drillDown engine query.cube text path = Inquiry.dialogue (engine.inquiry query) := by
  cases hstatement : query.statement cube with
  | error failure =>
      unfold drillDown
      rw [prepare_eq hparse hcube hname, Engine.inquiry_eq hcube, hstatement]
      rfl
  | ok statement =>
      exact drillDown_eq_inquiry_drilled hparse hcube hname hstatement (Query.drilled_eq_self hpath)

theorem sliceAndDice_eq_inquiry {dimensions measures : List String} {filters : Keyed Value}
    (hcube : engine.published? query.cube = some cube)
    (hslice : query.OfSlice cube query.cube dimensions measures filters) :
    sliceAndDice engine query.cube dimensions measures filters =
      Inquiry.dialogue (engine.inquiry query) := by
  unfold sliceAndDice
  rw [Engine.require_eq_ok_iff.2 hcube]
  show closed (Query.ofSlice cube query.cube dimensions measures filters) >>= runQuery engine = _
  rw [Query.ofSlice_eq_ok_iff.2 hslice]
  exact runQuery_eq_inquiry

end Dialogue

namespace Procedure

/-- With what a procedure is over. -/
def outcome? {α : Type} : Procedure α → Option (Except Failure α)
  | .done outcome => some outcome
  | _ => none

/-- A procedure that stands where the dialogue of an inquiry does is seen to stand so. -/
theorem standing_of_stands {settings : Settings} {rest : Procedure ResultTable}
    {inquiry : Except Failure Inquiry} {signals : List Signal} {lent : Option (List String)}
    (h : Stands settings rest ((Inquiry.dialogue inquiry).hear signals))
    (hlent : ∀ made, inquiry = .ok made → lent = some made.tables) :
    (⟨rest.outcome?, rest.asked?, if rest.ended then none else lent⟩ : Standing) =
      Inquiry.standing inquiry (signals.filterMap Signal.answer?) := by
  cases inquiry with
  | error failure =>
      rw [Inquiry.dialogue, Dialogue.hear_closed] at h
      cases h
      rfl
  | ok made =>
      rw [Inquiry.dialogue, Dialogue.hear_ask_closed] at h
      cases hanswers : signals.filterMap Signal.answer? with
      | nil =>
          rw [hanswers] at h
          cases h
          rw [hlent made rfl]
          rfl
      | cons answer others =>
          rw [hanswers] at h
          cases h
          rfl

end Procedure

namespace Read

/-- The table that an operation has given, or the failure with which it is over. -/
def outcome? : (operation : Read) → Procedure operation.Result → Option (Except Failure ResultTable)
  | .executeQuery .., rest => rest.outcome?
  | .runQuery _, rest => rest.outcome?
  | .sliceAndDice .., rest => rest.outcome?
  | .drillDown .., rest => rest.outcome?
  | _, _ => none

/-- An operation that gives a table leads the dialogue of an inquiry. -/
def Leads (engine : Engine) (inquiry : Except Failure Inquiry) : Read → Prop
  | .executeQuery cube text => Dialogue.executeQuery engine cube text = Inquiry.dialogue inquiry
  | .runQuery query => Dialogue.runQuery engine query = Inquiry.dialogue inquiry
  | .sliceAndDice cube dimensions measures filters =>
      Dialogue.sliceAndDice engine cube dimensions measures filters = Inquiry.dialogue inquiry
  | .drillDown cube text path =>
      Dialogue.drillDown engine cube text path = Inquiry.dialogue inquiry
  | _ => False

end Read

namespace Task

/-- How a task stands that reads. -/
def standing : Task → Standing
  | ⟨.read operation, begun, context, rest⟩ =>
      ⟨operation.outcome? rest, rest.asked?, lease? ⟨.read operation, begun, context, rest⟩⟩
  | _ => ⟨none, none, none⟩

/-- A task stands as its operation does that leads the dialogue of an inquiry. -/
theorem standing_eq {operation : Read} {begun : Engine} {context : LogContext}
    {rest : Procedure operation.Result} {settings : Settings} {inquiry : Except Failure Inquiry}
    {signals : List Signal}
    (h : Procedure.Stands settings rest ((operation.dialogue begun).hear signals))
    (hleads : operation.Leads begun inquiry)
    (hlent : ∀ made, inquiry = .ok made →
      (begun.published? operation.target).map Cube.tables = some made.tables) :
    standing ⟨.read operation, begun, context, rest⟩ =
      Inquiry.standing inquiry (signals.filterMap Signal.answer?) := by
  cases operation with
  | executeQuery cube text =>
      rw [show (Read.executeQuery cube text).dialogue begun = _ from hleads] at h
      exact Procedure.standing_of_stands h hlent
  | runQuery query =>
      rw [show (Read.runQuery query).dialogue begun = _ from hleads] at h
      exact Procedure.standing_of_stands h hlent
  | sliceAndDice cube dimensions measures filters =>
      rw [show (Read.sliceAndDice cube dimensions measures filters).dialogue begun =
        _ from hleads] at h
      exact Procedure.standing_of_stands h hlent
  | drillDown cube text path =>
      rw [show (Read.drillDown cube text path).dialogue begun = _ from hleads] at h
      exact Procedure.standing_of_stands h hlent
  | members cube dimension hierarchy => exact hleads.elim
  | rankings cube dimension measure count => exact hleads.elim
  | growthRates cube dimension measure count => exact hleads.elim
  | statistics cube => exact hleads.elim

end Task

/-- Orders by the day and by the flag of a vessel. -/
def Cube.orders : Cube where
  name := "Orders"
  description := ""
  factTable := "orders"
  dimensions :=
    [⟨"Time", "days", "day_key", "day",
        [⟨"Calendar", [⟨"Year", "year", none⟩, ⟨"Day", "day", none⟩]⟩], []⟩,
      ⟨"Vessel", "vessels", "vessel_key", "name", [⟨"Registry", [⟨"Flag", "flag", none⟩]⟩], []⟩]
  measures := [⟨"Amount", "amount", .sum, .number, none⟩]
  calculatedMembers := []

namespace World

/-- However a world goes on, a call that is made in it stands as one that makes an inquiry, and
there are no leases but those of the calls under way. -/
def Pursues (world : World) (operation : Read) (inquiry : Except Failure Inquiry) : Prop :=
  ∀ context events,
    let after := (world.next (.call (.read operation) context)).run events
    (∃ task, after.tasks[world.tasks.length]? = some task ∧ task.call = .read operation ∧
      task.standing =
        Inquiry.standing inquiry (events.filterMap (Event.answer? world.tasks.length))) ∧
    after.engine.leases.Perm (after.tasks.filterMap Task.lease?)

variable {settings : Settings} {before : List Event} {world : World} {query : Query} {cube : Cube}
  {text : String}

/-- An operation on the cube of a query that leads the dialogue of its inquiry makes that inquiry,
in every run. -/
theorem pursues_of_leads {operation : Read} (hworld : world = (fresh settings).run before)
    (hcube : world.engine.published? query.cube = some cube)
    (htarget : operation.target = query.cube)
    (hleads : operation.Leads world.engine (world.engine.inquiry query)) :
    world.Pursues operation (world.engine.inquiry query) := by
  intro context events
  obtain ⟨bound, rest, htask, hstands⟩ := stands_of_read before operation context events hworld
  have hlent : world.Lent settings := by
    rw [hworld]
    exact (lent_fresh settings).run before
  rw [Event.filterMap_answer?]
  refine ⟨⟨_, htask, rfl, Task.standing_eq hstands hleads fun made hmade => ?_⟩, ?_⟩
  · rw [Engine.inquiry_eq hcube] at hmade
    obtain ⟨statement, -, rfl⟩ := Except.map_eq_ok_iff.1 hmade
    rw [htarget, hcube]
    rfl
  · exact ((hlent.next (.call (.read operation) context)).run events).leases

/-- The definition that is published under a name has that name. -/
theorem name_of_published {name : String} (hworld : world = (fresh settings).run before)
    (hcube : world.engine.published? name = some cube) : name = cube.name := by
  have htitled := (titled_invariant.run settings before).engine
  rw [← hworld] at htitled
  obtain ⟨entry, hentry, rfl⟩ := Option.map_eq_some_iff.1 hcube
  exact (htitled name entry hentry).2.symm

/-- In every state that can be reached, a query text that is submitted for its cube, the query that
it is read as, and the text drilled down along levels that it selects already make one and the same
inquiry. -/
theorem pursues_of_parse (hworld : world = (fresh settings).run before)
    (hparse : Query.parse text = .ok query)
    (hcube : world.engine.published? query.cube = some cube) {path : List String}
    (hpath : ∀ reference ∈ path, ∃ ref ∈ query.levels, cube.Denotes reference ref) :
    ∀ operation ∈ [Read.executeQuery query.cube text, .runQuery query,
        .drillDown query.cube text path],
      world.Pursues operation (world.engine.inquiry query) := by
  have hname := name_of_published hworld hcube
  simp only [List.forall_mem_cons, List.not_mem_nil, false_implies, implies_true, and_true]
  refine ⟨?_, ?_, ?_⟩
  · exact pursues_of_leads hworld hcube rfl (Dialogue.executeQuery_eq_inquiry hparse hcube hname)
  · exact pursues_of_leads hworld hcube rfl Dialogue.runQuery_eq_inquiry
  · exact pursues_of_leads hworld hcube rfl (Dialogue.drillDown_eq_inquiry hparse hcube hname hpath)

/-- The orders are registered. -/
def ordering : World :=
  (fresh .standard).run [.call (.register .orders false) .empty]

theorem published_ordering : ordering.engine.published? "Orders" = some .orders := by decide +kernel

/-- The orders of each day, by text and as a query. -/
def ordersByDay : String × Query :=
  ("SELECT [Time].[Day], [Measures].[Amount] FROM [Orders]",
    ⟨[.level ⟨"Time", "Day", none⟩, .measure "Amount"], "Orders", []⟩)

/-- Days are the finest level of time, so drilling down to time adds nothing to them. -/
theorem ordersByDay_pursues :
    Query.parse ordersByDay.1 = .ok ordersByDay.2 ∧
      ordering.engine.published? "Orders" = some .orders ∧
      (∀ reference ∈ ["Time"], ∃ ref ∈ ordersByDay.2.levels, Cube.orders.Denotes reference ref) ∧
      ∀ operation ∈ [Read.executeQuery "Orders" ordersByDay.1, .runQuery ordersByDay.2,
          .drillDown "Orders" ordersByDay.1 ["Time"]],
        ordering.Pursues operation (ordering.engine.inquiry ordersByDay.2) := by
  have hread : ((Query.parse ordersByDay.1).map fun query =>
      (query.select, query.cube, query.conditions.isEmpty)).toOption =
        some (ordersByDay.2.select, ordersByDay.2.cube, true) := by
    decide +kernel
  have hparse : Query.parse ordersByDay.1 = .ok ordersByDay.2 := by
    obtain ⟨⟨select, cube, conditions⟩, hquery, hfields⟩ :=
      Except.map_eq_ok_iff.1 (Except.toOption_eq_some_iff.1 hread)
    obtain ⟨rfl, rfl, hnone⟩ : _ ∧ _ ∧ conditions.isEmpty = true := by simpa using hfields
    rw [hquery, List.isEmpty_iff.1 hnone]
    rfl
  have hfinest : (Cube.orders.levelRef "Time").toOption = some ⟨"Time", "Day", none⟩ := by
    decide +kernel
  have hpath : ∀ reference ∈ ["Time"], ∃ ref ∈ ordersByDay.2.levels,
      Cube.orders.Denotes reference ref :=
    List.forall_mem_singleton.2 ⟨_, List.mem_singleton_self _,
      Cube.levelRef_eq_ok_iff.1 (Except.toOption_eq_some_iff.1 hfinest)⟩
  exact ⟨hparse, published_ordering, hpath, pursues_of_parse rfl hparse published_ordering hpath⟩

/-- In every state that can be reached, a slice that query text can express and every text of its
query make one and the same inquiry. -/
theorem pursues_of_expresses (hworld : world = (fresh settings).run before) {name : String}
    {dimensions measures : List String} {filters : Keyed Value}
    (hcube : world.engine.published? name = some cube)
    (h : cube.ExpressesSlice name dimensions measures filters) :
    ∃ query : Query, query.OfSlice cube name dimensions measures filters ∧
      (∃ text, query.WrittenAs text) ∧
      ∀ text, query.WrittenAs text →
        ∀ operation ∈ [Read.sliceAndDice name dimensions measures filters, .executeQuery name text],
          world.Pursues operation (world.engine.inquiry query) := by
  obtain ⟨query, hslice⟩ := Query.exists_ofSlice h
  obtain ⟨htext, hreads⟩ := hslice.readable h
  refine ⟨query, hslice, htext, fun text hwritten => ?_⟩
  have hname := name_of_published hworld hcube
  obtain rfl := hslice.cube
  simp only [List.forall_mem_cons, List.not_mem_nil, false_implies, implies_true, and_true]
  refine ⟨?_, ?_⟩
  · exact pursues_of_leads hworld hcube rfl (Dialogue.sliceAndDice_eq_inquiry hcube hslice)
  · exact pursues_of_leads hworld hcube rfl
      (Dialogue.executeQuery_eq_inquiry (hreads text hwritten) hcube hname)

/-- The filters by which orders are restricted to a flag and to some years. -/
def lately : Keyed Value :=
  [("Vessel.Flag", .text "Norway"), ("[Time].[Calendar].[Year]", .list [.int 2023, .text "2024"])]

/-- A slice of orders by the finest level of time, with one value in a filter and a list in
another. -/
theorem orders_pursues :
    ordering.engine.published? "Orders" = some .orders ∧
      Cube.orders.ExpressesSlice "Orders" ["Time", "[Vessel].[Flag]"] ["Amount"] lately ∧
      ∃ query : Query, query.OfSlice .orders "Orders" ["Time", "[Vessel].[Flag]"]
    ["Amount"] lately ∧
        (∃ text, query.WrittenAs text) ∧
        ∀ text, query.WrittenAs text →
          ∀ operation ∈ [Read.sliceAndDice "Orders" ["Time", "[Vessel].[Flag]"] ["Amount"] lately,
              .executeQuery "Orders" text],
            ordering.Pursues operation (ordering.engine.inquiry query) := by
  have hexpresses : ∀ reference ref, (Cube.orders.levelRef reference).toOption = some ref →
      ref.Writable → Cube.orders.Expresses reference :=
    fun _ _ href hwritable =>
      ⟨_, Cube.levelRef_eq_ok_iff.1 (Except.toOption_eq_some_iff.1 href), hwritable⟩
  have htime : Cube.orders.Expresses "Time" :=
    hexpresses _ ⟨"Time", "Day", none⟩ (by decide +kernel)
      ⟨by decide, by decide, by decide, by decide⟩
  have hvessel : Cube.orders.Expresses "[Vessel].[Flag]" :=
    hexpresses _ ⟨"Vessel", "Flag", none⟩ (by decide +kernel)
      ⟨by decide, by decide, by decide, by decide⟩
  have hflag : Cube.orders.Expresses "Vessel.Flag" :=
    hexpresses _ ⟨"Vessel", "Flag", none⟩ (by decide +kernel)
      ⟨by decide, by decide, by decide, by decide⟩
  have hyear : Cube.orders.Expresses "[Time].[Calendar].[Year]" :=
    hexpresses _ ⟨"Time", "Year", some "Calendar"⟩ (by decide +kernel)
      ⟨by decide, by decide, by decide, by decide⟩
  have hwords : ∀ content, '\n' ∉ content.toList → (Value.text content).Literal :=
    fun content hline => ⟨.text hline, by simp⟩
  have hnumber : (Value.int 2023).Literal := ⟨.int 2023, by rintro n ⟨⟩; decide⟩
  have hslice :
      Cube.orders.ExpressesSlice "Orders" ["Time", "[Vessel].[Flag]"] ["Amount"] lately := by
    refine ⟨by decide, .inl (by simp), by simpa using ⟨htime, hvessel⟩, by decide, ?_⟩
    simp only [lately, Query.filterValues, List.forall_mem_cons, List.not_mem_nil, false_implies,
      implies_true, and_true]
    exact ⟨⟨hflag, by simp, hwords "Norway" (by decide)⟩,
      hyear, by simp, hnumber, hwords "2024" (by decide)⟩
  exact ⟨published_ordering, hslice, pursues_of_expresses rfl published_ordering hslice⟩

end World

end StarCube
