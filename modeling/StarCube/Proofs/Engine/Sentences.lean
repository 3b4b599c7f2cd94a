import StarCube.Proofs.Engine.Publication
import StarCube.Proofs.Engine.Requests
import StarCube.Proofs.Query.Aliases
import StarCube.Proofs.Query.Reading
import StarCube.Proofs.Query.Sentences

/-!
Which texts that the operations hand to the store are sentences of the grammar. The names of the
dimensions of every published definition are identifiers, since registration checks them and
snapshots change the names of tables only.
-/

namespace StarCube

/-- A cube is registered and published as one of some kind. -/
structure CatalogEntry.OfKind (kind : Cube → Prop) (entry : CatalogEntry) : Prop where
  source : kind entry.source
  published : kind entry.published

def Catalog.OfKind (kind : Cube → Prop) (catalog : Catalog) : Prop :=
  ∀ name entry, catalog.entry? name = some entry → entry.OfKind kind

/-- A refresh goes by a source of some kind. -/
def Stage.OfKind (kind : Cube → Prop) (stage : Stage) : Prop :=
  ∀ source, stage.source? = some source → kind source

/-- A cube that is registered is of some kind if it is consistent. -/
def Event.OfKind (kind : Cube → Prop) : Event → Prop
  | .call (.register cube _) _ => cube.check = .ok () → kind cube
  | _ => True

/-- The catalog and the sources that are refreshed are of some kind. -/
structure World.OfKind (kind : Cube → Prop) (world : World) : Prop where
  catalog : world.engine.catalog.OfKind kind
  sound : ∀ task ∈ world.tasks, task.Sound fun _ _ stage => stage.OfKind kind

namespace Catalog.OfKind

variable {kind : Cube → Prop} {catalog after : Catalog} {name : String}

theorem register (h : catalog.OfKind kind) {cube : Cube} {replace : Bool}
    (hcube : cube.check = .ok () → kind cube) (hafter : catalog.register cube replace = .ok after) :
    after.OfKind kind :=
  have hkind := hcube (check_of_register hafter)
  forall_entry?_register h hafter fun _ => ⟨hkind, hkind⟩

theorem unregister (h : catalog.OfKind kind) (hafter : catalog.unregister name = .ok after) :
    after.OfKind kind :=
  forall_entry?_unregister h hafter

theorem publish (h : catalog.OfKind kind) {published : Cube} {version : Int}
    (hpublished : kind published)
    (hafter : catalog.publish name published version = .ok after) : after.OfKind kind :=
  forall_entry?_publish h hafter fun current hcurrent =>
    ⟨(h name current hcurrent).source, hpublished⟩

end Catalog.OfKind

section Kinds

variable {kind : Cube → Prop}
  (hrename : ∀ cube rename, kind cube → kind (cube.renameTables rename))

include hrename

/-- A refresh keeps to its source and publishes snapshots of it. -/
theorem Stage.Goes.ofKind {cube : String} {engine after : Engine} {stage next : Stage}
    (h : Goes cube engine stage after next) (hstage : stage.OfKind kind)
    (hcatalog : engine.catalog.OfKind kind) : after.catalog.OfKind kind ∧ next.OfKind kind := by
  rcases h.catalog with ⟨hkept, hsource⟩ | ⟨source, version, hsource, hnone, hpublish⟩
  · rw [hkept]
    exact ⟨hcatalog, fun source hnext => hstage source (hsource source hnext)⟩
  · refine ⟨hcatalog.publish (hrename _ _ (hstage source hsource)) hpublish, ?_⟩
    simp [Stage.OfKind, hnone]

namespace World

variable {world : World}

theorem OfKind.of_moved (h : world.OfKind kind) {event : Event} (hevent : event.OfKind kind)
    {engine : Engine} {task : Task} (hmoved : world.moved event = some (engine, task)) :
    engine.catalog.OfKind kind ∧ task.Sound fun _ _ stage => stage.OfKind kind := by
  cases moves_of_moved h.sound hmoved with
  | register cube replace context outcome =>
      exact ⟨Engine.catalog_changed h.catalog fun _ hafter => h.catalog.register hevent hafter,
        .registered cube replace _ context outcome⟩
  | unregister name context outcome =>
      exact ⟨Engine.catalog_changed h.catalog fun _ hafter => h.catalog.unregister hafter,
        .unregistered name _ context outcome⟩
  | refuse cube context failure =>
      exact ⟨h.catalog, .refreshing cube _ context _ (by simp [Stage.OfKind, Stage.source?])⟩
  | start cube context entry after next hentry hgoes =>
      have hwaiting : (Stage.waiting entry.source).OfKind kind := by
        intro source hsource
        obtain rfl := Option.some.inj hsource
        exact (h.catalog cube entry hentry).source
      obtain ⟨hcatalog, hnext⟩ := hgoes.ofKind hrename hwaiting h.catalog
      exact ⟨hcatalog, .refreshing cube _ context next hnext⟩
  | resume index signal cube begun context stage after next hbefore hstage hgoes =>
      obtain ⟨hcatalog, hnext⟩ := hgoes.ofKind hrename hstage h.catalog
      exact ⟨hcatalog, .refreshing cube begun context next hnext⟩
  | read operation context after bound rest hafter hrest =>
      exact ⟨by rw [hafter.catalog]; exact h.catalog, .reading operation _ bound rest hrest⟩
  | readOn index signal operation begun context bound before rest after hbefore hafter hrest =>
      exact ⟨by rw [hafter.catalog]; exact h.catalog, .reading operation begun bound rest hrest⟩

/-- Cubes stay of a kind that does not depend on the names of tables. -/
theorem OfKind.next (h : world.OfKind kind) {event : Event} (hevent : event.OfKind kind) :
    (world.next event).OfKind kind where
  catalog := by
    cases hmoved : world.moved event with
    | none =>
        rw [next_eq_self hmoved]
        exact h.catalog
    | some moved =>
        rw [engine_next hmoved]
        exact (h.of_moved hrename hevent hmoved).1
  sound := by
    intro task htask
    rcases mem_tasks_next htask with hold | ⟨engine, hmoved⟩
    · exact h.sound task hold
    · exact (h.of_moved hrename hevent hmoved).2

theorem OfKind.run (h : world.OfKind kind) {events : List Event}
    (hevents : ∀ event ∈ events, event.OfKind kind) : (world.run events).OfKind kind := by
  induction events generalizing world with
  | nil => exact h
  | cons event rest ih =>
      rw [List.forall_mem_cons] at hevents
      exact ih (h.next hrename hevents.1) hevents.2

/-- Whatever is published at some time of a run is of the kind of the cubes that are registered. -/
theorem Shows.ofKind {settings : Settings} {events : List Event} {name : String} {cube : Cube}
    (h : Shows settings events name cube) (hevents : ∀ event ∈ events, event.OfKind kind) :
    kind cube := by
  have hfresh : (fresh settings).OfKind kind :=
    ⟨by simp [Catalog.OfKind, fresh, Catalog.entry?, Catalog.empty, Keyed.get?], by simp [fresh]⟩
  obtain ⟨front, hfront, hcube⟩ := h
  obtain ⟨entry, hentry, rfl⟩ := Catalog.require_eq_ok_iff.1 hcube
  have hrun := hfresh.run hrename fun event hevent => hevents event (hfront.subset hevent)
  exact (hrun.catalog name entry hentry).published

end World

end Kinds

/-- The names of the dimensions of every published definition are identifiers. -/
theorem World.Shows.identified {settings : Settings} {events : List Event} {name : String}
    {cube : Cube} (h : Shows settings events name cube) : cube.Identified := by
  refine h.ofKind (fun _ rename hcube => hcube.renameTables rename) fun event _ => ?_
  unfold Event.OfKind
  split
  · exact Cube.isIdentifier_name_of_check
  · trivial

/-- A query that is read from text selects something. -/
theorem Query.select_ne_nil_of_parse {text : String} {query : Query} (h : parse text = .ok query) :
    query.select ≠ [] := by
  obtain ⟨tokens, hscan, h⟩ := Except.bind_eq_ok_iff.1 h
  obtain ⟨tree, -, rfl⟩ := ofTokens_sound (Token.closed_of_scanFrom hscan) h
  simp [QueryTree.query, Listed.toList]

namespace Read

/-- An operation is asked to select neither measures nor levels. -/
def selectsNothing : Read → Bool
  | .runQuery query => query.select.isEmpty
  | .sliceAndDice _ dimensions measures _ => dimensions.isEmpty && measures.isEmpty
  | _ => false

/-- No operation but a slice or a given query can be asked to select nothing. -/
theorem Poses.select_eq_nil_iff {published : String → Cube → Prop} {operation : Read}
    {name : String} {query : Query} (h : operation.Poses published name query) :
    query.select = [] ↔ operation.selectsNothing = true := by
  cases h with
  | executeQuery h => simpa [selectsNothing] using Query.select_ne_nil_of_parse h
  | runQuery query => simp [selectsNothing]
  | @sliceAndDice cube dimensions measures filters definition query hcube h =>
      obtain ⟨levels, hlevels, h⟩ := Except.bind_eq_ok_iff.1 h
      obtain ⟨conditions, -, h⟩ := Except.bind_eq_ok_iff.1 h
      obtain rfl := Except.ok.inj h
      have hlength := (Except.forall₂_of_mapM hlevels).length_eq
      have hempty : levels = [] ↔ dimensions = [] := by
        rw [← List.length_eq_zero_iff, ← List.length_eq_zero_iff, hlength]
      simp [selectsNothing, hempty]
  | drillDown hquery hcube h =>
      obtain ⟨levels, -, h⟩ := Except.bind_eq_ok_iff.1 h
      obtain rfl := Except.ok.inj h
      simp [selectsNothing, Query.select_ne_nil_of_parse hquery]
  | rankings hcube h =>
      obtain ⟨level, -, h⟩ := Except.bind_eq_ok_iff.1 h
      obtain rfl := Except.ok.inj h
      simp [selectsNothing]
  | growthRates hcube h =>
      obtain ⟨level, -, h⟩ := Except.bind_eq_ok_iff.1 h
      obtain rfl := Except.ok.inj h
      simp [selectsNothing]

end Read

namespace World

/-- In every run, each text that an operation which compiles queries hands to the store is the
statement of a query that the operation poses, over a definition that is or was published. It is a
sentence of the grammar just if the operation is not asked to select nothing and no name of the
query has points. -/
theorem handed_isSentence_iff (settings : Settings) (events : List Event) {task : Task}
    (htask : task ∈ ((fresh settings).run events).tasks) {operation : Read}
    (hcall : task.call = .read operation) (hcompiles : operation.compiles = true)
    {request : StoreQuery} (hrequest : task.rest.asked? = some request) :
    ∃ name query cube statement, operation.Poses (Shows settings events) name query ∧
      Shows settings events name cube ∧ query.statement cube = .ok statement ∧
      request.sql = statement.text ∧
      (IsSentence request.sql ↔ operation.selectsNothing = false ∧ query.Undotted cube) := by
  obtain ⟨name, query, cube, statement, hposes, hcube, hstatement, hsql⟩ :=
    sends_of_mem_tasks htask hcall hcompiles hrequest
  refine ⟨name, query, cube, statement, hposes, hcube, hstatement, hsql, ?_⟩
  rw [hsql, Query.isSentence_iff hcube.identified hstatement, ne_eq, hposes.select_eq_nil_iff,
    Bool.not_eq_true]

/-- Visits are registered, and an operation reads them. -/
def visited (clock : String) (operation : Read) : List Event :=
  [.call (.register (.visits clock) false) .empty, .call (.read operation) .empty]

/-- The task of the operation. -/
def visitor (clock : String) (operation : Read) : Task :=
  let world := (fresh .standard).next (.call (.register (.visits clock) false) .empty)
  ((Task.made (.read operation) world.engine .empty).proceed operation.procedure world.engine).2

theorem mem_tasks_of_moved {world : World} {event : Event} {engine : Engine} {task : Task}
    (h : world.moved event = some (engine, task)) : task ∈ (world.next event).tasks := by
  simp [next, h]

theorem visitor_mem (clock : String) (operation : Read) :
    visitor clock operation ∈ ((fresh .standard).run (visited clock operation)).tasks := by
  rw [visited, run, List.foldl_cons, List.foldl_cons, List.foldl_nil]
  exact mem_tasks_of_moved rfl

/-- The visits by hour, where the clock has a given name. -/
def byHour (clock : String) : Read :=
  .rankings "Visits" ("[" ++ clock ++ "].[Hour]") "Guests" none

/-- Where the clock has no points in its name, the ranking of the hours is asked for by a
sentence. -/
theorem byHour_isSentence :
    visitor "Clock" (byHour "Clock") ∈
      ((fresh .standard).run (visited "Clock" (byHour "Clock"))).tasks ∧
    (visitor "Clock" (byHour "Clock")).call = .read (byHour "Clock") ∧
    (byHour "Clock").compiles = true ∧
    ∃ request, (visitor "Clock" (byHour "Clock")).rest.asked? = some request ∧
      IsSentence request.sql := by
  have hasked : (visitor "Clock" (byHour "Clock")).rest.asked?.isSome = true := by decide +kernel
  obtain ⟨request, hrequest⟩ := Option.isSome_iff_exists.1 hasked
  obtain ⟨name, query, cube, statement, -, hcube, hstatement, -, hsentence⟩ :=
    handed_isSentence_iff .standard (visited "Clock" (byHour "Clock")) (visitor_mem _ _) rfl rfl
      hrequest
  have hundotted : cube.Undotted := by
    refine hcube.ofKind (fun _ rename hcube => hcube.renameTables rename) ?_
    intro event hevent
    rcases List.mem_pair.1 hevent with rfl | rfl
    · exact fun _ => by decide +kernel
    · trivial
  exact ⟨visitor_mem _ _, rfl, rfl, request, hrequest,
    hsentence.2 ⟨rfl, Query.undotted_of_cube hundotted hcube.identified hstatement⟩⟩

/-- What is handed over is no sentence if it is the statement of a query that has points or selects
nothing. -/
theorem not_isSentence_of_asked (query : Query) {clock : String} {operation : Read} {sql : String}
    (hasked : (visitor clock operation).rest.asked?.map StoreQuery.sql = some sql)
    (hcheck : (Cube.visits clock).check = .ok ())
    (hstatement : (query.statement (.visits clock)).toOption.map Statement.text = some sql)
    (hquery : ¬ (query.select ≠ [] ∧ query.Undotted (.visits clock))) :
    ∃ request, (visitor clock operation).rest.asked? = some request ∧ request.sql = sql ∧
      ¬ IsSentence request.sql := by
  obtain ⟨request, hrequest, rfl⟩ := Option.map_eq_some_iff.1 hasked
  refine ⟨request, hrequest, rfl, ?_⟩
  cases hresult : query.statement (.visits clock) with
  | error failure => simp [hresult, Except.toOption] at hstatement
  | ok statement =>
      have htext : statement.text = request.sql := by
        simpa [hresult, Except.toOption] using hstatement
      rwa [← htext, Query.isSentence_iff (Cube.isIdentifier_name_of_check hcheck) hresult]

/-- A dimension may have a point in its name, which the alias and the key of its table then have as
well; and a slice may select nothing. -/
theorem exists_not_isSentence :
    ((Cube.visits "Clock.Local").check = .ok () ∧
      visitor "Clock.Local" (byHour "Clock.Local") ∈
        ((fresh .standard).run (visited "Clock.Local" (byHour "Clock.Local"))).tasks ∧
      ∃ request, (visitor "Clock.Local" (byHour "Clock.Local")).rest.asked? = some request ∧
        request.sql =
          "SELECT d_clock.local.hour AS Clock.Local_Hour, SUM(fact.guests) AS Guests\n" ++
          "FROM visits fact\n" ++
          "LEFT JOIN hours d_clock.local ON fact.clock.local_key = d_clock.local.hour_key\n" ++
          "GROUP BY d_clock.local.hour\n" ++
          "ORDER BY d_clock.local.hour" ∧
        ¬ IsSentence request.sql) ∧
    ((Cube.visits "Clock").check = .ok () ∧
      visitor "Clock" (.sliceAndDice "Visits" [] [] []) ∈
        ((fresh .standard).run (visited "Clock" (.sliceAndDice "Visits" [] [] []))).tasks ∧
      ∃ request, (visitor "Clock" (.sliceAndDice "Visits" [] [] [])).rest.asked? = some request ∧
        request.sql = "SELECT \nFROM visits fact" ∧ ¬ IsSentence request.sql) := by
  have hdotted : (Cube.visits "Clock.Local").check = .ok () := by decide +kernel
  have hplain : (Cube.visits "Clock").check = .ok () := by decide +kernel
  refine ⟨⟨hdotted, visitor_mem _ _, ?_⟩, hplain, visitor_mem _ _, ?_⟩
  · refine not_isSentence_of_asked
      ⟨[.level ⟨"Clock.Local", "Hour", none⟩, .measure "Guests"], "Visits", []⟩
      (by decide +kernel) hdotted (by decide +kernel) ?_
    rintro ⟨-, hundotted⟩
    exact absurd (hundotted.labels _ List.mem_cons_self) (by decide)
  · refine not_isSentence_of_asked ⟨[], "Visits", []⟩
      (by decide +kernel) hplain (by decide +kernel) ?_
    rintro ⟨hselect, -⟩
    exact hselect rfl

end World

end StarCube
