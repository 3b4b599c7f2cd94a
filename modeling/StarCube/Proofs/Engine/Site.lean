import StarCube.Proofs.Engine.Current
import StarCube.Proofs.Engine.Definitions
import StarCube.Proofs.Engine.Store

/-!
An engine together with the tables of its store. The store executes the statements that a refresh
waits for and tells it, or fails on one of them. Refreshes stay in order whatever happens, and each
is about snapshots of its own cube.
-/

namespace StarCube

/-- What can happen at an engine and its store. -/
inductive Act where
  | call (call : Call) (context : LogContext)
  | turn (task : Nat)
  | answer (task : Nat) (result : Except Failure QueryResult)
  /-- The store executes the statements that a task waits for, unless there is a fault. -/
  | perform (task : Nat) (fault : Option Fault)
  /-- A reader takes a lease on tables. -/
  | lease (tables : List String)
  | release (tables : List String)

/-- The statements whose execution a task waits for. Only refreshes submit statements. -/
def Task.statements : Task → List String
  | ⟨.refresh _, _, _, rest⟩ => rest.submitted
  | _ => []

/-- What a refresh waits for is told by its stage. -/
theorem Task.statements_refresh (cube : String) (begun : Engine) (context : LogContext)
    (stage : Stage) :
    (⟨.refresh cube, begun, context, stage.procedure cube⟩ : Task).statements =
      stage.submitted cube :=
  Stage.submitted_procedure stage

/-- The refresh that is over, and how it has ended. -/
def Task.ended? : Task → Option (String × Except Failure Int)
  | ⟨.refresh cube, _, _, .done outcome⟩ => some (cube, outcome)
  | _ => none

/-- The refresh that has succeeded, with the version that it has published. -/
def Task.completed? (task : Task) : Option (String × Int) :=
  match task.ended? with
  | some (cube, .ok version) => some (cube, version)
  | _ => none

/-- An engine with the calls made so far, and the tables of its store. -/
structure Site where
  world : World
  tables : List String

namespace Act

/-- What an act is to the calls under way; none if it is about leases only. -/
def event? : Act → Option Event
  | .call made context => some (.call made context)
  | .turn task => some (.signal task .turn)
  | .answer task result => some (.signal task (.answer result))
  | .perform task fault => some (.signal task (.acknowledge (Fault.outcome fault)))
  | _ => none

theorem eq_call_of_event? {act : Act} {made : Call} {context : LogContext}
    (h : act.event? = some (.call made context)) : act = .call made context := by
  cases act with
  | call other bound =>
      obtain ⟨rfl, rfl⟩ := Event.call.inj (Option.some.inj h)
      rfl
  | _ => cases h

theorem eq_perform_of_event? {act : Act} {task : Nat} {result : Except Failure Unit}
    (h : act.event? = some (.signal task (.acknowledge result))) :
    ∃ fault, act = .perform task fault := by
  cases act with
  | perform other fault =>
      obtain ⟨rfl, -⟩ := Event.signal.inj (Option.some.inj h)
      exact ⟨fault, rfl⟩
  | _ => cases h

end Act

namespace Site

/-- A new engine over a store. -/
def fresh (settings : Settings) (tables : List String) : Site :=
  ⟨.fresh settings, tables⟩

/-- The statements whose execution a task waits for. -/
def statements (site : Site) (task : Nat) : List String :=
  (site.world.tasks[task]?.map Task.statements).getD []

/-- What an act makes of a site. -/
def next (site : Site) : Act → Site
  | .call call context => { site with world := site.world.next (.call call context) }
  | .turn task => { site with world := site.world.next (.signal task .turn) }
  | .answer task result => { site with world := site.world.next (.signal task (.answer result)) }
  | .perform task fault =>
      ⟨site.world.next (.signal task (.acknowledge (Fault.outcome fault))),
        Store.perform site.tables (site.statements task) fault⟩
  | .lease tables =>
      { site with world := { site.world with engine := site.world.engine.lease tables } }
  | .release tables =>
      { site with world := { site.world with engine := site.world.engine.release tables } }

/-- What a list of acts makes of a site. -/
def run (site : Site) (acts : List Act) : Site :=
  acts.foldl next site

/-- Something holds at each act of a list, at the site where it happens. -/
def Throughout (holds : Site → Act → Prop) : Site → List Act → Prop
  | _, [] => True
  | site, act :: rest => holds site act ∧ Throughout holds (site.next act) rest

theorem throughout_append_singleton {holds : Site → Act → Prop} {site : Site} {acts : List Act}
    {act : Act} : site.Throughout holds (acts ++ [act]) ↔
      site.Throughout holds acts ∧ holds (site.run acts) act := by
  induction acts generalizing site with
  | nil => simp [Throughout, run]
  | cons first rest ih =>
      simp only [List.cons_append, Throughout, ih, and_assoc]
      rfl

/-- The version of a cube. -/
def version (site : Site) (cube : String) : Int :=
  site.world.engine.catalog.version cube

theorem world_next {site : Site} {act : Act} {event : Event} (h : act.event? = some event) :
    (site.next act).world = site.world.next event := by
  cases act with
  | lease tables => cases h
  | release tables => cases h
  | _ =>
      obtain rfl := Option.some.inj h
      rfl

end Site

/-! ### Names -/

/-- A table has the name of a snapshot of a cube. -/
def IsSnapshot (cube table : String) : Prop :=
  ∃ version before, snapshotTable cube version before = table

theorem not_isSnapshot_of_not_mem {cube table : String} (h : '_' ∉ table.toList) :
    ¬ IsSnapshot cube table := by
  rintro ⟨version, before, rfl⟩
  simp [snapshotTable] at h

/-- No snapshots of two cubes share a name. -/
def NamesApart (cube other : String) : Prop :=
  ∀ table, IsSnapshot cube table → ¬ IsSnapshot other table

namespace Stage

/-- A refresh is about snapshots of its cube, and those that it is going to create have names that
may be written. -/
def Named (cube : String) : Stage → Prop
  | .creating _ version created table rest =>
      (∀ made ∈ created, IsSnapshot cube made) ∧
        ∀ before ∈ table :: rest, Acceptable (snapshotTable cube version before)
  | .cleaning _ created _ => ∀ made ∈ created, IsSnapshot cube made
  | .expiring _ idle => ∀ table ∈ idle, IsSnapshot cube table
  | _ => True

variable {cube other table : String} {engine after : Engine} {stage next : Stage}

/-- The statements of a refresh are about snapshots of its cube. -/
theorem Named.isSnapshot_of_about (h : stage.Named cube) {statement : String}
    (hstatement : statement ∈ stage.submitted cube) (habout : Store.About table statement) :
    IsSnapshot cube table := by
  have hdrops : ∀ tables : List String, (∀ table ∈ tables, IsSnapshot cube table) →
      statement ∈ tables.map dropStatement → IsSnapshot cube table := by
    intro tables htables hmem
    obtain ⟨dropped, hdropped, rfl⟩ := List.mem_map.1 hmem
    rcases habout with hcreated | hremoved
    · rw [Store.created?_dropStatement] at hcreated
      cases hcreated
    · rw [Store.removed?_dropStatement] at hremoved
      obtain rfl := Option.some.inj hremoved
      exact htables dropped hdropped
  cases stage with
  | creating source version created before rest =>
      obtain rfl := List.mem_singleton.1 hstatement
      rcases habout with hcreated | hremoved
      · have hname := h.2 before List.mem_cons_self
        rw [Store.created?_createStatement hname.blank_not_mem] at hcreated
        exact ⟨version, before, Option.some.inj hcreated⟩
      · rw [Store.removed?_createStatement] at hremoved
        cases hremoved
  | cleaning version created failure => exact hdrops created h hstatement
  | expiring version idle => exact hdrops idle h hstatement
  | waiting source => simp [submitted] at hstatement
  | ended outcome => simp [submitted] at hstatement

/-- All tables that are due are snapshots of the cube if those retired before are. -/
theorem isSnapshot_of_mem_due (h : ∀ table ∈ engine.retiredTables cube, IsSnapshot cube table)
    {source : Cube} {version : Int} (htable : table ∈ engine.due source cube version) :
    IsSnapshot cube table := by
  rcases Engine.mem_due_iff.1 htable with hretired | ⟨-, before, -, hbefore⟩
  · exact h table hretired
  · exact ⟨_, before, hbefore⟩

/-- A refresh that goes on is about snapshots of its cube and retires no other tables. -/
theorem Goes.named (h : Goes cube engine stage after next) (hstage : stage.Named cube)
    (hretired : ∀ table ∈ engine.retiredTables cube, IsSnapshot cube table) :
    next.Named cube ∧ ∀ table ∈ after.retiredTables cube, IsSnapshot cube table := by
  have hpublished : ∀ source version published, engine.Published cube source version published →
      ∀ table ∈ published.due source cube version, IsSnapshot cube table := by
    rintro source version published ⟨catalog, -, rfl⟩ table htable
    exact isSnapshot_of_mem_due hretired htable
  cases h with
  | waits source busy => exact ⟨trivial, hretired⟩
  | refused source failure => exact ⟨trivial, hretired⟩
  | enters source entry free registered checked =>
      refine ⟨⟨by simp, ?_⟩, hretired⟩
      rw [← source.tables_eq_cons]
      intro before hbefore
      exact (Procedure.checkSnapshots_eq_ok_iff.1 checked before hbefore).2
  | creates source version created table next rest =>
      refine ⟨⟨?_, fun before hbefore => hstage.2 before (List.mem_cons_of_mem _ hbefore)⟩,
        hretired⟩
      intro made hmade
      rcases List.mem_append.1 hmade with hold | hnew
      · exact hstage.1 made hold
      · exact ⟨version, table, (List.mem_singleton.1 hnew).symm⟩
  | gives source version created table rest failure => exact ⟨trivial, hretired⟩
  | fails source version created table rest made failure hmade =>
      refine ⟨?_, hretired⟩
      rcases hmade with rfl | rfl
      · exact hstage.1
      · intro made hmade
        rcases List.mem_append.1 hmade with hold | hnew
        · exact hstage.1 made hold
        · exact ⟨version, table, (List.mem_singleton.1 hnew).symm⟩
  | publishes source version created table published hpublish =>
      have hdue := hpublished source version published hpublish
      rw [Engine.retiredTables_retire]
      exact ⟨fun table htable => hdue table (List.mem_of_mem_filter htable),
        fun table htable => hdue table (List.mem_of_mem_filter htable)⟩
  | finishes source version created table published hpublish =>
      refine ⟨trivial, fun table htable => ?_⟩
      have hheld : table ∈ published.held (published.due source cube version) := by
        rw [← Engine.retiredTables_retire published cube (published.held _)]
        exact htable
      exact hpublished source version published hpublish table (List.mem_of_mem_filter hheld)
  | cleaned version created failure => exact ⟨trivial, hretired⟩
  | expired version idle => exact ⟨trivial, hretired⟩

end Stage

/-- A refresh leaves the retired tables of other cubes as they are. -/
theorem Stage.Goes.retiredTables_of_ne {cube other : String} {engine after : Engine}
    {stage next : Stage} (h : Goes other engine stage after next) (hne : cube ≠ other) :
    after.retiredTables cube = engine.retiredTables cube := by
  have hretire : ∀ source version published tables,
      engine.Published other source version published →
      (published.retire other tables).retiredTables cube = engine.retiredTables cube := by
    rintro source version published tables ⟨catalog, -, rfl⟩
    unfold Engine.retire Engine.retiredTables
    split <;> simp [Keyed.get?_put_of_ne _ _ hne, Keyed.get?_remove_of_ne _ hne]
  cases h with
  | publishes source version created table published hpublished =>
      exact hretire source version published _ hpublished
  | finishes source version created table published hpublished =>
      exact hretire source version published _ hpublished
  | _ => rfl

namespace World

/-- Refreshes of one cube come one after the other, and each is about snapshots of its own cube. -/
structure InOrder (world : World) : Prop where
  exclusive : ∀ cube, world.Exclusive cube
  sound : ∀ task ∈ world.tasks, task.Sound fun _ cube stage => stage.Named cube
  retired : ∀ cube, ∀ table ∈ world.engine.retiredTables cube, IsSnapshot cube table

variable {world : World} {event : Event} {engine : Engine} {task : Task} {cube : String}

theorem inOrder_fresh (settings : Settings) : (fresh settings).InOrder where
  exclusive _ := ⟨by simp [fresh], by simp [fresh]⟩
  sound := by simp [fresh]
  retired := by simp [fresh, Engine.retiredTables, Keyed.get?]

/-- A refresh goes on. -/
theorem InOrder.of_goes (h : world.InOrder) {other : String} {begun : Engine} {context : LogContext}
    {stage next : Stage}
    (hmoved : world.moved event =
      some (engine, ⟨.refresh other, begun, context, next.procedure other⟩))
    (hgoes : Stage.Goes other world.engine stage engine next) (hstage : stage.Named other) :
    (∀ task ∈ (world.next event).tasks, task.Sound fun _ cube stage => stage.Named cube) ∧
      ∀ cube, ∀ table ∈ engine.retiredTables cube, IsSnapshot cube table := by
  obtain ⟨hnext, hretired⟩ := hgoes.named hstage (h.retired other)
  constructor
  · intro task htask
    rcases mem_tasks_next htask with hold | ⟨engine', hmoved'⟩
    · exact h.sound task hold
    · obtain ⟨-, rfl⟩ := Prod.mk.inj (Option.some.inj (hmoved.symm.trans hmoved'))
      exact .refreshing other begun context next hnext
  · intro cube
    by_cases hcube : cube = other
    · rw [hcube]
      exact hretired
    · rw [hgoes.retiredTables_of_ne hcube]
      exact h.retired cube

/-- Whatever happens, refreshes stay in order. -/
theorem InOrder.next (h : world.InOrder) (event : Event) : (world.next event).InOrder := by
  have hexclusive : ∀ cube, (world.next event).Exclusive cube :=
    fun cube => (h.exclusive cube).next h.sound event
  cases hmoved : world.moved event with
  | none => rwa [next_eq_self hmoved]
  | some moved =>
      obtain ⟨engine, task⟩ := moved
      have hengine := engine_next hmoved
      have hkeep : task.Sound (fun _ cube stage => stage.Named cube) →
          engine.retired = world.engine.retired → (world.next event).InOrder := by
        intro htask hretired
        refine ⟨hexclusive, ?_, ?_⟩
        · intro other hother
          rcases mem_tasks_next hother with hold | ⟨engine', hmoved'⟩
          · exact h.sound other hold
          · obtain ⟨-, rfl⟩ := Prod.mk.inj (Option.some.inj (hmoved.symm.trans hmoved'))
            exact htask
        · rw [hengine]
          simp only [Engine.retiredTables, hretired]
          exact h.retired
      have hgo : ∀ other begun context stage next,
          task = ⟨.refresh other, begun, context, Stage.procedure other next⟩ →
          Stage.Goes other world.engine stage engine next → stage.Named other →
          (world.next event).InOrder := by
        rintro other begun context stage next rfl hgoes hstage
        obtain ⟨hsound, hretired⟩ := h.of_goes hmoved hgoes hstage
        exact ⟨hexclusive, hsound, by rwa [hengine]⟩
      cases moves_of_moved h.sound hmoved with
      | register definition replace context outcome =>
          exact hkeep (.registered _ _ _ _ _) (Engine.changed_retired _ _)
      | unregister name context outcome =>
          exact hkeep (.unregistered _ _ _ _) (Engine.changed_retired _ _)
      | refuse other context failure => exact hkeep (.refreshing _ _ _ _ trivial) rfl
      | start other context entry after next hentry hgoes =>
          exact hgo other _ context _ next rfl hgoes trivial
      | resume index signal other begun context stage after next hbefore hnamed hgoes =>
          exact hgo other begun context stage next rfl hgoes hnamed
      | read operation context after bound rest hafter hrest =>
          exact hkeep (.reading _ _ _ _ hrest) hafter.retired
      | readOn index signal operation begun context bound before rest after hbefore hafter hrest =>
          exact hkeep (.reading _ _ _ _ hrest) hafter.retired

/-- Leases are no matter of refreshes. -/
theorem InOrder.of_leases (h : world.InOrder) (leases : List (List String)) :
    (⟨{ world.engine with leases := leases }, world.tasks⟩ : World).InOrder :=
  ⟨fun cube => ⟨(h.exclusive cube).unique, (h.exclusive cube).locked⟩, h.sound, h.retired⟩

end World

namespace Site

variable {site : Site}

theorem inOrder_next (h : site.world.InOrder) (act : Act) : (site.next act).world.InOrder := by
  cases act with
  | call call context => exact h.next (.call call context)
  | turn task => exact h.next (.signal task .turn)
  | answer task result => exact h.next (.signal task (.answer result))
  | perform task fault => exact h.next (.signal task (.acknowledge (Fault.outcome fault)))
  | lease tables => exact h.of_leases _
  | release tables => exact h.of_leases _

end Site

end StarCube
