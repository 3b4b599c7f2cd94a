import StarCube.Proofs.Engine.Moves
import StarCube.Proofs.Engine.Snapshots

/-!
What is published. A refresh publishes snapshots of the source that it found when it was called. The
catalog keeps what belongs together as long as that is still the source which is registered; a cube
that was registered anew in the meantime is published with the tables of its predecessor.
-/

namespace StarCube

/-- A cube is published as it was registered, or over snapshots of the tables it was registered
with. -/
def CatalogEntry.Faithful (entry : CatalogEntry) (cube : String) : Prop :=
  entry.published = entry.source ∨
    entry.published = entry.source.renameTables (snapshotTable cube entry.version)

instance (entry : CatalogEntry) (cube : String) : Decidable (entry.Faithful cube) :=
  inferInstanceAs (Decidable (_ ∨ _))

/-- All entries of a catalog are faithful. -/
def Catalog.Faithful (catalog : Catalog) : Prop :=
  ∀ cube entry, catalog.entry? cube = some entry → entry.Faithful cube

namespace World

/-- An event at which a refresh of a cube publishes, with the refresh and the entries of the cube
before and after. -/
structure Publication (world : World) (event : Event) (cube : String) (task : Task)
    (before after : CatalogEntry) : Prop where
  moved : ∃ engine, world.moved event = some (engine, task)
  call : task.call = .refresh cube
  found : world.engine.catalog.entry? cube = some before
  made : (world.next event).engine.catalog.entry? cube = some after
  newer : before.version ≠ after.version

/-- What is published at an event comes from the source that is registered: it is the one with which
the refresh was called, or it happens to be what is published. -/
def UpToDate (world : World) (event : Event) : Prop :=
  ∀ cube task before after, world.Publication event cube task before after →
    ∀ begun, task.begun.catalog.entry? cube = some begun →
      before.source = begun.source ∨ before.source = after.published

end World

/-- The source that a refresh goes by. -/
def Stage.source? : Stage → Option Cube
  | .waiting source => some source
  | .creating source .. => some source
  | _ => none

/-- A refresh goes by the source with which it was called. -/
def Stage.Called (begun : Engine) (cube : String) (stage : Stage) : Prop :=
  ∀ source, stage.source? = some source →
    ∃ entry, begun.catalog.entry? cube = some entry ∧ entry.source = source

namespace Stage

variable {cube : String} {engine after : Engine} {stage next : Stage}

/-- A refresh leaves the catalog as it is and goes on with its source, or publishes. -/
theorem Goes.catalog (h : Goes cube engine stage after next) :
    (after.catalog = engine.catalog ∧
      ∀ source, next.source? = some source → stage.source? = some source) ∨
    ∃ source version, stage.source? = some source ∧ next.source? = none ∧
      engine.catalog.publish cube (source.renameTables (snapshotTable cube version)) version =
        .ok after.catalog := by
  cases h with
  | waits source busy => exact .inl ⟨rfl, fun _ => id⟩
  | refused source failure => exact .inl ⟨rfl, by simp [source?]⟩
  | enters source entry free registered => exact .inl ⟨rfl, fun _ => id⟩
  | creates source version created table next rest => exact .inl ⟨rfl, fun _ => id⟩
  | gives source version created table rest failure => exact .inl ⟨rfl, by simp [source?]⟩
  | fails source version created table rest made failure hmade =>
      exact .inl ⟨rfl, by simp [source?]⟩
  | publishes source version created table published hpublished =>
      obtain ⟨catalog, hcatalog, rfl⟩ := hpublished
      exact .inr ⟨source, version, rfl, rfl, hcatalog⟩
  | finishes source version created table published hpublished =>
      obtain ⟨catalog, hcatalog, rfl⟩ := hpublished
      exact .inr ⟨source, version, rfl, rfl, hcatalog⟩
  | cleaned version created failure => exact .inl ⟨rfl, by simp [source?]⟩
  | expired version idle => exact .inl ⟨rfl, by simp [source?]⟩

theorem Goes.catalog_of_waiting {source : Cube}
    (h : Goes cube engine (.waiting source) after next) :
    after.catalog = engine.catalog ∧ ∀ other, next.source? = some other → source = other := by
  cases h with
  | waits source busy => exact ⟨rfl, fun _ => Option.some.inj⟩
  | refused source failure => exact ⟨rfl, by simp [source?]⟩
  | enters source entry free registered => exact ⟨rfl, fun _ => Option.some.inj⟩

end Stage

namespace Catalog

variable {catalog after : Catalog}

theorem Faithful.register (h : catalog.Faithful) {cube : Cube} {replace : Bool}
    (hafter : catalog.register cube replace = .ok after) : after.Faithful :=
  forall_entry?_register h hafter fun _ => .inl rfl

theorem Faithful.unregister (h : catalog.Faithful) {name : String}
    (hafter : catalog.unregister name = .ok after) : after.Faithful :=
  forall_entry?_unregister h hafter

/-- Publishing the snapshots of a source keeps a catalog faithful just if the source is the one that
is registered, or what is published is. -/
theorem Faithful.publish_iff (h : catalog.Faithful) {cube : String} {source : Cube} {version : Int}
    {current : CatalogEntry} (hcurrent : catalog.entry? cube = some current)
    (hafter : catalog.publish cube (source.renameTables (snapshotTable cube version)) version =
      .ok after) :
    after.Faithful ↔ current.source = source ∨
      current.source = source.renameTables (snapshotTable cube version) := by
  obtain ⟨⟨found, hfound, -, hentry⟩, hothers⟩ := entry?_publish hafter
  obtain rfl : current = found := Option.some.inj (hcurrent.symm.trans hfound)
  constructor
  · intro hfaithful
    rcases hfaithful cube _ hentry with hsame | hsnapshots
    · exact .inr hsame.symm
    · exact .inl
        (Cube.renameTables_injective (snapshotTable_injective cube version) hsnapshots).symm
  · intro hsource
    refine forall_entry?_publish h hafter fun found hfound => ?_
    obtain rfl := Option.some.inj (hcurrent.symm.trans hfound)
    rcases hsource with hsame | hpublished
    · exact .inr (by rw [← hsame])
    · exact .inl hpublished.symm

end Catalog

namespace World

variable {world : World} {event : Event}

/-- Nothing is published where the catalog stays as it is. -/
theorem Publication.catalog_ne {cube : String} {task : Task} {before after : CatalogEntry}
    (h : world.Publication event cube task before after) :
    (world.next event).engine.catalog ≠ world.engine.catalog := by
  intro hsame
  have hmade := h.made
  rw [hsame, h.found] at hmade
  exact h.newer (congrArg CatalogEntry.version (Option.some.inj hmade))

/-- Nothing is published by other calls than refreshes. -/
theorem upToDate_of_call {engine : Engine} {task : Task}
    (h : world.moved event = some (engine, task))
    (hcall : ∀ cube, task.call ≠ .refresh cube) : world.UpToDate event := by
  intro cube other before after hpublication
  obtain ⟨_, hmoved⟩ := hpublication.moved
  obtain ⟨-, rfl⟩ := Prod.mk.inj (Option.some.inj (h.symm.trans hmoved))
  exact absurd hpublication.call (hcall cube)

/-- An event lets at most one refresh publish. -/
theorem upToDate_iff_of_publication {cube : String} {task : Task}
    {before after begun : CatalogEntry} (h : world.Publication event cube task before after)
    (hbegun : task.begun.catalog.entry? cube = some begun) :
    world.UpToDate event ↔ before.source = begun.source ∨ before.source = after.published := by
  constructor
  · intro huptodate
    exact huptodate cube task before after h begun hbegun
  · intro hsource cube' task' before' after' h' begun' hbegun'
    obtain ⟨_, hmoved⟩ := h.moved
    obtain ⟨_, hmoved'⟩ := h'.moved
    obtain ⟨-, rfl⟩ := Prod.mk.inj (Option.some.inj (hmoved.symm.trans hmoved'))
    obtain rfl := Call.refresh.inj (h.call.symm.trans h'.call)
    obtain rfl := Option.some.inj (h.found.symm.trans h'.found)
    obtain rfl := Option.some.inj (h.made.symm.trans h'.made)
    obtain rfl := Option.some.inj (hbegun.symm.trans hbegun')
    exact hsource

/-- Every refresh goes by the source with which it was called. -/
theorem sound_next (hsound : ∀ task ∈ world.tasks, task.Sound Stage.Called) (event : Event) :
    ∀ task ∈ (world.next event).tasks, task.Sound Stage.Called := by
  intro task htask
  rcases mem_tasks_next htask with hold | ⟨engine, hmoved⟩
  · exact hsound task hold
  · cases moves_of_moved hsound hmoved with
    | register cube replace context outcome => exact .registered cube replace _ context outcome
    | unregister name context outcome => exact .unregistered name _ context outcome
    | refuse cube context failure =>
        exact .refreshing cube _ context _ (by simp [Stage.Called, Stage.source?])
    | start cube context entry after next hentry hgoes =>
        refine .refreshing cube _ context next fun source hsource => ⟨entry, hentry, ?_⟩
        exact hgoes.catalog_of_waiting.2 source hsource
    | resume index signal cube begun context stage after next hbefore hcalled hgoes =>
        refine .refreshing cube begun context next fun source hsource => ?_
        rcases hgoes.catalog with ⟨-, hkept⟩ | ⟨_, _, -, hnone, -⟩
        · exact hcalled source (hkept source hsource)
        · simp [hnone] at hsource
    | read operation context after bound rest hafter hrest =>
        exact .reading operation _ bound rest hrest
    | readOn index signal operation begun context bound before rest after hbefore hafter hrest =>
        exact .reading operation begun bound rest hrest

theorem sound_run (hsound : ∀ task ∈ world.tasks, task.Sound Stage.Called) (events : List Event) :
    ∀ task ∈ (world.run events).tasks, task.Sound Stage.Called := by
  induction events generalizing world with
  | nil => exact hsound
  | cons event rest ih => exact ih (sound_next hsound event)

/-- An event keeps a faithful catalog faithful just if what it lets be published is up to date. -/
theorem faithful_next_iff (hsound : ∀ task ∈ world.tasks, task.Sound Stage.Called)
    (hfaithful : world.engine.catalog.Faithful) (event : Event) :
    (world.next event).engine.catalog.Faithful ↔ world.UpToDate event := by
  -- All events but the publication of a refresh keep the catalog faithful and are up to date.
  have hboth : (world.next event).engine.catalog.Faithful → world.UpToDate event →
      ((world.next event).engine.catalog.Faithful ↔ world.UpToDate event) :=
    fun hleft hright => ⟨fun _ => hright, fun _ => hleft⟩
  have hsame : (world.next event).engine.catalog = world.engine.catalog →
      ((world.next event).engine.catalog.Faithful ↔ world.UpToDate event) := by
    intro hcatalog
    refine hboth (by rw [hcatalog]; exact hfaithful) ?_
    intro cube task before after hpublication
    exact absurd hcatalog hpublication.catalog_ne
  cases hmoved : world.moved event with
  | none => exact hsame (by rw [next_eq_self hmoved])
  | some moved =>
      obtain ⟨engine, task⟩ := moved
      have hengine := engine_next hmoved
      cases moves_of_moved hsound hmoved with
      | register cube replace context outcome =>
          refine hboth ?_ (upToDate_of_call hmoved (by simp))
          rw [hengine]
          exact Engine.catalog_changed hfaithful fun catalog hcatalog => hfaithful.register hcatalog
      | unregister name context outcome =>
          refine hboth ?_ (upToDate_of_call hmoved (by simp))
          rw [hengine]
          exact Engine.catalog_changed hfaithful fun catalog hcatalog =>
            hfaithful.unregister hcatalog
      | refuse cube context failure => exact hsame (by rw [hengine])
      | start cube context entry after next hentry hgoes =>
          exact hsame (by rw [hengine, hgoes.catalog_of_waiting.1])
      | resume index signal cube begun context stage after next hbefore hcalled hgoes =>
          rcases hgoes.catalog with ⟨hkept, -⟩ | ⟨source, version, hsource, -, hpublish⟩
          · exact hsame (by rw [hengine, hkept])
          · obtain ⟨begunEntry, hbegun, rfl⟩ := hcalled source hsource
            obtain ⟨⟨current, hcurrent, hnewer, hmade⟩, -⟩ := Catalog.entry?_publish hpublish
            rw [hengine, hfaithful.publish_iff hcurrent hpublish]
            have hpublication : world.Publication (.signal index signal) cube
                ⟨.refresh cube, begun, context, next.procedure cube⟩ current _ :=
              ⟨⟨_, hmoved⟩, rfl, hcurrent, by rw [hengine, hmade], by simp; omega⟩
            exact (upToDate_iff_of_publication hpublication hbegun).symm
      | read operation context after bound rest hafter hrest =>
          exact hsame (by rw [hengine, hafter.catalog])
      | readOn index signal operation begun context bound before rest after hbefore hafter hrest =>
          exact hsame (by rw [hengine, hafter.catalog])

/-- The catalog is faithful, and every refresh goes by the source with which it was called. -/
structure Coherent (world : World) : Prop where
  faithful : world.engine.catalog.Faithful
  sound : ∀ task ∈ world.tasks, task.Sound Stage.Called

/-- In every run of registrations, unregistrations, refreshes and reads, made and interleaved in any
way, the catalog stays faithful just if every refresh that publishes has been called with the source
that is registered when it does. -/
theorem faithful_throughout_iff (settings : Settings) (events : List Event) :
    (fresh settings).Throughout (fun world event => (world.next event).engine.catalog.Faithful)
      events ↔
      (fresh settings).Throughout UpToDate events := by
  have hfresh : (fresh settings).Coherent :=
    ⟨by simp [Catalog.Faithful, fresh, Catalog.entry?, Catalog.empty, Keyed.get?], by simp [fresh]⟩
  constructor
  · refine Throughout.of_invariant (fun world event h hfaithful => ?_) (fun world event h => ?_)
      hfresh
    · exact ⟨hfaithful, sound_next h.sound event⟩
    · exact (faithful_next_iff h.sound h.faithful event).1
  · refine Throughout.of_invariant (fun world event h huptodate => ?_) (fun world event h => ?_)
      hfresh
    · exact ⟨(faithful_next_iff h.sound h.faithful event).2 huptodate, sound_next h.sound event⟩
    · exact (faithful_next_iff h.sound h.faithful event).2

/-- A cube is registered anew while a refresh of it waits for its only snapshot. -/
def replacedMeanwhile : List Event :=
  [.call (.register (.ofFacts "sales" "facts") false) .empty, .call (.refresh "sales") .empty,
   .call (.register (.ofFacts "sales" "new_facts") true) .empty, .signal 1 (.acknowledge (.ok ()))]

/-- The refresh publishes a snapshot of the table that was replaced. -/
theorem exists_not_faithful :
    ¬ ∀ (settings : Settings) (events : List Event),
      ((fresh settings).run events).engine.catalog.Faithful := by
  intro h
  have hentry : ((fresh .standard).run replacedMeanwhile).engine.catalog.entry? "sales" =
      some ⟨.ofFacts "sales" "new_facts", .ofFacts "sales" "facts__sales_v1", 1, some ⟨0⟩⟩ := by
    decide +kernel
  have hfaithful := h .standard replacedMeanwhile "sales" _ hentry
  exact absurd hfaithful (by decide +kernel)

end World

end StarCube
