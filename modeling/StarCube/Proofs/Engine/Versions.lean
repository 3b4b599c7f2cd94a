import StarCube.Proofs.Engine.Removal
import StarCube.Proofs.Engine.Turns

/-!
The versions of a cube. A refresh that has its turn creates snapshots of a version later than the
one that is registered, whatever is registered and unregistered meanwhile, and a cube that has been
refreshed is published over snapshots of its version. So of the tables that refreshes remove those
are needed whose names are in use again, and no others.
-/

namespace StarCube

/-- A cube is published over snapshots of its version once it has been refreshed. -/
def CatalogEntry.Settled (entry : CatalogEntry) (cube : String) : Prop :=
  if entry.refreshed then
    ∃ source : Cube, entry.published = source.renameTables (snapshotTable cube entry.version)
  else entry.published = entry.source

/-- The entry that a catalog has for a cube is settled, if there is one. -/
def Catalog.Settled (catalog : Catalog) (cube : String) : Prop :=
  ∀ entry, catalog.entry? cube = some entry → entry.Settled cube

namespace Catalog

variable {catalog after : Catalog} {cube name : String}

/-- The version of a cube, which is zero for one that is not registered. -/
def version (catalog : Catalog) (cube : String) : Int :=
  ((catalog.entry? cube).map CatalogEntry.version).getD 0

theorem version_of_entry {entry : CatalogEntry} (h : catalog.entry? cube = some entry) :
    catalog.version cube = entry.version := by
  simp [version, h]

theorem version_congr (h : after.entry? cube = catalog.entry? cube) :
    after.version cube = catalog.version cube := by
  simp only [version, h]

theorem Settled.congr (h : catalog.Settled cube) (hsame : after.entry? cube = catalog.entry? cube) :
    after.Settled cube := by
  intro entry hentry
  exact h entry (hsame.symm.trans hentry)

/-- Registration keeps versions. -/
theorem version_register {definition : Cube} {replace : Bool}
    (h : catalog.register definition replace = .ok after) (cube : String) :
    after.version cube = catalog.version cube := by
  obtain ⟨hself, hothers⟩ := entry?_register h
  by_cases hname : cube = definition.name
  · subst hname
    exact version_of_entry hself
  · exact version_congr (hothers cube hname)

theorem Settled.register (h : catalog.Settled cube) {definition : Cube} {replace : Bool}
    (hafter : catalog.register definition replace = .ok after) : after.Settled cube := by
  obtain ⟨hself, hothers⟩ := entry?_register hafter
  by_cases hname : cube = definition.name
  · subst hname
    intro entry hentry
    obtain rfl := Option.some.inj (hself.symm.trans hentry)
    simp [CatalogEntry.Settled, CatalogEntry.refreshed]
  · exact h.congr (hothers cube hname)

/-- A cube that is unregistered loses its version. -/
theorem version_unregister (h : catalog.unregister name = .ok after) (cube : String) :
    after.version cube = 0 ∨ after.version cube = catalog.version cube := by
  obtain ⟨hnone, hothers⟩ := entry?_unregister h
  by_cases hname : cube = name
  · subst hname
    exact .inl (by simp [version, hnone])
  · exact .inr (version_congr (hothers cube hname))

theorem Settled.unregister (h : catalog.Settled cube)
    (hafter : catalog.unregister name = .ok after) : after.Settled cube := by
  obtain ⟨hnone, hothers⟩ := entry?_unregister hafter
  by_cases hname : cube = name
  · subst hname
    intro entry hentry
    simp [hnone] at hentry
  · exact h.congr (hothers cube hname)

/-- A version that is published is later than the one before. -/
theorem version_publish {published : Cube} {version : Int}
    (h : catalog.publish cube published version = .ok after) :
    catalog.version cube < version ∧ after.version cube = version := by
  obtain ⟨⟨current, hcurrent, hnewer, hmade⟩, -⟩ := entry?_publish h
  rw [version_of_entry hcurrent, version_of_entry hmade]
  exact ⟨hnewer, rfl⟩

theorem settled_publish {source : Cube} {version : Int}
    (h : catalog.publish cube (source.renameTables (snapshotTable cube version)) version =
      .ok after) :
    after.Settled cube := by
  obtain ⟨⟨current, hcurrent, hnewer, hmade⟩, -⟩ := entry?_publish h
  intro entry hentry
  obtain rfl := Option.some.inj (hmade.symm.trans hentry)
  exact ⟨source, rfl⟩

end Catalog

namespace Stage

/-- A refresh that creates snapshots does so for a version later than the given one. -/
def Builds (cube : String) (version : Int) : Stage → Prop
  | .creating _ built created _ _ =>
      version < built ∧ ∀ table ∈ created, ∃ before, snapshotTable cube built before = table
  | _ => True

theorem Builds.of_le {cube : String} {version earlier : Int} {stage : Stage}
    (h : stage.Builds cube version) (hle : earlier ≤ version) : stage.Builds cube earlier := by
  cases stage with
  | creating source built created table rest => exact ⟨Int.lt_of_le_of_lt hle h.1, h.2⟩
  | _ => trivial

theorem builds_of_not_active {cube : String} {version : Int} {stage : Stage}
    (h : stage.active = false) : stage.Builds cube version := by
  cases stage with
  | creating source built created table rest => cases h
  | _ => trivial

variable {cube other : String} {engine after : Engine} {stage next : Stage}

/-- A refresh leaves the catalog as it is, or it has had its turn and publishes what it built. -/
theorem Goes.builds (h : Goes cube engine stage after next)
    (hbuilds : stage.Builds cube (engine.catalog.version cube)) :
    next.Builds cube (after.catalog.version cube) ∧
      (after.catalog = engine.catalog ∨ stage.active = true ∧
        engine.catalog.version cube < after.catalog.version cube ∧ after.catalog.Settled cube) := by
  have hpublishes : ∀ source version published, engine.Published cube source version published →
      engine.catalog.version cube < published.catalog.version cube ∧
        published.catalog.Settled cube := by
    rintro source version published ⟨catalog, hcatalog, rfl⟩
    obtain ⟨hlater, hversion⟩ := Catalog.version_publish hcatalog
    exact ⟨hversion ▸ hlater, Catalog.settled_publish hcatalog⟩
  cases h with
  | waits source busy => exact ⟨trivial, .inl rfl⟩
  | refused source failure => exact ⟨trivial, .inl rfl⟩
  | enters source entry free registered =>
      refine ⟨⟨?_, by simp⟩, .inl rfl⟩
      show engine.catalog.version cube < entry.version + 1
      rw [Catalog.version_of_entry registered]
      omega
  | creates source version created table next rest =>
      obtain ⟨hversion, hcreated⟩ := hbuilds
      refine ⟨⟨hversion, ?_⟩, .inl rfl⟩
      intro made hmade
      rcases List.mem_append.1 hmade with hold | hnew
      · exact hcreated made hold
      · exact ⟨table, (List.mem_singleton.1 hnew).symm⟩
  | gives source version created table rest failure => exact ⟨trivial, .inl rfl⟩
  | fails source version created table rest made failure hmade => exact ⟨trivial, .inl rfl⟩
  | publishes source version created table published hpublished =>
      exact ⟨trivial, .inr ⟨rfl, hpublishes source version published hpublished⟩⟩
  | finishes source version created table published hpublished =>
      exact ⟨trivial, .inr ⟨rfl, hpublishes source version published hpublished⟩⟩
  | cleaned version created failure => exact ⟨trivial, .inl rfl⟩
  | expired version idle => exact ⟨trivial, .inl rfl⟩

/-- A refresh leaves the entries of other cubes as they are. -/
theorem Goes.entry?_of_ne (h : Goes other engine stage after next) (hne : cube ≠ other) :
    after.catalog.entry? cube = engine.catalog.entry? cube := by
  have hpublishes : ∀ source version published, engine.Published other source version published →
      published.catalog.entry? cube = engine.catalog.entry? cube := by
    rintro source version published ⟨catalog, hcatalog, rfl⟩
    exact (Catalog.entry?_publish hcatalog).2 cube hne
  cases h with
  | publishes source version created table published hpublished =>
      exact hpublishes source version published hpublished
  | finishes source version created table published hpublished =>
      exact hpublishes source version published hpublished
  | _ => rfl

end Stage

/-- A stage of a refresh, which builds a version later than the given one if it is one of the
cube. -/
def Stage.Counted (cube : String) (version : Int) (_ : Engine) (other : String) (stage : Stage) :
    Prop :=
  other = cube → stage.Builds cube version

/-- A snapshot of a later version is published only for a cube that was registered over its name. -/
theorem Catalog.Settled.mem_published_iff {catalog : Catalog} {cube before : String} {later : Int}
    (h : catalog.Settled cube) (hlater : catalog.version cube < later) {entry : CatalogEntry}
    (hentry : catalog.entry? cube = some entry) :
    snapshotTable cube later before ∈ entry.published.tables ↔
      entry.refreshed = false ∧ snapshotTable cube later before ∈ entry.source.tables := by
  rw [version_of_entry hentry] at hlater
  have hsettled := h entry hentry
  unfold CatalogEntry.Settled at hsettled
  cases hrefreshed : entry.refreshed with
  | false =>
      rw [hrefreshed] at hsettled
      simp [show entry.published = entry.source by simpa using hsettled]
  | true =>
      obtain ⟨source, hsource⟩ : ∃ source : Cube,
          entry.published = source.renameTables (snapshotTable cube entry.version) := by
        simpa [hrefreshed] using hsettled
      constructor
      · intro hover
        rw [hsource] at hover
        obtain ⟨other, -, hother⟩ := Cube.mem_tables_renameTables.1 hover
        have hversion := version_eq_of_snapshotTable_eq hother
        omega
      · rintro ⟨hfalse, -⟩
        cases hfalse

namespace World

/-- A world in which the versions of a cube are counted. -/
structure Counted (world : World) (cube : String) : Prop where
  kept : 0 < world.engine.settings.refreshKeepVersions
  nonneg : 0 ≤ world.engine.catalog.version cube
  settled : world.engine.catalog.Settled cube
  exclusive : world.Exclusive cube
  sound : ∀ task ∈ world.tasks, task.Sound (Stage.Counted cube (world.engine.catalog.version cube))

namespace Counted

variable {world : World} {event : Event} {engine : Engine} {task : Task} {cube table : String}

/-- The version does not rise, or no other refresh has its turn. -/
theorem of_moved (h : world.Counted cube) (hmoved : world.moved event = some (engine, task))
    (hnonneg : 0 ≤ engine.catalog.version cube) (hsettled : engine.catalog.Settled cube)
    (htask : task.Sound (Stage.Counted cube (engine.catalog.version cube)))
    (hversion : engine.catalog.version cube ≤ world.engine.catalog.version cube ∨
      ∀ i other, i ≠ world.place event → world.tasks[i]? = some other → ¬ other.HasTurn cube) :
    (world.next event).Counted cube where
  kept := by
    rw [settings_next h.sound event]
    exact h.kept
  nonneg := by
    rw [engine_next hmoved]
    exact hnonneg
  settled := by
    rw [engine_next hmoved]
    exact hsettled
  exclusive := h.exclusive.next h.sound event
  sound := by
    intro other hother
    rw [engine_next hmoved]
    obtain ⟨i, hi⟩ := List.getElem?_of_mem hother
    rw [tasks_next hmoved] at hi
    by_cases hplace : i = world.place event
    · rw [if_pos hplace] at hi
      obtain rfl := Option.some.inj hi
      exact htask
    · rw [if_neg hplace] at hi
      cases h.sound other (List.mem_of_getElem? hi) with
      | registered definition replace begun context outcome =>
          exact .registered definition replace begun context outcome
      | unregistered name begun context outcome => exact .unregistered name begun context outcome
      | refreshing name begun context stage hcounted =>
          refine .refreshing name begun context stage fun hname => ?_
          rcases hversion with hle | hidle
          · exact (hcounted hname).of_le hle
          · apply Stage.builds_of_not_active
            rw [← Bool.not_eq_true]
            exact fun hactive => hidle i _ hplace hi (Task.hasTurn_iff.2 ⟨hname, hactive⟩)
      | reading operation begun context rest hreads =>
          exact .reading operation begun context rest hreads

/-- The entry of the cube stays as it is. -/
theorem of_entry?_eq (h : world.Counted cube) (hmoved : world.moved event = some (engine, task))
    (hentry : engine.catalog.entry? cube = world.engine.catalog.entry? cube)
    (htask : task.Sound (Stage.Counted cube (world.engine.catalog.version cube))) :
    (world.next event).Counted cube := by
  have hversion := Catalog.version_congr hentry
  refine h.of_moved hmoved ?_ (h.settled.congr hentry) ?_ (.inl (Int.le_of_eq hversion))
  · rw [hversion]
    exact h.nonneg
  · rw [hversion]
    exact htask

/-- A refresh goes on. -/
theorem of_goes (h : world.Counted cube) {other : String} {begun : Engine} {context : LogContext}
    {stage next : Stage}
    (hmoved : world.moved event =
      some (engine, ⟨.refresh other, begun, context, next.procedure other⟩))
    (hgoes : Stage.Goes other world.engine stage engine next)
    (hcounted : Stage.Counted cube (world.engine.catalog.version cube) begun other stage)
    (hbefore : stage.active = true →
      world.tasks[world.place event]? =
        some ⟨.refresh other, begun, context, stage.procedure other⟩) :
    (world.next event).Counted cube := by
  by_cases hcube : other = cube
  · subst hcube
    obtain ⟨hbuilds, hsame | ⟨hactive, hlater, hsettled⟩⟩ := hgoes.builds (hcounted rfl)
    · rw [hsame] at hbuilds
      exact h.of_entry?_eq hmoved (by rw [hsame]) (.refreshing _ _ _ _ fun _ => hbuilds)
    · refine h.of_moved hmoved (Int.le_trans h.nonneg (Int.le_of_lt hlater)) hsettled
        (.refreshing _ _ _ _ fun _ => hbuilds) (.inr ?_)
      intro i task hi htask hturn
      exact hi (h.exclusive.unique i _ task _ htask (hbefore hactive) hturn
        (Task.hasTurn_iff.2 ⟨rfl, hactive⟩))
  · exact h.of_entry?_eq hmoved (hgoes.entry?_of_ne (Ne.symm hcube))
      (.refreshing _ _ _ _ fun hname => absurd hname hcube)

/-- Versions are counted on whatever happens. -/
theorem next (h : world.Counted cube) (event : Event) : (world.next event).Counted cube := by
  cases hmoved : world.moved event with
  | none => rwa [next_eq_self hmoved]
  | some moved =>
      obtain ⟨engine, task⟩ := moved
      cases moves_of_moved h.sound hmoved with
      | register definition replace context outcome =>
          rcases world.engine.changed_eq_or fun catalog => catalog.register definition replace with
            hkept | ⟨catalog, hcatalog, hchanged⟩
          · exact h.of_entry?_eq hmoved (by rw [hkept]) (.registered _ _ _ _ _)
          · have hversion := Catalog.version_register hcatalog cube
            refine h.of_moved hmoved ?_ ?_ (.registered _ _ _ _ _) (.inl ?_) <;> rw [hchanged]
            · exact hversion ▸ h.nonneg
            · exact h.settled.register hcatalog
            · exact Int.le_of_eq hversion
      | unregister name context outcome =>
          rcases world.engine.changed_eq_or fun catalog => catalog.unregister name with
            hkept | ⟨catalog, hcatalog, hchanged⟩
          · exact h.of_entry?_eq hmoved (by rw [hkept]) (.unregistered _ _ _ _)
          · have hnonneg := h.nonneg
            have hversion := Catalog.version_unregister hcatalog cube
            refine h.of_moved hmoved ?_ ?_ (.unregistered _ _ _ _) (.inl ?_) <;> rw [hchanged]
            · show 0 ≤ catalog.version cube
              omega
            · exact h.settled.unregister hcatalog
            · show catalog.version cube ≤ _
              omega
      | refuse other context failure =>
          exact h.of_entry?_eq hmoved rfl (.refreshing _ _ _ _ fun _ => trivial)
      | start other context entry after next hentry hgoes =>
          exact h.of_goes hmoved hgoes (fun _ => trivial) (fun hactive => by cases hactive)
      | resume index signal other begun context stage after next hbefore hcounted hgoes =>
          exact h.of_goes hmoved hgoes hcounted (fun _ => hbefore)
      | read operation context after bound rest hafter hrest =>
          exact h.of_entry?_eq hmoved (by rw [hafter.catalog]) (.reading _ _ _ _ hrest)
      | readOn index signal operation begun context bound before rest after hbefore hafter hrest =>
          exact h.of_entry?_eq hmoved (by rw [hafter.catalog]) (.reading _ _ _ _ hrest)

/-- A snapshot of a later version is needed if a lease is held on its name, or the cube was
registered over it. -/
theorem needs_snapshot_iff (h : world.Counted cube) {before : String} {later : Int}
    (hlater : world.engine.catalog.version cube < later) :
    world.engine.Needs cube (snapshotTable cube later before) ↔
      world.engine.inUse (snapshotTable cube later before) = true ∨
        ∃ entry, world.engine.catalog.entry? cube = some entry ∧ entry.refreshed = false ∧
          snapshotTable cube later before ∈ entry.source.tables := by
  refine or_congr Iff.rfl (exists_congr fun entry => and_congr_right fun hentry => ?_)
  exact h.settled.mem_published_iff hlater hentry

/-- A table that a refresh removes is needed just if its name is in use again. -/
theorem needs_iff (h : world.Counted cube) (hremoves : world.Removes event cube table) :
    (world.next event).engine.Needs cube table ↔ world.Reused event cube table := by
  obtain ⟨engine, begun, context, stage, next, hmoved, -, hcounted, hgoes, htable⟩ :=
    hremoves.goes h.sound
  have hbuilds := hcounted rfl
  have hengine := engine_next hmoved
  rcases hgoes.removes htable with ⟨source, version, created, current, rest, rfl, hsame, hmade⟩ |
    ⟨source, version, created, current, published, rfl, hpublished, hafter, hidle⟩
  · -- What a refresh has created are snapshots of a later version than the registered one.
    obtain ⟨hlater, hcreated⟩ := hbuilds
    have hnone : ∀ after, ¬ world.Publishes event cube after := by
      rintro after ⟨task, before, hpublication⟩
      exact hpublication.catalog_ne (by rw [hengine, hsame])
    obtain ⟨before, rfl⟩ : ∃ before, snapshotTable cube version before = table := by
      rcases hmade with hold | rfl
      · exact hcreated table hold
      · exact ⟨current, rfl⟩
    rw [hengine, hsame, h.needs_snapshot_iff hlater]
    constructor
    · exact fun hneeds => .inr ⟨hnone, hneeds⟩
    · rintro (⟨after, hpublishes, -⟩ | ⟨-, hneeds⟩)
      · exact absurd hpublishes (hnone after)
      · exact hneeds
  · have hneeds : engine.Needs cube table ↔ table ∈ world.engine.retiredTables cube ∧
        table ∈ (source.renameTables (snapshotTable cube version)).tables := by
      rw [hafter, Engine.needs_retire, hpublished.needs_iff h.kept hidle]
    obtain ⟨catalog, hcatalog, rfl⟩ := hpublished
    obtain ⟨⟨before, hbefore, hnewer, hmade⟩, -⟩ := Catalog.entry?_publish hcatalog
    have hcatalog : (world.next event).engine.catalog = catalog := by
      rw [hengine, hafter]
      rfl
    rw [← hcatalog] at hmade
    have hpublishes : world.Publishes event cube _ :=
      ⟨_, before, ⟨⟨_, hmoved⟩, rfl, hbefore, hmade, by simp; omega⟩⟩
    rw [hengine, hneeds]
    constructor
    · rintro ⟨hretired, hover⟩
      exact .inl ⟨_, hpublishes, hretired, hover⟩
    · rintro (⟨after, ⟨task, other, hother⟩, hretired, hover⟩ | ⟨hnone, -⟩)
      · obtain rfl := Option.some.inj (hmade.symm.trans hother.made)
        exact ⟨hretired, hover⟩
      · exact absurd hpublishes (hnone _)

theorem harmless_iff (h : world.Counted cube) (event : Event) :
    world.Harmless cube event ↔ world.Distinct cube event := by
  refine forall_congr' fun table => forall_congr' fun hremoves => ?_
  rw [h.needs_iff hremoves]

end Counted

end World

end StarCube
