import StarCube.Proofs.Engine.Publication

/-!
Which tables a refresh removes, and when one of them is still needed. A refresh that has published
never removes a table on which a lease is held, and none of those it has published unless a table of
that name has been retired; a refresh that has failed removes what it has created, on which it never
looks for leases.
-/

namespace StarCube

theorem dropStatement_injective : Function.Injective dropStatement := by
  intro table other h
  unfold dropStatement at h
  exact (String.append_right_inj "DROP TABLE IF EXISTS ").1 h

theorem append_ne_append {first second : String} {c d : Char} (hfirst : first.toList.head? = some c)
    (hsecond : second.toList.head? = some d) (hne : c ≠ d) (text other : String) :
    first ++ text ≠ second ++ other := by
  intro h
  have hheads := congrArg (fun text => text.toList.head?) h
  simp only [String.toList_append, List.head?_append, hfirst, hsecond, Option.some_or] at hheads
  exact hne (Option.some.inj hheads)

theorem dropStatement_ne_createStatement (table snapshot source : String) :
    dropStatement table ≠ createStatement snapshot source := by
  have hdrop : "DROP TABLE IF EXISTS ".toList.head? = some 'D' := by decide
  have hcreate : "CREATE TABLE ".toList.head? = some 'C' := by decide
  unfold dropStatement createStatement
  rw [String.append_assoc, String.append_assoc]
  exact append_ne_append hdrop hcreate (by decide) _ _

theorem mem_sortedDistinct_iff {texts : List String} {text : String} :
    text ∈ sortedDistinct texts ↔ text ∈ texts := by
  simp [sortedDistinct, List.mem_eraseDups]

namespace Engine

/-- A table is needed for a cube: a lease is held on it, or the published definition is over it. -/
def Needs (engine : Engine) (cube table : String) : Prop :=
  engine.inUse table = true ∨
    ∃ entry, engine.catalog.entry? cube = some entry ∧ table ∈ entry.published.tables

theorem inUse_iff {engine : Engine} {table : String} :
    engine.inUse table = true ↔ ∃ lease ∈ engine.leases, table ∈ lease := by
  simp [inUse]

theorem mem_due_iff {engine : Engine} {source : Cube} {cube table : String} {version : Int} :
    table ∈ engine.due source cube version ↔
      table ∈ engine.retiredTables cube ∨
        1 ≤ version - engine.settings.refreshKeepVersions ∧
          ∃ before ∈ source.tables,
            snapshotTable cube (version - engine.settings.refreshKeepVersions) before = table := by
  unfold due
  rw [mem_sortedDistinct_iff, List.mem_append]
  by_cases hexpired : 1 ≤ version - engine.settings.refreshKeepVersions <;> simp [hexpired]

theorem mem_idle_iff {engine : Engine} {tables : List String} {table : String} :
    table ∈ engine.idle tables ↔ table ∈ tables ∧ ¬ engine.inUse table = true := by
  simp [idle]

theorem needs_retire {engine : Engine} {cube table : String} (tables : List String) :
    (engine.retire cube tables).Needs cube table ↔ engine.Needs cube table :=
  Iff.rfl

/-- Of the tables that are idle once a version has been published, those are needed that were
retired and have the name of one of its snapshots. -/
theorem Published.needs_iff {engine published : Engine} {source : Cube} {cube table : String}
    {version : Int} (h : engine.Published cube source version published)
    (hkept : 0 < engine.settings.refreshKeepVersions)
    (hidle : table ∈ published.idle (published.due source cube version)) :
    published.Needs cube table ↔ table ∈ engine.retiredTables cube ∧
      table ∈ (source.renameTables (snapshotTable cube version)).tables := by
  obtain ⟨catalog, hcatalog, rfl⟩ := h
  obtain ⟨⟨before, -, -, hmade⟩, -⟩ := Catalog.entry?_publish hcatalog
  obtain ⟨hdue, hfree⟩ := mem_idle_iff.1 hidle
  constructor
  · rintro (hused | ⟨entry, hentry, hover⟩)
    · exact absurd hused hfree
    · obtain rfl := Option.some.inj (hmade.symm.trans hentry)
      refine ⟨?_, hover⟩
      rcases mem_due_iff.1 hdue with hretired | ⟨-, old, -, hold⟩
      · exact hretired
      · -- The version that is no longer kept is not the one that has just been published.
        obtain ⟨new, -, hnew⟩ := Cube.mem_tables_renameTables.1 hover
        have hversion := version_eq_of_snapshotTable_eq (hold.trans hnew.symm)
        simp only at hversion
        omega
  · rintro ⟨-, hover⟩
    exact .inr ⟨_, hmade, hover⟩

end Engine

/-- The cube that a call refreshes. -/
def Call.refreshed? : Call → Option String
  | .refresh cube => some cube
  | _ => none

theorem Call.refreshed?_eq_some_iff {call : Call} {cube : String} :
    call.refreshed? = some cube ↔ call = .refresh cube := by
  cases call <;> simp [refreshed?]

namespace World

/-- A refresh of a cube submits the removal of a table at an event. -/
def Removes (world : World) (event : Event) (cube table : String) : Prop :=
  ∃ engine task, world.moved event = some (engine, task) ∧ task.call = .refresh cube ∧
    dropStatement table ∈ task.rest.submitted

theorem removes_of_submitted {world : World} {event : Event} {cube table : String}
    {statements : List String}
    (h : (world.moved event).map (fun moved => (moved.2.call.refreshed?, moved.2.rest.submitted)) =
      some (some cube, statements)) (htable : dropStatement table ∈ statements) :
    world.Removes event cube table := by
  obtain ⟨⟨engine, task⟩, hmoved, hpair⟩ := Option.map_eq_some_iff.1 h
  obtain ⟨hcall, rfl⟩ := Prod.mk.inj hpair
  exact ⟨engine, task, hmoved, Call.refreshed?_eq_some_iff.1 hcall, htable⟩

/-- No table of which a refresh of the cube submits the removal is needed at that moment. -/
def Harmless (cube : String) (world : World) (event : Event) : Prop :=
  ∀ table, world.Removes event cube table → ¬ (world.next event).engine.Needs cube table

/-- At an event a cube has a new version. -/
def Publishes (world : World) (event : Event) (cube : String) (after : CatalogEntry) : Prop :=
  ∃ task before, world.Publication event cube task before after

/-- The name of a table that is removed is in use again. Either a refresh has just published a
snapshot of the name of a retired table; or it fails, and a lease is held on the name of a snapshot
it has created, or the cube is registered over that name and has not been refreshed since. -/
def Reused (world : World) (event : Event) (cube table : String) : Prop :=
  (∃ after, world.Publishes event cube after ∧ table ∈ world.engine.retiredTables cube ∧
    table ∈ after.published.tables) ∨
  (∀ after, ¬ world.Publishes event cube after) ∧
    (world.engine.inUse table = true ∨
      ∃ entry, world.engine.catalog.entry? cube = some entry ∧ entry.refreshed = false ∧
        table ∈ entry.source.tables)

/-- No table that a refresh removes at an event has a name that is in use again. -/
def Distinct (cube : String) (world : World) (event : Event) : Prop :=
  ∀ table, world.Removes event cube table → ¬ world.Reused event cube table

end World

namespace Stage

variable {cube table : String} {engine after : Engine} {stage next : Stage}

/-- The two ways in which a refresh comes to remove tables. -/
theorem Goes.removes (h : Goes cube engine stage after next)
    (htable : dropStatement table ∈ next.submitted cube) :
    (∃ source version created current rest, stage = .creating source version created current rest ∧
      after = engine ∧ (table ∈ created ∨ table = snapshotTable cube version current)) ∨
    ∃ source version created current published, stage =
      .creating source version created current [] ∧
      engine.Published cube source version published ∧
      after = published.retire cube (published.held (published.due source cube version)) ∧
      table ∈ published.idle (published.due source cube version) := by
  cases h with
  | waits source busy => simp [submitted] at htable
  | refused source failure => simp [submitted] at htable
  | enters source entry free registered =>
      exact absurd (List.mem_singleton.1 htable) (dropStatement_ne_createStatement _ _ _)
  | creates source version created current next rest =>
      exact absurd (List.mem_singleton.1 htable) (dropStatement_ne_createStatement _ _ _)
  | gives source version created current rest failure => simp [submitted] at htable
  | fails source version created current rest made failure hmade =>
      have hmem := (List.mem_map_of_injective dropStatement_injective).1 htable
      refine .inl ⟨source, version, created, current, rest, rfl, rfl, ?_⟩
      rcases hmade with rfl | rfl
      · exact .inl hmem
      · simpa using hmem
  | publishes source version created current published hpublished =>
      have hmem := (List.mem_map_of_injective dropStatement_injective).1 htable
      exact .inr ⟨source, version, created, current, published, rfl, hpublished, rfl, hmem⟩
  | finishes source version created current published hpublished => simp [submitted] at htable
  | cleaned version created failure => simp [submitted] at htable
  | expired version idle => simp [submitted] at htable

end Stage

namespace World

variable {holds : Engine → String → Stage → Prop} {world : World} {event : Event}
  {cube table : String}

/-- A refresh that removes tables has waited before. -/
theorem Removes.goes (hsound : ∀ task ∈ world.tasks, task.Sound holds)
    (h : world.Removes event cube table) :
    ∃ engine begun context stage next,
      world.moved event = some (engine, ⟨.refresh cube, begun, context, next.procedure cube⟩) ∧
      world.tasks[world.place event]? = some ⟨.refresh cube, begun, context, stage.procedure cube⟩ ∧
      holds begun cube stage ∧ Stage.Goes cube world.engine stage engine next ∧
      dropStatement table ∈ next.submitted cube := by
  obtain ⟨engine, task, hmoved, hcall, htable⟩ := h
  cases moves_of_moved hsound hmoved with
  | start other context entry after next hentry hgoes =>
      obtain rfl := Call.refresh.inj hcall
      have hnext : dropStatement table ∈ next.submitted other := by
        rw [← Stage.submitted_procedure]
        exact htable
      rcases hgoes.removes hnext with ⟨_, _, _, _, _, hstage, -⟩ | ⟨_, _, _, _, _, hstage, -⟩ <;>
        cases hstage
  | resume index signal other begun context stage after next hbefore hholds hgoes =>
      obtain rfl := Call.refresh.inj hcall
      refine ⟨_, begun, context, stage, next, hmoved, hbefore, hholds, hgoes, ?_⟩
      rw [← Stage.submitted_procedure]
      exact htable
  | refuse other context failure => simp [Stage.procedure, Procedure.submitted] at htable
  | register definition replace context outcome => cases hcall
  | unregister name context outcome => cases hcall
  | read operation context after bound rest hafter hrest => cases hcall
  | readOn index signal operation begun context bound before rest after hbefore hafter hrest =>
      cases hcall

end World

end StarCube
