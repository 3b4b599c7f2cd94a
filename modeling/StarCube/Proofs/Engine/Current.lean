import StarCube.Proofs.Engine.Versions

/-!
Runs over one cube. As long as its versions are counted on, a table that the engine knows is not
named like a snapshot of a version to come, so that no refresh creates or removes a table that is
needed. The count starts again when the cube is unregistered; no snapshot of it may be leased or
retired then.
-/

namespace StarCube

/-- A table is not named like a snapshot of a version of the cube later than the given one. -/
def Dated (cube : String) (version : Int) (table : String) : Prop :=
  ∀ later before, table = snapshotTable cube later before → later ≤ version

theorem Dated.mono {cube table : String} {version later : Int} (h : Dated cube version table)
    (hle : version ≤ later) : Dated cube later table :=
  fun other before htable => Int.le_trans (h other before htable) hle

theorem dated_snapshotTable (cube before : String) {version later : Int} (hle : version ≤ later) :
    Dated cube later (snapshotTable cube version before) := by
  intro other table htable
  rw [← version_eq_of_snapshotTable_eq htable]
  exact hle

theorem dated_of_not_mem {cube table : String} {version : Int} (h : '_' ∉ table.toList) :
    Dated cube version table := by
  rintro later before rfl
  simp [snapshotTable] at h

namespace Engine

theorem retiredTables_retire (engine : Engine) (cube : String) (tables : List String) :
    (engine.retire cube tables).retiredTables cube = tables := by
  unfold retire retiredTables
  cases tables with
  | nil => simp [Keyed.get?_remove_self]
  | cons table rest => simp [Keyed.get?_put_self]

/-- The tables that an engine over a single cube knows are dated by the version of the cube. -/
structure Current (engine : Engine) (cube : String) : Prop where
  alone : ∀ name entry, engine.catalog.entry? name = some entry → name = cube
  published : ∀ entry, engine.catalog.entry? cube = some entry →
    ∀ table ∈ entry.published.tables, Dated cube (engine.catalog.version cube) table
  leased : ∀ lease ∈ engine.leases, ∀ table ∈ lease, Dated cube (engine.catalog.version cube) table
  retired : ∀ table ∈ engine.retiredTables cube, Dated cube (engine.catalog.version cube) table

namespace Current

variable {engine after : Engine} {cube : String}

theorem dated_of_needs (h : engine.Current cube) {table : String}
    (hneeds : engine.Needs cube table) : Dated cube (engine.catalog.version cube) table := by
  rcases hneeds with hused | ⟨entry, hentry, hover⟩
  · obtain ⟨lease, hlease, htable⟩ := inUse_iff.1 hused
    exact h.leased lease hlease table htable
  · exact h.published entry hentry table hover

/-- Reading keeps an engine current. -/
theorem readFrom (h : engine.Current cube) (hafter : engine.ReadFrom after) :
    after.Current cube := by
  refine ⟨?_, ?_, ?_, ?_⟩
  · rw [hafter.catalog]
    exact h.alone
  · rw [hafter.catalog]
    exact h.published
  · intro lease hlease table htable
    rw [hafter.catalog]
    rcases hafter.leases lease hlease with hold | ⟨name, definition, hdefinition, rfl⟩
    · exact h.leased lease hold table htable
    · obtain ⟨entry, hentry, rfl⟩ := Catalog.require_eq_ok_iff.1 hdefinition
      obtain rfl := h.alone name entry hentry
      exact h.published entry hentry table htable
  · unfold retiredTables
    rw [hafter.catalog, hafter.retired]
    exact h.retired

/-- A change of the locks alone keeps an engine current. -/
theorem of_locks (h : engine.Current cube) (locks : List String) :
    { engine with locks := locks }.Current cube :=
  ⟨h.alone, h.published, h.leased, h.retired⟩

/-- Registration of the cube over dated tables. -/
theorem register (h : engine.Current cube) {definition : Cube} (hname : definition.name = cube)
    (htables : ∀ table ∈ definition.tables, Dated cube (engine.catalog.version cube) table)
    (replace : Bool) :
    (engine.changed fun catalog => catalog.register definition replace).Current cube := by
  subst hname
  rcases engine.changed_eq_or fun catalog => catalog.register definition replace with
    hsame | ⟨catalog, hcatalog, hafter⟩
  · rw [hsame]
    exact h
  rw [hafter]
  obtain ⟨hself, hothers⟩ := Catalog.entry?_register hcatalog
  have hversion := Catalog.version_register hcatalog definition.name
  refine ⟨?_, ?_, ?_, ?_⟩
  · intro name other hother
    by_contra hne
    exact hne (h.alone name other ((hothers name hne).symm.trans hother))
  · intro found hfound
    obtain rfl := Option.some.inj (hself.symm.trans hfound)
    rw [hversion]
    exact htables
  · rw [hversion]
    exact h.leased
  · rw [hversion]
    exact h.retired

/-- Once the cube is unregistered the engine is current if no snapshot of it is leased or
retired. -/
theorem unregister (h : engine.Current cube)
    (hleased : ∀ lease ∈ engine.leases, ∀ table ∈ lease, Dated cube 0 table)
    (hretired : ∀ table ∈ engine.retiredTables cube, Dated cube 0 table) (name : String) :
    (engine.changed fun catalog => catalog.unregister name).Current cube := by
  rcases engine.changed_eq_or fun catalog => catalog.unregister name with
    hsame | ⟨catalog, hcatalog, hafter⟩
  · rw [hsame]
    exact h
  rw [hafter]
  obtain ⟨entry, hentry⟩ := Catalog.exists_entry?_of_unregister hcatalog
  obtain rfl := h.alone name entry hentry
  obtain ⟨hnone, hothers⟩ := Catalog.entry?_unregister hcatalog
  have hversion : catalog.version name = 0 := by simp [Catalog.version, hnone]
  refine ⟨?_, ?_, ?_, ?_⟩
  · intro other found hfound
    by_contra hne
    exact hne (h.alone other found ((hothers other hne).symm.trans hfound))
  · intro found hfound
    simp [hnone] at hfound
  · rw [hversion]
    exact hleased
  · rw [hversion]
    exact hretired

/-- Publication of the snapshots of a later version keeps an engine current. -/
theorem publish (h : engine.Current cube) {source : Cube} {version : Int} {published : Engine}
    (hpublished : engine.Published cube source version published)
    (hkept : 0 < engine.settings.refreshKeepVersions) :
    (published.retire cube (published.held (published.due source cube version))).Current cube := by
  obtain ⟨catalog, hcatalog, rfl⟩ := hpublished
  obtain ⟨⟨before, -, -, hmade⟩, hothers⟩ := Catalog.entry?_publish hcatalog
  obtain ⟨hlater, hversion⟩ := Catalog.version_publish hcatalog
  refine ⟨?_, ?_, ?_, ?_⟩
  · intro name other hother
    by_contra hne
    exact hne (h.alone name other ((hothers name hne).symm.trans hother))
  · intro found hfound table htable
    obtain rfl := Option.some.inj (hmade.symm.trans hfound)
    obtain ⟨old, -, rfl⟩ := Cube.mem_tables_renameTables.1 htable
    exact dated_snapshotTable cube old (Int.le_of_eq hversion.symm)
  · intro lease hlease table htable
    apply (h.leased lease hlease table htable).mono
    show engine.catalog.version cube ≤ catalog.version cube
    omega
  · intro table htable
    show Dated cube (catalog.version cube) table
    rw [retiredTables_retire] at htable
    rcases mem_due_iff.1 (List.mem_of_mem_filter htable) with hretired | ⟨-, old, -, rfl⟩
    · apply (h.retired table hretired).mono
      omega
    · apply dated_snapshotTable
      show version - engine.settings.refreshKeepVersions ≤ catalog.version cube
      omega

end Current

end Engine

namespace Stage

variable {cube other : String} {engine after : Engine} {stage next : Stage}

/-- A refresh keeps the engine current. -/
theorem Goes.current (h : Goes other engine stage after next) (hcurrent : engine.Current cube)
    (hkept : 0 < engine.settings.refreshKeepVersions) : after.Current cube := by
  have hcube : ∀ source version published, engine.Published other source version published →
      other = cube := by
    rintro source version published ⟨catalog, hcatalog, -⟩
    obtain ⟨⟨entry, hentry, -⟩, -⟩ := Catalog.entry?_publish hcatalog
    exact hcurrent.alone other entry hentry
  cases h with
  | publishes source version created table published hpublished =>
      obtain rfl := hcube _ _ _ hpublished
      exact hcurrent.publish hpublished hkept
  | finishes source version created table published hpublished =>
      obtain rfl := hcube _ _ _ hpublished
      exact (hcurrent.publish hpublished hkept).of_locks _
  | _ => exact hcurrent.of_locks _

/-- A refresh that builds a later version removes no table that is needed. -/
theorem Goes.harmless (h : Goes cube engine stage after next) (hcurrent : engine.Current cube)
    (hkept : 0 < engine.settings.refreshKeepVersions)
    (hbuilds : stage.Builds cube (engine.catalog.version cube)) {table : String}
    (htable : dropStatement table ∈ next.submitted cube) : ¬ after.Needs cube table := by
  have hnew : ∀ {later before}, engine.catalog.version cube < later →
      ¬ Dated cube (engine.catalog.version cube) (snapshotTable cube later before) := by
    intro later before hlater hdated
    have hle := hdated later before rfl
    omega
  rcases h.removes htable with ⟨source, version, created, current, rest, rfl, rfl, hmade⟩ |
    ⟨source, version, created, current, published, rfl, hpublished, rfl, hidle⟩
  · -- What it has created has a name that nothing else has had so far.
    obtain ⟨hlater, hcreated⟩ := hbuilds
    obtain ⟨before, rfl⟩ : ∃ before, snapshotTable cube version before = table := by
      rcases hmade with hold | rfl
      · exact hcreated table hold
      · exact ⟨current, rfl⟩
    exact fun hneeds => hnew hlater (hcurrent.dated_of_needs hneeds)
  · -- What has been retired has the name of an earlier version.
    rw [Engine.needs_retire, hpublished.needs_iff hkept hidle]
    rintro ⟨hretired, hover⟩
    obtain ⟨before, -, rfl⟩ := Cube.mem_tables_renameTables.1 hover
    exact hnew hbuilds.1 (hcurrent.retired _ hretired)

end Stage

end StarCube
