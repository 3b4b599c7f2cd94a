import StarCube.Proofs.Cube.Consistent
import StarCube.Proofs.Engine.Invariants
import StarCube.Proofs.Engine.Sentences
import StarCube.Proofs.Foreign

/-!
Definitions that are registered and published. Registration checks a cube, and a refresh the names
of its snapshots, so that every definition that an operation can find is consistent. It is found
under its own name.
-/

namespace StarCube

/-- A consistent cube is one over other tables as well, if these may be written. -/
theorem Cube.Consistent.renameTables {cube : Cube} (h : cube.Consistent) {rename : String → String}
    (hrename : ∀ table ∈ cube.tables, Acceptable (rename table)) :
    (cube.renameTables rename).Consistent where
  name_ne := h.name_ne
  nodup_dimensions := by
    have hnames : (cube.renameTables rename).dimensions.map Dimension.name =
        cube.dimensions.map Dimension.name := by
      rw [Cube.renameTables, List.map_map]
      rfl
    rw [hnames]
    exact h.nodup_dimensions
  nodup_measures := h.nodup_measures
  nodup_members := h.nodup_members
  factTable := hrename _ (mem_tables_iff.2 (.inl rfl))
  measures := h.measures
  dimensions := by
    intro dimension hdimension
    obtain ⟨before, hbefore, rfl⟩ := List.mem_map.1 hdimension
    have hnames := h.dimensions before hbefore
    have htable := hrename _ (mem_tables_iff.2 (.inr ⟨before, hbefore, rfl⟩))
    exact { hnames with table := htable }
  members := h.members

/-- A snapshot is created only if its name may be written, as that of its table. -/
theorem Procedure.checkSnapshots_eq_ok_iff {snapshotOf : String → String} {tables : List String} :
    checkSnapshots snapshotOf tables = .ok () ↔
      ∀ table ∈ tables, Acceptable table ∧ Acceptable (snapshotOf table) := by
  simp only [checkSnapshots, Except.forM_eq_ok_iff, Except.seq_eq_ok_iff,
    discard_requireIdentifier_eq_ok_iff]

/-- The first name that may not be written is refused: that of a table, or that of its snapshot. -/
theorem Procedure.checkSnapshots_eq_error_iff {snapshotOf : String → String} {tables : List String}
    {cause : Failure} :
    checkSnapshots snapshotOf tables = .error cause ↔
      ∃ front table back, tables = front ++ table :: back ∧
        (∀ before ∈ front, Acceptable before ∧ Acceptable (snapshotOf before)) ∧
          (requireIdentifier "table name" table = .error cause ∨ Acceptable table ∧
            requireIdentifier "snapshot table name" (snapshotOf table) = .error cause) := by
  have hdiscard (what text : String) : discard (requireIdentifier what text) = .error cause ↔
      requireIdentifier what text = .error cause := by
    cases requireIdentifier what text <;>
      simp [discard, Functor.discard, Functor.mapConst, Except.map]
  induction tables with
  | nil => simp [checkSnapshots, pure, Except.pure]
  | cons table rest ih =>
      have hcons : checkSnapshots snapshotOf (table :: rest) =
          ((discard (requireIdentifier "table name" table) >>= fun _ =>
            discard (requireIdentifier "snapshot table name" (snapshotOf table))) >>= fun _ =>
              checkSnapshots snapshotOf rest) := rfl
      refine Iff.trans ?_ (exists_first_cons_iff.trans (or_congr_right (and_congr_right fun _ =>
        ih.symm))).symm
      rw [hcons]
      simp only [Except.bind_eq_error_iff, Except.bind_eq_ok_iff, hdiscard,
        discard_requireIdentifier_eq_ok_iff, exists_and_right, exists_const]

/-- A refresh goes by a consistent source, and creates snapshots of names that may be written. -/
def Stage.Checked (cube : String) : Stage → Prop
  | .waiting source => source.Consistent
  | .creating source version _ _ _ =>
      source.Consistent ∧ ∀ table ∈ source.tables, Acceptable (snapshotTable cube version table)
  | _ => True

/-- What a refresh publishes is consistent. -/
theorem Stage.Goes.checked {cube : String} {engine after : Engine} {stage next : Stage}
    (h : Goes cube engine stage after next) (hstage : stage.Checked cube)
    (hcatalog : engine.catalog.OfKind Cube.Consistent) :
    after.catalog.OfKind Cube.Consistent ∧ next.Checked cube := by
  cases h with
  | waits source busy => exact ⟨hcatalog, hstage⟩
  | refused source failure => exact ⟨hcatalog, trivial⟩
  | enters source entry free registered checked =>
      refine ⟨hcatalog, hstage, fun table htable => ?_⟩
      exact (Procedure.checkSnapshots_eq_ok_iff.1 checked table htable).2
  | creates source version created table next rest => exact ⟨hcatalog, hstage⟩
  | gives source version created table rest failure => exact ⟨hcatalog, trivial⟩
  | fails source version created table rest made failure hmade => exact ⟨hcatalog, trivial⟩
  | publishes source version created table published hpublished =>
      obtain ⟨catalog, hpublish, rfl⟩ := hpublished
      exact ⟨hcatalog.publish (hstage.1.renameTables hstage.2) hpublish, trivial⟩
  | finishes source version created table published hpublished =>
      obtain ⟨catalog, hpublish, rfl⟩ := hpublished
      exact ⟨hcatalog.publish (hstage.1.renameTables hstage.2) hpublish, trivial⟩
  | cleaned version created failure => exact ⟨hcatalog, trivial⟩
  | expired version idle => exact ⟨hcatalog, trivial⟩

namespace World

/-- Every definition that is registered or published is consistent, and so is every source that is
being refreshed. -/
structure Consistent (world : World) : Prop where
  catalog : world.engine.catalog.OfKind Cube.Consistent
  sound : ∀ task ∈ world.tasks, task.Sound fun _ cube stage => stage.Checked cube

variable {world : World}

theorem consistent_fresh (settings : Settings) : (fresh settings).Consistent where
  catalog := by simp [Catalog.OfKind, fresh, Catalog.entry?, Catalog.empty, Keyed.get?]
  sound := by simp [fresh]

/-- Sources are consistent, and so is what refreshes publish of them. -/
theorem consistent_invariant :
    Invariant (fun engine => engine.catalog.OfKind Cube.Consistent) fun _ cube stage =>
      stage.Checked cube where
  fresh settings := (consistent_fresh settings).catalog
  register h := Engine.catalog_changed h fun _ hafter => h.register Cube.check_eq_ok_iff.1 hafter
  unregister h := Engine.catalog_changed h fun _ hafter => h.unregister hafter
  reads hafter h := by rwa [hafter.catalog]
  ended _ _ _ := trivial
  waiting h hentry := (h _ _ hentry).source
  goes hgoes h hstage := hgoes.checked hstage h

theorem Consistent.next (h : world.Consistent) (event : Event) : (world.next event).Consistent :=
  have hnext := consistent_invariant.next ⟨h.catalog, h.sound⟩ event
  ⟨hnext.engine, hnext.sound⟩

theorem Consistent.run (h : world.Consistent) (events : List Event) :
    (world.run events).Consistent := by
  induction events generalizing world with
  | nil => exact h
  | cons event rest ih => exact ih (h.next event)

end World

/-- Every definition that is found under a name, at any time of any run, is consistent. -/
theorem World.consistent_of_entry {settings : Settings} {events : List Event} {name : String}
    {entry : CatalogEntry}
    (h : ((fresh settings).run events).engine.catalog.entry name = .ok entry) :
    entry.source.Consistent ∧ entry.published.Consistent := by
  have hkind := ((consistent_fresh settings).run events).catalog name entry
    (Catalog.entry_eq_ok_iff.1 h)
  exact ⟨hkind.source, hkind.published⟩

/-- Every cube is registered and published under its own name. -/
def Catalog.Titled (catalog : Catalog) : Prop :=
  ∀ name entry, catalog.entry? name = some entry →
    entry.source.name = name ∧ entry.published.name = name

/-- A refresh goes by a source that has the name of its cube. -/
def Stage.Titled (cube : String) (stage : Stage) : Prop :=
  ∀ source, stage.source? = some source → source.name = cube

theorem Stage.Goes.titled {cube : String} {engine after : Engine} {stage next : Stage}
    (h : Goes cube engine stage after next) (hcatalog : engine.catalog.Titled)
    (hstage : stage.Titled cube) : after.catalog.Titled ∧ next.Titled cube := by
  rcases h.catalog with ⟨hkept, hsource⟩ | ⟨source, version, hsource, hnone, hpublish⟩
  · rw [hkept]
    exact ⟨hcatalog, fun source hnext => hstage source (hsource source hnext)⟩
  · refine ⟨?_, by simp [Stage.Titled, hnone]⟩
    exact Catalog.forall_entry?_publish hcatalog hpublish fun current hcurrent =>
      ⟨(hcatalog cube current hcurrent).1, hstage source hsource⟩

theorem World.titled_invariant :
    Invariant (fun engine => engine.catalog.Titled) fun _ cube stage => stage.Titled cube where
  fresh settings := by simp [Catalog.Titled, World.fresh, Catalog.entry?, Catalog.empty, Keyed.get?]
  register h := Engine.catalog_changed h fun _ hafter =>
    Catalog.forall_entry?_register h hafter fun _ => ⟨rfl, rfl⟩
  unregister h := Engine.catalog_changed h fun _ hafter => Catalog.forall_entry?_unregister h hafter
  reads hafter h := by rwa [hafter.catalog]
  ended _ cube failure := by simp [Stage.Titled, Stage.source?]
  waiting h hentry := by
    intro source hsource
    obtain rfl := Option.some.inj hsource
    exact (h _ _ hentry).1
  goes hgoes h hstage := hgoes.titled h hstage

end StarCube
