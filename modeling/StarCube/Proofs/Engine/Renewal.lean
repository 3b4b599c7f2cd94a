import StarCube.Proofs.Engine.Apart
import StarCube.Proofs.Engine.Versions

/-!
Refreshes one after the other, of a store that accepts every statement. Each gives the next version
and publishes it, as long as the names of the snapshots can be written. What is checked when a cube
is registered does not see to that: the name of the cube is not checked at all, and the names of
snapshots are longer than those of their tables.
-/

namespace StarCube

/-! ### Names -/

/-- What can stand between two low lines of an identifier: letters, digits, low lines, and points of
which each comes last or before what a part may start with. -/
def Embeddable (text : List Char) : Prop :=
  ∀ before c after, text = before ++ c :: after →
    isIdentifierRest c = true ∨ c = '.' ∧ ∀ next ∈ after.head?, isIdentifierStart next = true

theorem embeddable_nil : Embeddable [] := by
  intro before c after h
  simp at h

theorem embeddable_cons_iff {c : Char} {text : List Char} :
    Embeddable (c :: text) ↔
      (isIdentifierRest c = true ∨ c = '.' ∧ ∀ next ∈ text.head?, isIdentifierStart next = true) ∧
        Embeddable text := by
  constructor
  · intro h
    exact ⟨h [] c text rfl, fun before other after heq =>
      h (c :: before) other after (by rw [heq]; rfl)⟩
  · rintro ⟨hfirst, htext⟩ before other after heq
    cases before with
    | nil =>
        obtain ⟨rfl, rfl⟩ := List.cons.inj heq
        exact hfirst
    | cons first before =>
        obtain ⟨rfl, rfl⟩ := List.cons.inj heq
        exact htext before other after rfl

/-- A low line ends what can stand before it. -/
theorem identifier_append_low_iff (text rest : List Char) :
    (identifierPart (text ++ '_' :: rest) = true ↔ Embeddable text ∧ identifierPart rest = true) ∧
    (identifierStart (text ++ '_' :: rest) = true ↔
      (∀ next ∈ text.head?, isIdentifierStart next = true) ∧ Embeddable text ∧
        identifierPart rest = true) := by
  have hstart : isIdentifierStart '_' = true := by decide
  have hlow : isIdentifierRest '_' = true := by decide
  induction text with
  | nil => simp [identifierPart_cons_iff, identifierStart, embeddable_nil, hstart, hlow]
  | cons c text ih =>
      have hnonempty : text ++ '_' :: rest ≠ [] := by simp
      have hpart := Lexeme.isIdentifierRest_of_start (c := c)
      rw [List.cons_append, identifierPart_cons_iff, embeddable_cons_iff, ih.1, ih.2,
        identifierStart_cons_iff, ih.1]
      simp only [hnonempty, and_false, false_or, List.head?_cons, Option.mem_def, Option.some.injEq,
        forall_eq']
      constructor
      · simp only [or_and_right, and_assoc]
      · constructor
        · rintro ⟨hc, htext, hrest⟩
          exact ⟨hc, ⟨.inl (hpart hc), htext⟩, hrest⟩
        · rintro ⟨hc, ⟨-, htext⟩, hrest⟩
          exact ⟨hc, htext, hrest⟩

instance (text : List Char) : Decidable (Embeddable text) :=
  decidable_of_iff (identifierPart (text ++ ['_']) = true)
    ((identifier_append_low_iff text []).1.trans (and_iff_left rfl))

theorem identifierPart_toString {version : Int} (h : 0 ≤ version) :
    identifierPart (toString version).toList = true := by
  obtain ⟨n, rfl⟩ := Int.eq_ofNat_of_zero_le h
  rw [← List.append_nil (toString (n : Int)).toList]
  refine identifierPart_append (fun c hc => ?_) rfl
  have hdigit : c.isDigit = true := isDigit_of_mem_repr hc
  rw [isIdentifierRest, Char.isAlphanum, hdigit, Bool.or_true, Bool.true_or]

/-- The name of a snapshot is acceptable just if that of the cube can stand in it, that of the table
ends in no line end, and both are short enough. -/
theorem acceptable_snapshotTable_iff {table cube : String} {version : Int}
    (htable : Acceptable table) (hversion : 0 ≤ version) :
    Acceptable (snapshotTable cube version table) ↔
      Embeddable (Text.lowerCase cube).toList ∧ '\n' ∉ table.toList ∧
        table.length + (Text.lowerCase cube).length + (toString version).length + 4 ≤
          identifierLimit := by
  have hlow : isIdentifierRest '_' = true := by decide
  have hv : isIdentifierRest 'v' = true := by decide
  have hsplit : (snapshotTable cube version table).toList =
      table.toList ++ '_' :: '_' :: ((Text.lowerCase cube).toList ++
        '_' :: 'v' :: (toString version).toList) := by
    simp [snapshotTable]
  have hlength : (snapshotTable cube version table).length =
      table.length + (Text.lowerCase cube).length + (toString version).length + 4 := by
    rw [← String.length_toList, hsplit]
    simp only [List.length_append, List.length_cons, String.length_toList]
    omega
  have hdigits : identifierPart ('v' :: (toString version).toList) = true :=
    identifierPart_cons_iff.2 (.inr (.inl ⟨hv, identifierPart_toString hversion⟩))
  have hidentifier : IsIdentifier (snapshotTable cube version table) ↔
      '\n' ∉ table.toList ∧ Embeddable (Text.lowerCase cube).toList := by
    rw [IsIdentifier, hsplit, (identifier_append_iff hlow _ _).2 htable.identifier]
    refine and_congr_right fun _ => ?_
    rw [identifierPart_cons_iff, (identifier_append_low_iff _ _).1, and_iff_left hdigits]
    simp [hlow]
  constructor
  · rintro ⟨hname, hle⟩
    obtain ⟨hline, hcube⟩ := hidentifier.1 hname
    exact ⟨hcube, hline, hlength ▸ hle⟩
  · rintro ⟨hcube, hline, hle⟩
    exact ⟨hidentifier.2 ⟨hline, hcube⟩, hlength ▸ hle⟩

/-- Snapshots of a version can be made of the tables of a cube. -/
structure Cube.Renewable (cube : Cube) (version : Int) : Prop where
  name : Embeddable (Text.lowerCase cube.name).toList
  lines : ∀ table ∈ cube.tables, '\n' ∉ table.toList
  lengths : ∀ table ∈ cube.tables,
    table.length + (Text.lowerCase cube.name).length + (toString version).length + 4 ≤
      identifierLimit

theorem Cube.renewable_iff {cube : Cube} {version : Int} :
    cube.Renewable version ↔ Embeddable (Text.lowerCase cube.name).toList ∧
      ∀ table ∈ cube.tables, '\n' ∉ table.toList ∧
        table.length + (Text.lowerCase cube.name).length + (toString version).length + 4 ≤
          identifierLimit :=
  ⟨fun h => ⟨h.name, fun table htable => ⟨h.lines table htable, h.lengths table htable⟩⟩,
    fun ⟨hname, htables⟩ => ⟨hname, fun table htable => (htables table htable).1,
      fun table htable => (htables table htable).2⟩⟩

instance (cube : Cube) (version : Int) : Decidable (cube.Renewable version) :=
  decidable_of_iff _ Cube.renewable_iff.symm

theorem Cube.Consistent.renewable_iff {cube : Cube} (h : cube.Consistent) {version : Int}
    (hversion : 0 ≤ version) :
    Procedure.checkSnapshots (snapshotTable cube.name version) cube.tables = .ok () ↔
      cube.Renewable version := by
  have hsnapshot : ∀ table ∈ cube.tables, (Acceptable table ∧
      Acceptable (snapshotTable cube.name version table)) ↔ _ := fun table htable =>
    (and_iff_right (h.acceptable_of_mem_tables htable)).trans
      (acceptable_snapshotTable_iff (h.acceptable_of_mem_tables htable) hversion)
  rw [Procedure.checkSnapshots_eq_ok_iff]
  constructor
  · intro hall
    have hfits := fun table htable => (hsnapshot table htable).1 (hall table htable)
    exact ⟨(hfits _ (mem_tables_iff.2 (.inl rfl))).1, fun table htable => (hfits table htable).2.1,
      fun table htable => (hfits table htable).2.2⟩
  · exact fun hrenewable table htable => (hsnapshot table htable).2
      ⟨hrenewable.name, hrenewable.lines table htable, hrenewable.lengths table htable⟩

/-! ### Refreshes -/

/-- The versions of a catalog are no negative numbers. -/
def Catalog.Counts (catalog : Catalog) : Prop :=
  ∀ cube, 0 ≤ catalog.version cube

theorem Catalog.Counts.publish {catalog after : Catalog} {cube : String} {published : Cube}
    {version : Int} (h : catalog.Counts)
    (hafter : catalog.publish cube published version = .ok after) : after.Counts := by
  intro other
  by_cases hname : other = cube
  · subst hname
    obtain ⟨hnewer, hversion⟩ := version_publish hafter
    rw [hversion]
    exact (Int.lt_of_le_of_lt (h other) hnewer).le
  · rw [version_congr ((entry?_publish hafter).2 other hname)]
    exact h other

theorem World.counts_invariant :
    Invariant (fun engine => engine.catalog.Counts) fun _ _ _ => True where
  fresh _ _ := Int.le_refl 0
  register h := Engine.catalog_changed h fun _ hafter cube =>
    (Catalog.version_register hafter cube).symm ▸ h cube
  unregister h := Engine.catalog_changed h fun _ hafter cube => by
    rcases Catalog.version_unregister hafter cube with hzero | hkept
    · exact hzero.ge
    · exact hkept ▸ h cube
  reads hafter h := by rwa [hafter.catalog]
  ended _ _ _ := trivial
  waiting _ _ := trivial
  goes hgoes h _ := by
    rcases hgoes.catalog with ⟨hkept, -⟩ | ⟨source, version, -, -, hpublish⟩
    · exact ⟨hkept ▸ h, trivial⟩
    · exact ⟨h.publish hpublish, trivial⟩

/-- A consistent cube can take the place of another one. -/
theorem Catalog.exists_replace {cube : Cube} (hcheck : cube.check = .ok ()) (catalog : Catalog) :
    ∃ after, catalog.register cube true = .ok after := by
  simp only [register, hcheck]
  cases catalog.entry? cube.name <;> exact ⟨_, rfl⟩

namespace World

/-- The store accepts what a task submits, so many times. -/
def accepted (index : Nat) : Nat → World → World
  | 0, world => world
  | count + 1, world => accepted index count (world.next (.signal index (.acknowledge (.ok ()))))

/-- A refresh of a cube is called, and the store accepts as often as a refresh of its tables may
ask. -/
def refreshed (world : World) (source : Cube) (context : LogContext) : World :=
  accepted world.tasks.length (source.tables.length + 1)
    (world.next (.call (.refresh source.name) context))

/-- A refresh of a cube that is called gives the next version and publishes it. -/
def Renewed (world : World) (source : Cube) (context : LogContext) : Prop :=
  ∃ entry, world.engine.catalog.entry? source.name = some entry ∧
    (world.refreshed source context).Has world.tasks.length source.name
      (.ended (.ok (entry.version + 1))) ∧
    (world.refreshed source context).engine.catalog.entry? source.name =
      some { entry with
        published := source.renameTables (snapshotTable source.name (entry.version + 1))
        version := entry.version + 1
        refreshedAt := some ⟨world.engine.catalog.readings⟩ }

/-- So many refreshes one after the other give the next version each, and publish it. -/
def Renews (source : Cube) (context : LogContext) : Nat → World → Prop
  | 0, _ => True
  | count + 1, world =>
      world.Renewed source context ∧ (world.refreshed source context).Renews source context count

section Accepted

variable {world : World} {index : Nat} {cube : String}

/-- A refresh that has its turn goes on with what the store has accepted. -/
theorem Has.accepted {stage : Stage} (h : world.Has index cube stage)
    (hactive : stage.active = true) :
    (world.next (.signal index (.acknowledge (.ok ())))).Has index cube
        (Stage.acknowledge cube world.engine (.ok ()) stage).2 ∧
      (world.next (.signal index (.acknowledge (.ok ())))).engine =
        (Stage.acknowledge cube world.engine (.ok ()) stage).1 := by
  obtain ⟨begun, context, hmoved⟩ := h.moved hactive (.ok ())
  refine ⟨⟨begun, context, ?_⟩, engine_next hmoved⟩
  exact (tasks_next hmoved index).trans (if_pos rfl)

/-- A refresh that is over changes nothing more. -/
theorem accepted_ended {outcome : Except Failure Int} (h : world.Has index cube (.ended outcome))
    (count : Nat) : accepted index count world = world := by
  have hmoved : world.moved (.signal index (.acknowledge (.ok ()))) = none := by
    obtain ⟨begun, context, hindex⟩ := h
    simp only [moved, hindex]
    rfl
  induction count with
  | zero => rfl
  | succ count ih => rw [accepted, next_eq_self hmoved, ih]

/-- A refresh that has published ends with its version, whether or not it has tables to remove. -/
theorem accepted_expire {engine : Engine} {source : Cube} {version : Int} {locks : List String}
    (h : world.Has index cube (Stage.expire cube engine source version).2)
    (hengine : world.engine = (Stage.expire cube engine source version).1)
    (hlocks : engine.locks = cube :: locks) :
    (accepted index 1 world).Has index cube (.ended (.ok version)) ∧
      (accepted index 1 world).engine.catalog = engine.catalog ∧
      (accepted index 1 world).engine.locks = locks := by
  have herase : engine.locks.erase cube = locks := by rw [hlocks, List.erase_cons_head]
  simp only [Stage.expire] at h hengine
  split at h
  · next hempty =>
      rw [if_pos hempty] at hengine
      rw [accepted_ended h, hengine]
      exact ⟨h, rfl, herase⟩
  · next hidle =>
      rw [if_neg hidle] at hengine
      obtain ⟨hafter, hchanged⟩ := h.accepted rfl
      refine ⟨hafter, ?_⟩
      rw [accepted, accepted, hchanged, hengine]
      exact ⟨rfl, herase⟩

/-- A refresh that creates snapshots publishes its version and ends with it. -/
theorem accepted_creating {source : Cube} {version : Int} {created : List String} {table : String}
    {rest : List String} {entry : CatalogEntry} {locks : List String}
    (h : world.Has index cube (.creating source version created table rest))
    (hentry : world.engine.catalog.entry? cube = some entry) (hnewer : entry.version < version)
    (hlocks : world.engine.locks = cube :: locks) :
    (accepted index (rest.length + 2) world).Has index cube (.ended (.ok version)) ∧
      (accepted index (rest.length + 2) world).engine.catalog.entry? cube =
        some { entry with
          published := source.renameTables (snapshotTable cube version)
          version := version
          refreshedAt := some ⟨world.engine.catalog.readings⟩ } ∧
      (accepted index (rest.length + 2) world).engine.locks = locks := by
  induction rest generalizing world created table with
  | nil =>
      obtain ⟨hafter, hengine⟩ := h.accepted rfl
      obtain ⟨catalog, hpublish⟩ := Catalog.exists_publish hentry hnewer
        (source.renameTables (snapshotTable cube version))
      simp only [Stage.acknowledge, Stage.publish, hpublish] at hafter hengine
      obtain ⟨hended, hcatalog, hfree⟩ := accepted_expire hafter hengine hlocks
      obtain ⟨⟨current, hcurrent, -, hpublished⟩, -⟩ := Catalog.entry?_publish hpublish
      obtain rfl := Option.some.inj (hentry.symm.trans hcurrent)
      refine ⟨hended, ?_, hfree⟩
      exact (congrArg (Catalog.entry? · cube) hcatalog).trans hpublished
  | cons next rest ih =>
      obtain ⟨hafter, hengine⟩ := h.accepted rfl
      have hnext := ih hafter (hengine ▸ hentry) (hengine ▸ hlocks)
      rwa [hengine] at hnext

end Accepted

section Refreshed

variable {world : World} {source : Cube} {entry : CatalogEntry} {context : LogContext}

/-- A refresh whose snapshots have names that cannot be written fails and leaves the engine as it
is. -/
theorem has_refused {cube : String} {failure : Failure}
    (hentry : world.engine.catalog.entry? cube = some entry) (hfree : cube ∉ world.engine.locks)
    (hchecked : Procedure.checkSnapshots (snapshotTable cube (entry.version + 1))
      entry.source.tables =
      .error failure) (context : LogContext) :
    (world.next (.call (.refresh cube) context)).Has world.tasks.length cube
        (.ended (.error (.refresh cube failure))) ∧
      (world.next (.call (.refresh cube) context)).engine = world.engine := by
  have hlocks : world.engine.locks.contains cube = false := by simpa using hfree
  have hstart : Stage.start cube world.engine =
      (world.engine, .ended (.error (.refresh cube failure))) := by
    simp only [Stage.start, Catalog.entry_eq_ok_iff.2 hentry, Stage.ask, hlocks, Stage.enter,
      hchecked]
    rfl
  have hreaches := @Stage.reaches_start cube world.engine context
  rw [hstart] at hreaches
  have hproceed := Task.proceed_eq (Task.made (.refresh cube) world.engine context) hreaches
  have hmoved : world.moved (.call (.refresh cube) context) = some _ := congrArg some hproceed
  refine ⟨⟨world.engine, context, ?_⟩, engine_next hmoved⟩
  exact (tasks_next hmoved _).trans (if_pos rfl)

variable (hentry : world.engine.catalog.entry? source.name = some entry)
  (hsource : entry.source = source)
  (hfree : source.name ∉ world.engine.locks)

include hentry hsource hfree

theorem renewed_of_checked
    (hchecked : Procedure.checkSnapshots (snapshotTable source.name (entry.version + 1))
      source.tables =
      .ok ()) :
    world.Renewed source context ∧
      (world.refreshed source context).engine.locks = world.engine.locks := by
  subst hsource
  obtain ⟨hcalled, hengine⟩ := has_called hentry hfree hchecked context
  have hlength : entry.source.tables.length + 1 = entry.source.tables.tail.length + 2 := by
    rw [Cube.tables_eq_cons]
    rfl
  have hlocks : (world.next (.call (.refresh entry.source.name) context)).engine.locks =
      entry.source.name :: world.engine.locks := by
    rw [hengine]
    rfl
  obtain ⟨hended, hpublished, hafter⟩ :=
    accepted_creating hcalled (hengine ▸ hentry) (Int.lt_succ _)
    hlocks
  rw [← hlength] at hended hpublished hafter
  rw [hengine] at hpublished
  exact ⟨⟨entry, hentry, hended, hpublished⟩, hafter⟩

/-- A refresh of its own gives the next version and publishes it just if the names of its snapshots
can be written. -/
theorem renewed_iff : world.Renewed source context ↔
    Procedure.checkSnapshots (snapshotTable source.name (entry.version + 1)) source.tables =
      .ok () := by
  refine ⟨fun hrenewed => ?_, fun hchecked => (renewed_of_checked hentry hsource hfree hchecked).1⟩
  cases hchecked : Procedure.checkSnapshots (snapshotTable source.name (entry.version + 1))
      source.tables with
  | ok _ => rfl
  | error failure =>
      subst hsource
      obtain ⟨current, -, hended, -⟩ := hrenewed
      have hrefused := (has_refused hentry hfree hchecked context).1
      rw [refreshed, accepted_ended hrefused] at hended
      obtain ⟨begun, bound, hindex⟩ := hended
      obtain ⟨begun', bound', hindex'⟩ := hrefused
      have hsame := hindex.symm.trans hindex'
      have hended := @Task.ended?_eq_some_iff entry.source.name entry.source.name begun bound
        (.ended (.ok (current.version + 1))) (.ok (current.version + 1))
      rw [Option.some.inj hsame] at hended
      cases (Task.ended?_eq_some_iff.1 (hended.2 ⟨rfl, rfl⟩)).2

/-- Refreshes one after the other succeed just as far as the names of the snapshots can be
written. -/
theorem renews_iff_of_entry (count : Nat) : world.Renews source context count ↔
    ∀ k < count, Procedure.checkSnapshots (snapshotTable source.name (entry.version + k + 1))
      source.tables = .ok () := by
  induction count generalizing world entry with
  | zero => simp [Renews]
  | succ count ih =>
      rw [Renews, Nat.forall_lt_succ_left, renewed_iff hentry hsource hfree]
      have hfirst : entry.version + ((0 : Nat) : Int) + 1 = entry.version + 1 := by omega
      rw [hfirst]
      refine and_congr_right fun hchecked => ?_
      obtain ⟨⟨current, hcurrent, -, hpublished⟩, hlocks⟩ :=
        @renewed_of_checked _ _ _ context hentry hsource hfree hchecked
      obtain rfl := Option.some.inj (hentry.symm.trans hcurrent)
      -- The versions to come are counted from the one that has been published.
      rw [ih hpublished hsource (hlocks ▸ hfree)]
      refine forall₂_congr fun k _ => ?_
      have hversion : entry.version + 1 + (k : Int) + 1 =
          entry.version + ((k + 1 : Nat) : Int) + 1 := by
        push_cast
        omega
      rw [hversion]

end Refreshed

/-- A consistent cube that is registered is refreshed just as far as snapshots can be made of its
tables. -/
theorem renews_iff_of_nonneg {world : World} {source : Cube}
    (hnonneg : 0 ≤ world.engine.catalog.version source.name) (hcheck : source.check = .ok ())
    (hfree : source.name ∉ world.engine.locks) (context : LogContext) (count : Nat) :
    (world.next (.call (.register source true) context)).Renews source context count ↔
      ∀ k < count, source.Renewable (world.engine.catalog.version source.name + k + 1) := by
  obtain ⟨catalog, hregister⟩ := Catalog.exists_replace hcheck world.engine.catalog
  have hengine : (world.next (.call (.register source true) context)).engine =
      { world.engine with catalog := catalog } := by
    rw [engine_next_register, Engine.changed, hregister]
  have hentry :
      (world.next (.call (.register source true) context)).engine.catalog.entry? source.name =
      some ⟨source, source, world.engine.catalog.version source.name, none⟩ := by
    rw [hengine]
    exact (Catalog.entry?_register hregister).1
  have hunlocked : source.name ∉
      (world.next (.call (.register source true) context)).engine.locks := by
    rw [hengine]
    exact hfree
  rw [@renews_iff_of_entry _ _ _ context hentry rfl hunlocked]
  refine forall₂_congr fun k _ => (Cube.check_eq_ok_iff.1 hcheck).renewable_iff ?_
  exact Int.add_nonneg (Int.add_nonneg hnonneg (Int.natCast_nonneg k)) Int.one_nonneg

/-- After any run of a new engine: a cube that is consistent and of which no refresh has its turn is
registered, and then refreshed again and again, of a store that accepts every statement. Each
refresh gives the next version and publishes it, just as far as snapshots of the version can be made
of its tables. -/
theorem renews_registered_iff {settings : Settings} {events : List Event} {world : World}
    (hworld : world = (fresh settings).run events) {source : Cube} (hcheck : source.check = .ok ())
    (hfree : source.name ∉ world.engine.locks) (context : LogContext) (count : Nat) :
    (world.next (.call (.register source true) context)).Renews source context count ↔
      ∀ k < count, source.Renewable (world.engine.catalog.version source.name + k + 1) := by
  refine renews_iff_of_nonneg ?_ hcheck hfree context count
  rw [hworld]
  exact (counts_invariant.run settings events).engine source.name

/-- A cube is registered with a new engine. -/
def registering (source : Cube) : World :=
  (fresh .standard).next (.call (.register source true) .empty)

/-- A cube with a short name over a table with a short name. -/
theorem renews_sales :
    (Cube.ofFacts "sales" "facts").check = .ok () ∧
      (registering (.ofFacts "sales" "facts")).Renews (.ofFacts "sales" "facts") .empty 100 := by
  have hcheck : (Cube.ofFacts "sales" "facts").check = .ok () := by decide +kernel
  have hversion : (fresh .standard).engine.catalog.version "sales" = 0 := rfl
  refine ⟨hcheck, (renews_registered_iff (rfl : _ = (fresh .standard).run []) hcheck
    (by simp [fresh, run]) .empty 100).2 ?_⟩
  show ∀ k < 100, (Cube.ofFacts "sales" "facts").Renewable
    ((fresh .standard).engine.catalog.version "sales" + (k : Nat) + 1)
  rw [hversion]
  decide +kernel

/-- A cube with a blank in its name is registered, and the refresh of it fails over the name of a
snapshot. So does that of a cube over a table with a name as long as a name may be. -/
theorem exists_not_renews :
    (Cube.ofFacts "Sales 2024" "facts").check = .ok () ∧
      ((registering (.ofFacts "Sales 2024" "facts")).refreshed
          (.ofFacts "Sales 2024" "facts") .empty).Has 1 "Sales 2024"
        (.ended (.error (.refresh "Sales 2024"
          (.identifier (.malformed "snapshot table name" "facts__sales 2024_v1"))))) ∧
      ¬ (registering (.ofFacts "Sales 2024" "facts")).Renews
        (.ofFacts "Sales 2024" "facts") .empty 1 ∧
      (Cube.ofFacts "sales" (String.ofList (List.replicate 128 'f'))).check = .ok () ∧
      ¬ (registering (.ofFacts "sales" (String.ofList (List.replicate 128 'f')))).Renews
        (.ofFacts "sales" (String.ofList (List.replicate 128 'f'))) .empty 1 := by
  have hfails {source : Cube} (hcheck : source.check = .ok ()) (hnot : ¬ source.Renewable 1) :
      ¬ (registering source).Renews source .empty 1 := by
    have hversion : (fresh .standard).engine.catalog.version source.name = 0 := rfl
    rw [registering, renews_iff_of_nonneg hversion.ge hcheck (by simp [fresh]), hversion]
    exact fun hall => hnot (hall 0 Nat.one_pos)
  have hblank : (Cube.ofFacts "Sales 2024" "facts").check = .ok () := by decide +kernel
  have hlong : (Cube.ofFacts "sales" (String.ofList (List.replicate 128 'f'))).check = .ok () := by
    decide +kernel
  refine ⟨hblank, ?_, hfails hblank (by decide +kernel), hlong, hfails hlong (by decide +kernel)⟩
  have hentry : (registering (.ofFacts "Sales 2024" "facts")).engine.catalog.entry? "Sales 2024" =
      some ⟨.ofFacts "Sales 2024" "facts", .ofFacts "Sales 2024" "facts", 0, none⟩ := by
    decide +kernel
  have hfree : "Sales 2024" ∉ (registering (.ofFacts "Sales 2024" "facts")).engine.locks := by
    decide +kernel
  obtain ⟨hrefused, -⟩ := has_refused hentry hfree rfl .empty
  have hcalls : (registering (.ofFacts "Sales 2024" "facts")).tasks.length = 1 := by decide +kernel
  rw [hcalls] at hrefused
  rw [refreshed, hcalls]
  exact (accepted_ended hrefused 2).symm ▸ hrefused

end World

end StarCube
