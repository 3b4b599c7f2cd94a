import StarCube.Proofs.Engine.Course
import StarCube.Proofs.Query.Reachability

/-!
Snapshots of two cubes. The name of a snapshot ends in the name of its cube in small letters, so two
cubes share no snapshots unless one of these names ends in the other, after two low lines. Where it
does, a refresh of one of the cubes creates what a refresh of the other one created.
-/

namespace StarCube

/-! ### Names -/

section Names

variable {cube other table before after : String} {version later : Int}

/-- Two snapshots have one name just if their versions are the same and what stands before them
is. -/
theorem snapshotTable_eq_iff :
    snapshotTable cube version before = snapshotTable other later after ↔
      version = later ∧
        before ++ "__" ++ Text.lowerCase cube = after ++ "__" ++ Text.lowerCase other := by
  constructor
  · intro h
    obtain rfl := version_eq_of_snapshotTable_eq h
    have hnames : (before ++ "__" ++ Text.lowerCase cube) ++ ("_v" ++ toString version) =
        (after ++ "__" ++ Text.lowerCase other) ++ ("_v" ++ toString version) := by
      simpa only [snapshotTable, String.append_assoc] using h
    exact ⟨rfl, String.append_left_inj _ |>.1 hnames⟩
  · rintro ⟨rfl, h⟩
    simp only [snapshotTable, h]

/-- Snapshots of a cube under the first version can be written, of a table with a short name at
least. -/
def Writable (cube : String) : Prop :=
  Acceptable (snapshotTable cube 1 "t")

/-- A cube that has snapshots at all has one of a table with a short name. -/
theorem writable_of_acceptable (hbefore : Acceptable before)
    (h : Acceptable (snapshotTable cube version before)) : Writable cube := by
  have hlow : isIdentifierRest '_' = true := by decide
  have hone : isIdentifierRest '1' = true := by decide
  have hsplit : (snapshotTable cube version before).toList =
      before.toList ++ '_' :: (("_" ++ Text.lowerCase cube ++ "_v").toList ++
        (toString version).toList) := by
    simp [snapshotTable]
  have hshort : (snapshotTable cube 1 "t").toList =
      't' :: '_' :: (("_" ++ Text.lowerCase cube ++ "_v").toList ++ '1' :: []) := by
    have hversion : (toString (1 : Int)).toList = ['1'] := by decide +kernel
    simp only [snapshotTable, String.toList_append, hversion]
    simp
  have hidentifier := h.identifier
  rw [IsIdentifier, hsplit] at hidentifier
  have hpart := (((identifier_append_iff hlow _ _).2 hbefore.identifier).1 hidentifier).2
  have hlast : ("_" ++ Text.lowerCase cube ++ "_v").toList.getLast? ≠ some '.' := by
    simp [List.getLast?_cons, List.getLast?_append]
  obtain ⟨hfront, hlines⟩ := (identifier_of_append _).1 hpart hlast
  have hnumeral : (toString version).toList ≠ [] := toList_repr_ne_nil version
  constructor
  · rw [IsIdentifier, hshort]
    have hrest := ((identifier_append_iff hone _ []).1 hfront).2 ⟨hlines hnumeral, rfl⟩
    have hstart : isIdentifierStart 't' = true := by decide
    exact identifierStart_cons_iff.2 ⟨hstart, identifierPart_cons_iff.2 (.inr (.inl ⟨hlow, hrest⟩))⟩
  · have hle := h.length_le
    rw [← String.length_toList, hsplit] at hle
    rw [← String.length_toList, hshort]
    have hnonempty : before.toList ≠ [] := by
      intro hnil
      have hempty := hbefore.identifier
      simp [IsIdentifier, hnil, identifierStart] at hempty
    have hletter : 0 < before.toList.length := List.length_pos_iff.2 hnonempty
    have hdigit : 0 < (toString version).toList.length := List.length_pos_iff.2 hnumeral
    simp only [List.length_cons, List.length_append, List.length_nil] at hle ⊢
    omega

/-- The name of a cube ends in that of another one, so that a snapshot of the one is a snapshot of
the other as well. What is before the other name belongs to the name of a table, which ends in no
point. -/
structure Covers (cube other : String) : Prop where
  cube_ne : cube ≠ ""
  other_ne : other ≠ ""
  writable : Writable cube
  ends : ∃ between : String, between.toList.getLast? ≠ some '.' ∧
    "__" ++ Text.lowerCase cube = between ++ "__" ++ Text.lowerCase other

theorem covers_of_append {between : List Char} (hcube : cube ≠ "") (hother : other ≠ "")
    (hbefore : Acceptable before) (hname : Acceptable (snapshotTable cube version before))
    (hafter : Acceptable after) (happend : after.toList = before.toList ++ between)
    (hends : ("__" ++ Text.lowerCase cube).toList =
      between ++ ("__" ++ Text.lowerCase other).toList) : Covers cube other where
  cube_ne := hcube
  other_ne := hother
  writable := writable_of_acceptable hbefore hname
  ends := by
    refine ⟨String.ofList between, fun hpoint => ?_, ?_⟩
    · rw [String.toList_ofList] at hpoint
      have hlast := (identifier_getLast? after.toList).2 hafter.identifier
      rw [happend, List.getLast?_append, hpoint] at hlast
      exact hlast rfl
    · apply String.toList_injective
      rw [hends]
      simp

/-- Two cubes have a snapshot of one name only if the name of one ends in that of the other. -/
theorem covers_or_covers (hcube : cube ≠ "") (hother : other ≠ "") (hbefore : Acceptable before)
    (hafter : Acceptable after) (hname : Acceptable (snapshotTable cube version before))
    (h : snapshotTable cube version before = snapshotTable other later after) :
    Covers cube other ∨ Covers other cube := by
  obtain ⟨-, hstems⟩ := snapshotTable_eq_iff.1 h
  have hlists : before.toList ++ ("__" ++ Text.lowerCase cube).toList =
      after.toList ++ ("__" ++ Text.lowerCase other).toList := by
    simpa [String.append_assoc] using congrArg String.toList hstems
  rcases List.append_eq_append_iff.1 hlists with
    ⟨between, happend, hends⟩ | ⟨between, happend, hends⟩
  · exact .inl (covers_of_append hcube hother hbefore hname hafter happend hends)
  · exact .inr (covers_of_append hother hcube hafter (h ▸ hname) hbefore happend hends)

/-- If the name of a cube ends in that of another one, there is a table of which the other one has a
snapshot of the same name. -/
theorem Covers.exists_table (h : Covers cube other) :
    ∃ after, Acceptable after ∧ snapshotTable other 1 after = snapshotTable cube 1 "t" := by
  obtain ⟨between, hpoint, hends⟩ := h.ends
  have hname : snapshotTable other 1 ("t" ++ between) = snapshotTable cube 1 "t" := by
    refine snapshotTable_eq_iff.2 ⟨rfl, ?_⟩
    calc "t" ++ between ++ "__" ++ Text.lowerCase other
        = "t" ++ (between ++ "__" ++ Text.lowerCase other) := by simp only [String.append_assoc]
      _ = "t" ++ ("__" ++ Text.lowerCase cube) := by rw [hends]
      _ = "t" ++ "__" ++ Text.lowerCase cube := String.append_assoc.symm
  obtain ⟨hidentifier, hlength⟩ := h.writable
  rw [← hname] at hidentifier hlength
  have hsplit : (snapshotTable other 1 ("t" ++ between)).toList = ("t" ++ between).toList ++
      ("__" ++ Text.lowerCase other ++ "_v" ++ toString (1 : Int)).toList := by
    simp only [snapshotTable, String.toList_append, List.append_assoc]
  refine ⟨"t" ++ between, ⟨?_, ?_⟩, hname⟩
  · rw [IsIdentifier, hsplit] at hidentifier
    refine (identifier_of_append _).2 hidentifier (by simp) ?_
    cases hlast : between.toList.getLast? with
    | none => simp [List.getLast?_cons, hlast]
    | some last => simpa [List.getLast?_cons, hlast] using hpoint
  · rw [← String.length_toList, hsplit, List.length_append] at hlength
    rw [← String.length_toList]
    omega

end Names

/-! ### Tables that refreshes are about -/

/-- A table has the name of a snapshot that a refresh of a cube can make. -/
def Stems (cube table : String) : Prop :=
  cube ≠ "" ∧ ∃ version before, Acceptable before ∧ snapshotTable cube version before = table

theorem Cube.Consistent.acceptable_of_mem_tables {cube : Cube} (h : cube.Consistent)
    {table : String} (htable : table ∈ cube.tables) : Acceptable table := by
  rcases Cube.mem_tables_iff.1 htable with rfl | ⟨dimension, hdimension, rfl⟩
  · exact h.factTable
  · exact (h.dimensions dimension hdimension).table

theorem stems_of_consistent {cube : Cube} (h : cube.Consistent) {before : String}
    (hbefore : before ∈ cube.tables) (version : Int) :
    Stems cube.name (snapshotTable cube.name version before) :=
  ⟨h.name_ne, version, before, h.acceptable_of_mem_tables hbefore, rfl⟩

namespace Stage

/-- A refresh is about tables that stem from its cube. -/
def Stemmed (cube : String) : Stage → Prop
  | .creating source _ created table rest =>
      (∀ made ∈ created, Stems cube made) ∧ ∀ before ∈ table :: rest, before ∈ source.tables
  | .cleaning _ created _ => ∀ made ∈ created, Stems cube made
  | .expiring _ idle => ∀ table ∈ idle, Stems cube table
  | _ => True

variable {cube : String} {engine after : Engine} {stage next : Stage}

/-- All tables that are due stem from a cube if those retired before do. -/
theorem stems_of_mem_due {source : Cube} (hsource : source.Consistent) (hname : source.name = cube)
    (hretired : ∀ table ∈ engine.retiredTables cube, Stems cube table) {version : Int}
    {table : String} (htable : table ∈ engine.due source cube version) : Stems cube table := by
  rcases Engine.mem_due_iff.1 htable with hold | ⟨-, before, hbefore, rfl⟩
  · exact hretired table hold
  · subst hname
    exact stems_of_consistent hsource hbefore _

/-- One more snapshot of a source of the cube stems from the cube as well. -/
theorem stems_of_created {source : Cube} (hsource : source.Consistent) (hname : source.name = cube)
    {created : List String} (hcreated : ∀ made ∈ created, Stems cube made) {before : String}
    (hbefore : before ∈ source.tables) (version : Int) :
    ∀ made ∈ created ++ [snapshotTable cube version before], Stems cube made := by
  subst hname
  intro made hmem
  rcases List.mem_append.1 hmem with hold | hnew
  · exact hcreated made hold
  · obtain rfl := List.mem_singleton.1 hnew
    exact stems_of_consistent hsource hbefore version

theorem stems_of_mem_due_published {source : Cube} {version : Int} {published : Engine}
    (hpublished : engine.Published cube source version published) (hsource : source.Consistent)
    (hname : source.name = cube)
    (hretired : ∀ table ∈ engine.retiredTables cube, Stems cube table) :
    ∀ table ∈ published.due source cube version, Stems cube table := by
  obtain ⟨catalog, -, rfl⟩ := hpublished
  exact fun table htable => stems_of_mem_due hsource hname hretired htable

/-- A refresh that goes on is about tables that stem from its cube, and retires no others. -/
theorem Goes.stemmed (h : Goes cube engine stage after next) (hchecked : stage.Checked cube)
    (htitled : stage.Titled cube) (hstage : stage.Stemmed cube)
    (hretired : ∀ table ∈ engine.retiredTables cube, Stems cube table) :
    next.Stemmed cube ∧ ∀ table ∈ after.retiredTables cube, Stems cube table := by
  cases h with
  | waits source busy => exact ⟨trivial, hretired⟩
  | refused source failure => exact ⟨trivial, hretired⟩
  | enters source entry free registered checked =>
      refine ⟨⟨by simp, fun before hbefore => ?_⟩, hretired⟩
      rw [source.tables_eq_cons]
      exact hbefore
  | creates source version created table next rest =>
      have hmade := stems_of_created hchecked.1 (htitled source rfl) hstage.1
        (hstage.2 table List.mem_cons_self) version
      refine ⟨⟨hmade, fun before hbefore => ?_⟩, hretired⟩
      exact hstage.2 before (List.mem_cons_of_mem _ hbefore)
  | gives source version created table rest failure => exact ⟨trivial, hretired⟩
  | fails source version created table rest made failure hfails =>
      refine ⟨?_, hretired⟩
      rcases hfails with rfl | rfl
      · exact hstage.1
      · exact stems_of_created hchecked.1 (htitled source rfl) hstage.1
          (hstage.2 table List.mem_cons_self) version
  | publishes source version created table published hpublish =>
      have hdue := stems_of_mem_due_published hpublish hchecked.1 (htitled source rfl) hretired
      rw [Engine.retiredTables_retire]
      exact ⟨fun table htable => hdue table (List.mem_of_mem_filter htable),
        fun table htable => hdue table (List.mem_of_mem_filter htable)⟩
  | finishes source version created table published hpublish =>
      have hdue := stems_of_mem_due_published hpublish hchecked.1 (htitled source rfl) hretired
      refine ⟨trivial, fun table htable => ?_⟩
      have hheld : table ∈ published.held (published.due source cube version) := by
        rw [← Engine.retiredTables_retire published cube (published.held _)]
        exact htable
      exact hdue table (List.mem_of_mem_filter hheld)
  | cleaned version created failure => exact ⟨trivial, hretired⟩
  | expired version idle => exact ⟨trivial, hretired⟩

/-- A table that a refresh creates stems from its cube and can be written. -/
theorem Stemmed.of_created (h : stage.Stemmed cube) (hchecked : stage.Checked cube)
    (htitled : stage.Titled cube) {statement table : String}
    (hstatement : statement ∈ stage.submitted cube)
    (hcreated : Store.created? statement = some table) : Stems cube table ∧ Acceptable table := by
  have hdrops := Store.not_mem_drops_of_created? hcreated
  cases stage with
  | creating source version created before rest =>
      obtain rfl := List.mem_singleton.1 hstatement
      have hbefore := h.2 before List.mem_cons_self
      have hname := hchecked.2 before hbefore
      rw [Store.created?_createStatement hname.blank_not_mem] at hcreated
      obtain rfl := Option.some.inj hcreated
      obtain rfl := htitled source rfl
      exact ⟨stems_of_consistent hchecked.1 hbefore version, hname⟩
  | cleaning version created failure => exact absurd hstatement (hdrops created)
  | expiring version idle => exact absurd hstatement (hdrops idle)
  | waiting source => simp [submitted] at hstatement
  | ended outcome => simp [submitted] at hstatement

/-- A table that a refresh removes stems from its cube. -/
theorem Stemmed.of_removed (h : stage.Stemmed cube) {statement table : String}
    (hstatement : statement ∈ stage.submitted cube)
    (hremoved : Store.removed? statement = some table) : Stems cube table := by
  have hdrops : ∀ tables : List String, (∀ table ∈ tables, Stems cube table) →
      statement ∈ tables.map dropStatement → Stems cube table := by
    intro tables htables hmem
    obtain ⟨dropped, hdropped, rfl⟩ := List.mem_map.1 hmem
    rw [Store.removed?_dropStatement] at hremoved
    obtain rfl := Option.some.inj hremoved
    exact htables dropped hdropped
  cases stage with
  | creating source version created before rest =>
      obtain rfl := List.mem_singleton.1 hstatement
      rw [Store.removed?_createStatement] at hremoved
      cases hremoved
  | cleaning version created failure => exact hdrops created h hstatement
  | expiring version idle => exact hdrops idle h hstatement
  | waiting source => simp [submitted] at hstatement
  | ended outcome => simp [submitted] at hstatement

end Stage

namespace World

/-- Sources are consistent and have the names of their cubes, and refreshes are about tables that
stem from their cubes. -/
theorem stemmed_invariant :
    Invariant
      (fun engine => engine.catalog.OfKind Cube.Consistent ∧ engine.catalog.Titled ∧
        ∀ cube, ∀ table ∈ engine.retiredTables cube, Stems cube table)
      fun _ cube stage => stage.Checked cube ∧ stage.Titled cube ∧ stage.Stemmed cube where
  fresh settings := ⟨consistent_invariant.fresh settings, titled_invariant.fresh settings,
    by simp [fresh, Engine.retiredTables, Keyed.get?]⟩
  register h := ⟨consistent_invariant.register h.1, titled_invariant.register h.2.1,
    by simpa [Engine.retiredTables] using h.2.2⟩
  unregister h := ⟨consistent_invariant.unregister h.1, titled_invariant.unregister h.2.1,
    by simpa [Engine.retiredTables] using h.2.2⟩
  reads hafter h := ⟨consistent_invariant.reads hafter h.1, titled_invariant.reads hafter h.2.1,
    by simpa [Engine.retiredTables, hafter.retired] using h.2.2⟩
  ended begun cube failure := ⟨trivial, titled_invariant.ended begun cube failure, trivial⟩
  waiting h hentry :=
    ⟨consistent_invariant.waiting h.1 hentry, titled_invariant.waiting h.2.1 hentry, trivial⟩
  goes := by
    rintro cube begun engine after stage next hgoes ⟨hconsistent, htitled, hretired⟩
      ⟨hchecked, hname, hstemmed⟩
    obtain ⟨hconsistent', hchecked'⟩ := hgoes.checked hchecked hconsistent
    obtain ⟨htitled', hname'⟩ := hgoes.titled htitled hname
    obtain ⟨hstemmed', hretired'⟩ := hgoes.stemmed hchecked hname hstemmed (hretired cube)
    refine ⟨⟨hconsistent', htitled', fun other => ?_⟩, hchecked', hname', hstemmed'⟩
    by_cases hother : other = cube
    · rw [hother]
      exact hretired'
    · rw [hgoes.retiredTables_of_ne hother]
      exact hretired other

/-- A refresh of a cube waits for the creation of a table. -/
def Creates (world : World) (cube table : String) : Prop :=
  ∃ task ∈ world.tasks, task.call = .refresh cube ∧
    ∃ statement ∈ task.statements, Store.created? statement = some table

/-- A refresh of a cube waits for the removal of a table. -/
def Drops (world : World) (cube table : String) : Prop :=
  ∃ task ∈ world.tasks, task.call = .refresh cube ∧
    ∃ statement ∈ task.statements, Store.removed? statement = some table

variable {settings : Settings} {events : List Event} {cube other table : String}

/-- The refreshes of a cube are at stages where they are about tables that stem from it. -/
theorem exists_stage {task : Task} (htask : task ∈ ((fresh settings).run events).tasks)
    (hcall : task.call = .refresh cube) :
    ∃ stage : Stage, task.statements = stage.submitted cube ∧ stage.Checked cube ∧
      stage.Titled cube ∧
      stage.Stemmed cube := by
  have hsound := (stemmed_invariant.run settings events).sound task htask
  obtain ⟨begun, context, stage, rfl, h⟩ := hsound.exists_stage hcall
  exact ⟨stage, Task.statements_refresh cube begun context stage, h⟩

theorem stems_of_creates (h : ((fresh settings).run events).Creates cube table) :
    Stems cube table ∧ Acceptable table := by
  obtain ⟨task, htask, hcall, statement, hstatement, hcreated⟩ := h
  obtain ⟨stage, hstage, hchecked, htitled, hstemmed⟩ := exists_stage htask hcall
  exact hstemmed.of_created hchecked htitled (hstage ▸ hstatement) hcreated

theorem stems_of_drops (h : ((fresh settings).run events).Drops cube table) : Stems cube table := by
  obtain ⟨task, htask, hcall, statement, hstatement, hremoved⟩ := h
  obtain ⟨stage, hstage, -, -, hstemmed⟩ := exists_stage htask hcall
  exact hstemmed.of_removed (hstage ▸ hstatement) hremoved

/-- What a refresh of one cube creates is no matter of refreshes of the other one, before and
after. -/
def KeptApart (cube other : String) : Prop :=
  ∀ settings events earlier later table, earlier <+: events → later <+: events →
    ((fresh settings).run earlier).Creates cube table →
      ¬ ((fresh settings).run later).Creates other table ∧
        ¬ ((fresh settings).run later).Drops other table

/-- A table stems from two cubes only if the name of one ends in that of the other. -/
theorem covers_of_stems (hcube : Stems cube table) (hother : Stems other table)
    (htable : Acceptable table) : Covers cube other ∨ Covers other cube := by
  obtain ⟨hcube, version, before, hbefore, rfl⟩ := hcube
  obtain ⟨hother, later, after, hafter, hsame⟩ := hother
  exact covers_or_covers hcube hother hbefore hafter htable hsame.symm

theorem keptApart_of_not_covers (hcube : ¬ Covers cube other) (hother : ¬ Covers other cube) :
    KeptApart cube other := by
  intro settings events earlier later table _ _ hcreates
  obtain ⟨hstems, htable⟩ := stems_of_creates hcreates
  have hneither : ¬ Stems other table := fun hstems' =>
    (covers_of_stems hstems hstems' htable).elim hcube hother
  exact ⟨fun hcreates' => hneither (stems_of_creates hcreates').1,
    fun hdrops => hneither (stems_of_drops hdrops)⟩

/-! ### A snapshot of both cubes -/

theorem consistent_ofFacts {name table : String} (hname : name ≠ "") (htable : Acceptable table) :
    (Cube.ofFacts name table).Consistent where
  name_ne := hname
  nodup_dimensions := List.nodup_nil
  nodup_measures := List.nodup_nil
  nodup_members := List.nodup_nil
  factTable := htable
  measures := by simp [Cube.ofFacts]
  dimensions := by simp [Cube.ofFacts]
  members := by simp [Cube.ofFacts]

/-- A cube over facts alone is registered under a new name. -/
theorem registered_ofFacts (world : World) {name : String} (hname : name ≠ "")
    (htable : Acceptable table) (hnew : world.engine.catalog.entry? name = none)
    (context : LogContext) :
    (world.next (.call (.register (.ofFacts name table) false)
        context)).engine.catalog.entry? name =
        some ⟨.ofFacts name table, .ofFacts name table, 0, none⟩ ∧
      (world.next (.call (.register (.ofFacts name table) false) context)).engine.locks =
        world.engine.locks ∧
      ∀ other, other ≠ name →
        (world.next (.call (.register (.ofFacts name table) false)
          context)).engine.catalog.entry? other = world.engine.catalog.entry? other := by
  have hcheck := Cube.check_eq_ok_iff.2 (consistent_ofFacts hname htable)
  obtain ⟨catalog, hcatalog⟩ := Catalog.exists_register hcheck hnew false
  obtain ⟨hself, hothers⟩ := Catalog.entry?_register hcatalog
  rw [engine_next_register, Engine.changed, hcatalog]
  refine ⟨?_, rfl, hothers⟩
  rw [show (Cube.ofFacts name table).name = name from rfl, hnew] at hself
  exact hself

/-- A cube over facts alone that is refreshed for the first time has a snapshot of them created. -/
theorem creates_ofFacts (world : World) {name : String} (htable : Acceptable table)
    (hname : Acceptable (snapshotTable name 1 table))
    (hentry : world.engine.catalog.entry? name =
      some ⟨.ofFacts name table, .ofFacts name table, 0, none⟩)
    (hfree : name ∉ world.engine.locks) (context : LogContext) :
    (world.next (.call (.refresh name) context)).Creates name (snapshotTable name 1 table) ∧
      (world.next (.call (.refresh name) context)).engine = world.engine.locked name := by
  have htables : (Cube.ofFacts name table).tables = [table] := rfl
  have hchecked : Procedure.checkSnapshots (snapshotTable name (0 + 1))
      (Cube.ofFacts name table).tables = .ok () := by
    rw [Procedure.checkSnapshots_eq_ok_iff, htables]
    simpa using ⟨htable, hname⟩
  obtain ⟨⟨begun, bound, htask⟩, hengine⟩ := has_called hentry hfree hchecked context
  have hstatement : createStatement (snapshotTable name 1 table) table ∈
      (Stage.procedure name (.creating (.ofFacts name table) (0 + 1) [] table [])).submitted := by
    rw [Stage.submitted_procedure]
    exact List.mem_singleton_self _
  exact ⟨⟨_, List.mem_of_getElem? htask, rfl, _, hstatement,
    Store.created?_createStatement hname.blank_not_mem table⟩, hengine⟩

/-- Two cubes over facts alone are registered and refreshed. -/
def bothRefreshed (cube table other after : String) : List Event :=
  [.call (.register (.ofFacts cube table) false) .empty, .call (.refresh cube) .empty,
   .call (.register (.ofFacts other after) false) .empty, .call (.refresh other) .empty]

/-- If the name of a cube ends in that of another one, there is a run in which refreshes of both
create the same snapshot. -/
theorem exists_created_by_both (h : Covers cube other) :
    ∃ settings events earlier table, earlier <+: events ∧
      ((fresh settings).run earlier).Creates cube table ∧
      ((fresh settings).run events).Creates other table := by
  obtain ⟨after, hafter, hsame⟩ := h.exists_table
  have hshort : Acceptable "t" := ⟨(by decide : identifierStart "t".toList = true), by decide⟩
  have hcube : Acceptable (snapshotTable cube 1 "t") := h.writable
  have hother : Acceptable (snapshotTable other 1 after) := hsame ▸ h.writable
  let events := bothRefreshed cube "t" other after
  let registered := (fresh .standard).run (events.take 1)
  let refreshed := (fresh .standard).run (events.take 2)
  let both := (fresh .standard).run (events.take 3)
  obtain ⟨hentry, hlocks, hothers⟩ : registered.engine.catalog.entry? cube = some _ ∧
      registered.engine.locks = [] ∧ _ :=
    registered_ofFacts (fresh .standard) h.cube_ne hshort rfl .empty
  obtain ⟨hcreates, hengine⟩ :
      refreshed.Creates cube (snapshotTable cube 1 "t") ∧ refreshed.engine = _ :=
    creates_ofFacts registered hshort hcube hentry (by simp [hlocks]) .empty
  by_cases hne : other = cube
  · subst hne
    exact ⟨.standard, _, _, _, List.prefix_refl _, hcreates, hcreates⟩
  · have hnew : refreshed.engine.catalog.entry? other = none := by
      rw [hengine]
      exact hothers other hne
    obtain ⟨hentry', hlocks', -⟩ : both.engine.catalog.entry? other = some _ ∧
        both.engine.locks = refreshed.engine.locks ∧ _ :=
      registered_ofFacts refreshed h.other_ne hafter hnew .empty
    have hfree : other ∉ both.engine.locks := by
      rw [hlocks', hengine, Engine.locked, hlocks]
      simpa using hne
    have hagain := (creates_ofFacts both hafter hother hentry' hfree .empty).1
    rw [hsame] at hagain
    exact ⟨.standard, events, events.take 2, _, List.take_prefix 2 events, hcreates, hagain⟩

theorem not_keptApart_of_covers (h : Covers cube other) : ¬ KeptApart cube other := by
  intro hapart
  obtain ⟨settings, events, earlier, table, hprefix, hcreates, hagain⟩ := exists_created_by_both h
  exact (hapart settings events earlier events table hprefix (List.prefix_refl _) hcreates).1 hagain

/-- A table has the name of a snapshot that a refresh of a cube creates in some run. -/
def Creatable (cube table : String) : Prop :=
  ∃ settings events, ((fresh settings).run events).Creates cube table

theorem exists_creatable_of_covers (h : Covers cube other) :
    ∃ table, Creatable cube table ∧ Creatable other table := by
  obtain ⟨settings, events, earlier, table, -, hcreates, hagain⟩ := exists_created_by_both h
  exact ⟨table, ⟨settings, earlier, hcreates⟩, settings, events, hagain⟩

/-- The names of the snapshots of two cubes are disjoint just if neither name of a cube ends in the
other one, in small letters and after two low lines. Just then no run has a refresh of one cube
create or remove what a refresh of the other one creates. -/
theorem keptApart_iff :
    ((∀ table, Creatable cube table → ¬ Creatable other table) ↔
      ¬ Covers cube other ∧ ¬ Covers other cube) ∧
    (KeptApart cube other ∧ KeptApart other cube ↔ ¬ Covers cube other ∧ ¬ Covers other cube) := by
  constructor
  · constructor
    · intro h
      constructor
      · intro hcovers
        obtain ⟨table, hcube, hother⟩ := exists_creatable_of_covers hcovers
        exact h table hcube hother
      · intro hcovers
        obtain ⟨table, hother, hcube⟩ := exists_creatable_of_covers hcovers
        exact h table hcube hother
    · rintro ⟨hcube, hother⟩ table ⟨_, _, hcreates⟩ ⟨_, _, hcreates'⟩
      obtain ⟨hstems, htable⟩ := stems_of_creates hcreates
      exact (covers_of_stems hstems (stems_of_creates hcreates').1 htable).elim hcube hother
  · constructor
    · rintro ⟨hcube, hother⟩
      exact ⟨fun hcovers => not_keptApart_of_covers hcovers hcube,
        fun hcovers => not_keptApart_of_covers hcovers hother⟩
    · rintro ⟨hcube, hother⟩
      exact ⟨keptApart_of_not_covers hcube hother, keptApart_of_not_covers hother hcube⟩

/-- Two cubes may share a snapshot: their names differ in the size of a letter alone. -/
theorem exists_not_keptApart : ¬ ∀ cube other : String, cube ≠ other → KeptApart cube other := by
  intro h
  have hidentifier : identifierStart (snapshotTable "sales" 1 "t").toList = true := by
    decide +kernel
  have hwritable : Writable "sales" := ⟨hidentifier, by decide +kernel⟩
  have hcovers : Covers "sales" "Sales" :=
    ⟨by decide, by decide, hwritable, "", by decide, by decide +kernel⟩
  exact not_keptApart_of_covers hcovers (h "sales" "Sales" (by decide))

end World

end StarCube
