import StarCube.Proofs.Engine.Steps

/-!
Snapshots that are left over. A refresh of its own succeeds just if the store has no table of the
name of a snapshot that it is going to create. Such a table is one that has been stranded: a fault
has prevented a refresh that failed from removing it, or it was there when the cube was unregistered
and its versions began anew. Snapshots that are no longer needed and stay because of a fault do no
harm.
-/

namespace StarCube

namespace Site

variable {site after : Site} {cube : String} {act : Act} {stage? next? : Option Stage}

/-! ### How snapshots are stranded -/

/-- An act leaves a snapshot of a cube behind whose version is still to come: the cube is
unregistered, or a fault prevents the removal by a refresh that has failed. -/
def Strands (cube : String) (version : Int) (before : String) (site : Site) (act : Act) : Prop :=
  snapshotTable cube version before ∈ (site.next act).tables ∧
    ((∃ context, act = .call (.unregister cube) context ∧
        ∃ entry, site.world.engine.catalog.entry? cube = some entry) ∨
      ∃ task fault, act = .perform task (some fault) ∧
        dropStatement (snapshotTable cube version before) ∈ site.statements task ∧
        site.version cube < version)

/-- Some act of a list leaves a snapshot behind. -/
def Stranded (cube : String) (version : Int) (before : String) : Site → List Act → Prop
  | _, [] => False
  | site, act :: rest =>
      site.Strands cube version before act ∨ (site.next act).Stranded cube version before rest

/-- Snapshots of versions to come are among those left behind, or a refresh has just made them. -/
def Leaves (site : Site) (cube : String) (stage? : Option Stage) (left : Int → String → Prop) :
    Prop :=
  ∀ version before, snapshotTable cube version before ∈ site.tables → site.version cube < version →
    left version before ∨ snapshotTable cube version before ∈ Stage.made stage?

section Leaves

variable {left : Int → String → Prop}

theorem Leaves.mono {left' : Int → String → Prop} (h : site.Leaves cube stage? left)
    (hleft : ∀ version before, left version before → left' version before) :
    site.Leaves cube stage? left' :=
  fun version before hmem hlater => (h version before hmem hlater).imp_left (hleft version before)

/-- While the version stays, no more is left behind if all that is new has just been made. -/
theorem Leaves.of_version_eq (h : site.Leaves cube stage? left)
    (hversion : after.version cube = site.version cube)
    (htables : ∀ version before, snapshotTable cube version before ∈ after.tables →
      snapshotTable cube version before ∈ site.tables ∧
          (snapshotTable cube version before ∈ Stage.made stage? →
            snapshotTable cube version before ∈ Stage.made next?) ∨
        snapshotTable cube version before ∈ Stage.made next?) :
    after.Leaves cube next? left := by
  intro version before hmem hlater
  rw [hversion] at hlater
  rcases htables version before hmem with ⟨hold, hmade⟩ | hnew
  · exact (h version before hold hlater).imp id hmade
  · exact .inr hnew

/-- What has been made are snapshots of the version that is published, so they are not to come. -/
theorem Leaves.of_published {source : Cube} {built : Int} {created : List String} {table : String}
    (h : site.Leaves cube (some (.creating source built created table [])) left)
    (hmade : created ++ [snapshotTable cube built table] =
      source.tables.map (snapshotTable cube built))
    (hbuilt : site.version cube < built) (hreached : after.version cube = built)
    (htables : after.tables = snapshotTable cube built table :: site.tables) :
    after.Leaves cube next? left := by
  intro version before hmem hlater
  rw [hreached] at hlater
  have hnew : snapshotTable cube version before ∉ created ++ [snapshotTable cube built table] := by
    rw [hmade]
    intro hmem
    obtain ⟨other, -, hsame⟩ := List.mem_map.1 hmem
    have hversion := version_eq_of_snapshotTable_eq hsame
    omega
  rw [htables] at hmem
  rcases List.mem_cons.1 hmem with htable | hold
  · exact absurd (by simp [htable]) hnew
  · rcases h version before hold (by omega) with hleft | hcreated
    · exact .inl hleft
    · exact absurd (List.mem_append_left _ hcreated) hnew

/-- A clean-up leaves behind what a fault keeps it from removing. -/
theorem Leaves.of_cleaned {task : Nat} {fault : Option Fault} {built : Int} {created : List String}
    {failure : Failure} (h : site.Leaves cube (some (.cleaning built created failure)) left)
    (hversion : (site.next (.perform task fault)).version cube = site.version cube)
    (hwaited : site.statements task = created.map dropStatement)
    (htables : (site.next (.perform task fault)).tables =
      Store.perform site.tables (created.map dropStatement) fault) :
    (site.next (.perform task fault)).Leaves cube none fun version before =>
      left version before ∨ site.Strands cube version before (.perform task fault) := by
  intro version before hmem hlater
  rw [hversion] at hlater
  have hperformed := hmem
  rw [htables] at hperformed
  rcases h version before (Store.of_mem_perform_drops hperformed) hlater with hleft | hcreated
  · exact .inl (.inl hleft)
  · cases fault with
    | none => exact absurd hcreated (Store.mem_perform_drops.1 hperformed).2
    | some fault =>
        refine .inl (.inr ⟨hmem, .inr ⟨task, fault, rfl, ?_, hlater⟩⟩)
        rw [hwaited]
        exact List.mem_map_of_mem hcreated

/-- Each step for a cube leaves no more behind than it strands. -/
theorem Leaves.next (h : site.Leaves cube stage? left)
    (hsteps : Steps cube site (site.next act) act stage? next?) :
    (site.next act).Leaves cube next? fun version before =>
      left version before ∨ site.Strands cube version before act := by
  have hleft : ∀ version before, left version before →
      left version before ∨ site.Strands cube version before act := fun _ _ => .inl
  cases hsteps with
  | passes act stage? steady tables =>
      refine (h.of_version_eq steady.version fun version before hmem => ?_).mono hleft
      exact .inl ⟨(tables _ ⟨version, before, rfl⟩).1 hmem, id⟩
  | forgets context stage? registered settings retired zero tables =>
      intro version before hmem _
      exact .inl (.inr ⟨hmem, .inl ⟨context, rfl, registered⟩⟩)
  | enters act source steady tables =>
      refine (h.of_version_eq steady.version fun version before hmem => ?_).mono hleft
      exact .inl ⟨(tables _ ⟨version, before, rfl⟩).1 hmem, id⟩
  | creates task source built created table next rest steady tables =>
      refine (h.of_version_eq steady.version fun version before hmem => ?_).mono hleft
      rw [tables] at hmem
      rcases List.mem_cons.1 hmem with hnew | hold
      · exact .inr (by simp [Stage.made, hnew])
      · exact .inl ⟨hold, fun hmade => List.mem_append_left _ hmade⟩
  | fails task fault source built created table rest next? steady tables next =>
      refine (h.of_version_eq steady.version fun version before hmem => ?_).mono hleft
      rcases tables with ⟨hmade, htables⟩ | ⟨hmade, htables⟩ <;> rw [htables] at hmem <;> rw [hmade]
      · exact .inl ⟨hmem, id⟩
      · rcases List.mem_cons.1 hmem with hnew | hold
        · exact .inr (by simp [hnew])
        · exact .inl ⟨hold, fun hcreated => List.mem_append_left _ hcreated⟩
  | publishes task source built created table next? settings made later reached published due held
      tables next =>
      exact (h.of_published made later reached tables).mono hleft
  | cleans task fault built created failure steady waited tables =>
      exact h.of_cleaned steady.version waited tables
  | expires task fault built idle steady waited tables =>
      refine (h.of_version_eq steady.version fun version before hmem => ?_).mono hleft
      rw [tables] at hmem
      exact .inl ⟨Store.of_mem_perform_drops hmem, id⟩

end Leaves

/-- What a run leaves behind it has stranded. -/
theorem Leaves.run {left : Int → String → Prop} {acts : List Act} (htended : site.Tended cube)
    (hacts : ∀ act ∈ acts, CallsApart cube act) (hat : site.world.At cube stage?)
    (h : site.Leaves cube stage? left) :
    (site.run acts).Tended cube ∧ ∃ next?, (site.run acts).world.At cube next? ∧
      (site.run acts).Leaves cube next? fun version before =>
        left version before ∨ site.Stranded cube version before acts := by
  induction acts generalizing site stage? left with
  | nil =>
      refine ⟨htended, stage?, hat, fun version before hmem hlater => ?_⟩
      exact (h version before hmem hlater).imp .inl id
  | cons act rest ih =>
      rw [List.forall_mem_cons] at hacts
      obtain ⟨next?, hnext, hsteps⟩ := htended.steps hat act
      obtain ⟨hend, last?, hlast, hleaves⟩ :=
        ih (htended.next hacts.1) hacts.2 hnext (h.next hsteps)
      refine ⟨hend, last?, hlast, fun version before hmem hlater => ?_⟩
      exact (hleaves version before hmem hlater).imp or_assoc.1 id

/-- While no refresh of a cube has its turn, the snapshots of versions to come were in the store
from the start or have been stranded. -/
theorem mem_tables_or_stranded {settings : Settings} {tables : List String} {acts : List Act}
    (hacts : ∀ act ∈ acts, CallsApart cube act) (hsite : site = (fresh settings tables).run acts)
    (hfree : cube ∉ site.world.engine.locks) {version : Int} {before : String}
    (hmem : snapshotTable cube version before ∈ site.tables)
    (hlater : site.version cube < version) :
    snapshotTable cube version before ∈ tables ∨
      (fresh settings tables).Stranded cube version before acts := by
  have hat : (fresh settings tables).world.At cube none := by simp [World.At, fresh, World.fresh]
  have hleaves : (fresh settings tables).Leaves cube none
      fun version before => snapshotTable cube version before ∈ tables :=
    fun version before hmem _ => .inl hmem
  obtain ⟨htended, last?, hlast, hleft⟩ :=
    hleaves.run (tended_fresh settings tables cube) hacts hat
  rw [← hsite] at htended hlast hleft
  obtain rfl := hlast.eq_none ((htended.inOrder.exclusive cube).at_none hfree)
  rcases hleft version before hmem hlater with hleft | hmade
  · exact hleft
  · cases hmade

/-! ### A refresh of its own -/

/-- The store, which works, answers a task. `failure` is what it says when it refuses. -/
def serve (failure : Failure) (index : Nat) (site : Site) : Site :=
  site.next (.perform index (Store.conflict? failure site.tables (site.statements index)))

/-- The store answers a task again and again. -/
def served (failure : Failure) (index : Nat) : Nat → Site → Site
  | 0, site => site
  | count + 1, site => served failure index count (site.serve failure index)

/-- A refresh is called, and the store answers as often as a refresh of so many tables may ask. -/
def refreshed (site : Site) (cube : String) (context : LogContext) (failure : Failure)
    (tables : Nat) : Site :=
  served failure site.world.tasks.length (tables + 1) (site.next (.call (.refresh cube) context))

/-- How a refresh has ended, if it is over. -/
def outcome? (site : Site) (index : Nat) : Option (String × Except Failure Int) :=
  site.world.tasks[index]?.bind Task.ended?

section Served

variable (failure : Failure) {index : Nat}

theorem outcome?_of_has {outcome : Except Failure Int}
    (h : site.world.Has index cube (.ended outcome)) :
    site.outcome? index = some (cube, outcome) := by
  obtain ⟨begun, context, hindex⟩ := h
  rw [outcome?, hindex, Option.bind_some]
  exact Task.ended?_eq_some_iff.2 ⟨rfl, rfl⟩

/-- A refresh that is over stays so. -/
theorem served_ended {outcome : Except Failure Int}
    (h : site.world.Has index cube (.ended outcome)) (count : Nat) :
    (served failure index count site).world.Has index cube (.ended outcome) := by
  induction count generalizing site with
  | zero => exact h
  | succ count ih =>
      apply ih
      obtain ⟨begun, context, hindex⟩ := h
      have hmoved : ∀ result, site.world.moved (.signal index (.acknowledge result)) = none := by
        intro result
        simp only [World.moved, hindex]
        rfl
      show (site.world.next _).Has index cube _
      rw [World.next_eq_self (hmoved _)]
      exact ⟨begun, context, hindex⟩

/-- A refresh that removes tables is over once it has been answered. -/
theorem served_removing {stage : Stage} {outcome : Except Failure Int}
    (h : site.world.Has index cube stage) (hactive : stage.active = true)
    (hends : ∀ result, (Stage.acknowledge cube site.world.engine result stage).2 = .ended outcome)
    (count : Nat) :
    (served failure index (count + 1) site).world.Has index cube (.ended outcome) := by
  have hafter := (has_perform h hactive
    (Store.conflict? failure site.tables (site.statements index))).1
  rw [hends] at hafter
  exact @served_ended (site.serve failure index) cube failure index outcome hafter count

/-- A refresh that gives up ends with its failure. -/
theorem served_rollBack {engine : Engine} {version : Int} {made : List String} {reason : Failure}
    (h : site.world.Has index cube (Stage.rollBack cube engine version made reason).2)
    (count : Nat) :
    (served failure index (count + 1) site).world.Has index cube
      (.ended (.error (.refresh cube reason))) := by
  unfold Stage.rollBack at h
  split at h
  · exact served_ended failure h _
  · exact served_removing failure h rfl (fun _ => rfl) count

/-- A refresh that has published ends with its version. -/
theorem served_expire {engine : Engine} {source : Cube} {version : Int}
    (h : site.world.Has index cube (Stage.expire cube engine source version).2) (count : Nat) :
    (served failure index (count + 1) site).world.Has index cube (.ended (.ok version)) := by
  simp only [Stage.expire] at h
  split at h
  · exact served_ended failure h _
  · exact served_removing failure h rfl (fun _ => rfl) count

section Creating

variable {source : Cube} {version : Int} {created : List String} {table : String}
  {rest : List String}
  (h : site.world.Has index cube (.creating source version created table rest))
  (hname : Acceptable (snapshotTable cube version table))

include h hname

/-- A snapshot is refused if there is a table of its name. -/
theorem serve_of_mem (hmem : snapshotTable cube version table ∈ site.tables) :
    (site.serve failure index).world.Has index cube
      (Stage.rollBack cube site.world.engine version created failure).2 := by
  have hconflict : Store.conflict? failure site.tables (site.statements index) =
      some ⟨0, failure⟩ := by
    rw [statements_of_has h, Stage.submitted, Store.conflict?_create hname.blank_not_mem,
      if_pos hmem]
  rw [serve, hconflict]
  exact (has_perform h rfl _).1

/-- A snapshot is created if there is no table of its name. -/
theorem serve_of_not_mem (hmem : snapshotTable cube version table ∉ site.tables) :
    (site.serve failure index).world.Has index cube
        (Stage.acknowledge cube site.world.engine (.ok ())
          (.creating source version created table rest)).2 ∧
      (site.serve failure index).world.engine =
        (Stage.acknowledge cube site.world.engine (.ok ())
          (.creating source version created table rest)).1 ∧
      (site.serve failure index).tables = snapshotTable cube version table :: site.tables := by
  have hconflict : Store.conflict? failure site.tables (site.statements index) = none := by
    rw [statements_of_has h, Stage.submitted, Store.conflict?_create hname.blank_not_mem,
      if_neg hmem]
  obtain ⟨hafter, hengine, htables⟩ := has_perform h rfl none
  rw [serve, hconflict]
  exact ⟨hafter, hengine, htables.trans (Store.perform_create hname.blank_not_mem _ _)⟩

end Creating

/-- A refresh that creates snapshots succeeds just if there is no table of the name of any of
them. -/
theorem served_creating {source : Cube} {version : Int} {created : List String} {table : String}
    {rest : List String}
    (h : site.world.Has index cube (.creating source version created table rest))
    {entry : CatalogEntry} (hentry : site.world.engine.catalog.entry? cube = some entry)
    (hnewer : entry.version < version) (hnodup : (table :: rest).Nodup)
    (hnames : ∀ before ∈ table :: rest, Acceptable (snapshotTable cube version before)) :
    ∃ outcome, (served failure index (rest.length + 2) site).world.Has index cube
        (.ended outcome) ∧
      (outcome = .ok version ↔ ∀ before ∈ table :: rest,
        snapshotTable cube version before ∉ site.tables) := by
  induction rest generalizing site created table with
  | nil =>
      have hname := hnames table List.mem_cons_self
      by_cases hmem : snapshotTable cube version table ∈ site.tables
      · have hafter := served_rollBack failure (serve_of_mem failure h hname hmem) 0
        refine ⟨_, hafter, iff_of_false (by simp) fun hfree => ?_⟩
        exact hfree table List.mem_cons_self hmem
      · have hafter := (serve_of_not_mem failure h hname hmem).1
        obtain ⟨catalog, hcatalog⟩ := Catalog.exists_publish hentry hnewer
          (source.renameTables (snapshotTable cube version))
        simp only [Stage.acknowledge, Stage.publish, hcatalog] at hafter
        refine ⟨_, served_expire failure hafter 0, iff_of_true rfl ?_⟩
        rwa [List.forall_mem_singleton]
  | cons next rest ih =>
      have hname := hnames table List.mem_cons_self
      by_cases hmem : snapshotTable cube version table ∈ site.tables
      · have hafter := served_rollBack failure (serve_of_mem failure h hname hmem) (rest.length + 1)
        refine ⟨_, hafter, iff_of_false (by simp) fun hfree => ?_⟩
        exact hfree table List.mem_cons_self hmem
      · obtain ⟨hafter, hengine, htables⟩ := serve_of_not_mem failure h hname hmem
        obtain ⟨outcome, hover, hiff⟩ := ih hafter (by rw [hengine]; exact hentry) hnodup.tail
          fun before hbefore => hnames before (List.mem_cons_of_mem _ hbefore)
        refine ⟨outcome, hover, hiff.trans ?_⟩
        rw [@List.forall_mem_cons _ _ table, and_iff_right hmem, htables]
        refine forall₂_congr fun before hbefore => ?_
        -- The snapshot that has just been made is none of those to be made.
        have hne : snapshotTable cube version before ≠ snapshotTable cube version table := by
          intro hsame
          obtain rfl := snapshotTable_injective cube version hsame
          exact (List.nodup_cons.1 hnodup).1 hbefore
        rw [List.mem_cons, or_iff_right hne]

end Served

/-- A refresh that is called while no other has its turn begins to create snapshots of the next
version. -/
theorem has_called {entry : CatalogEntry}
    (hentry : site.world.engine.catalog.entry? cube = some entry)
    (hfree : cube ∉ site.world.engine.locks)
    (hchecked : Procedure.checkSnapshots (snapshotTable cube (entry.version + 1))
      entry.source.tables =
      .ok ()) (context : LogContext) :
    (site.next (.call (.refresh cube) context)).world.Has site.world.tasks.length cube
        (.creating entry.source (entry.version + 1) [] entry.source.factTable
          entry.source.tables.tail) ∧
      (site.next (.call (.refresh cube) context)).world.engine = site.world.engine.locked cube :=
  World.has_called hentry hfree hchecked context

/-- After any history of a site, in which other cubes may take part whose snapshots have other
names: a refresh of the cube that is called while no other has its turn, of a store that works, is
over after as many answers as it has tables and one. It succeeds just if the store has no table of
the name of one of its snapshots; and if it has one, that was there from the start or has been
stranded. -/
theorem refreshed_iff {settings : Settings} {tables : List String} {cube : String} {acts : List Act}
    (hacts : ∀ act ∈ acts, CallsApart cube act) {site : Site}
    (hsite : site = (fresh settings tables).run acts) {entry : CatalogEntry}
    (hentry : site.world.engine.catalog.entry? cube = some entry)
    (hfree : cube ∉ site.world.engine.locks)
    (hchecked : Procedure.checkSnapshots (snapshotTable cube (entry.version + 1))
      entry.source.tables =
      .ok ()) (context : LogContext) (failure : Failure) :
    (∃ outcome, (site.refreshed cube context failure entry.source.tables.length).outcome?
        site.world.tasks.length = some (cube, outcome) ∧
      (outcome = .ok (entry.version + 1) ↔ ∀ before ∈ entry.source.tables,
        snapshotTable cube (entry.version + 1) before ∉ site.tables)) ∧
    ∀ before, snapshotTable cube (entry.version + 1) before ∈ site.tables →
      snapshotTable cube (entry.version + 1) before ∈ tables ∨
        (fresh settings tables).Stranded cube (entry.version + 1) before acts := by
  have hversion : site.version cube = entry.version := Catalog.version_of_entry hentry
  constructor
  · obtain ⟨hcalled, hengine⟩ := has_called hentry hfree hchecked context
    have hnames : ∀ before ∈ entry.source.factTable :: entry.source.tables.tail,
        Acceptable (snapshotTable cube (entry.version + 1) before) := by
      rw [← Cube.tables_eq_cons]
      exact fun before hbefore => (Procedure.checkSnapshots_eq_ok_iff.1 hchecked before hbefore).2
    have hnodup : (entry.source.factTable :: entry.source.tables.tail).Nodup := by
      rw [← Cube.tables_eq_cons]
      exact entry.source.nodup_tables
    obtain ⟨outcome, hover, hiff⟩ := served_creating failure hcalled (by rw [hengine]; exact hentry)
      (Int.lt_succ _) hnodup hnames
    rw [← Cube.tables_eq_cons] at hiff
    refine ⟨outcome, ?_, hiff⟩
    have hlength : entry.source.tables.length + 1 = entry.source.tables.tail.length + 2 := by
      rw [Cube.tables_eq_cons]
      rfl
    rw [refreshed, hlength]
    exact outcome?_of_has hover
  · exact fun before hmem => mem_tables_or_stranded hacts hsite hfree hmem (by omega)

/-- A cube is refreshed three times, and the snapshot that is no longer kept cannot be removed. -/
def leftBehind : List Act :=
  [.call (.register (.ofFacts "sales" "facts") false) .empty,
   .call (.refresh "sales") .empty, .perform 1 none,
   .call (.refresh "sales") .empty, .perform 2 none,
   .call (.refresh "sales") .empty, .perform 3 none, .perform 3 (some ⟨0, .store (.timeout "")⟩)]

/-- It stays in the store, and the next refresh succeeds. -/
theorem refreshed_leftBehind :
    "facts__sales_v1" ∈ ((fresh .standard ["facts"]).run leftBehind).tables ∧
      (((fresh .standard ["facts"]).run leftBehind).refreshed "sales" .empty
        (.store (.timeout "")) 1).outcome? 4 = some ("sales", .ok 4) := by
  have hacts : ∀ act ∈ leftBehind, CallsApart "sales" act := by simp [leftBehind, CallsApart]
  have hentry : ((fresh .standard ["facts"]).run leftBehind).world.engine.catalog.entry? "sales" =
      some ⟨.ofFacts "sales" "facts", .ofFacts "sales" "facts__sales_v3", 3, some ⟨2⟩⟩ := by
    decide +kernel
  have hfree : "sales" ∉ ((fresh .standard ["facts"]).run leftBehind).world.engine.locks := by
    decide +kernel
  have hchecked : Procedure.checkSnapshots (snapshotTable "sales" (3 + 1))
      (Cube.ofFacts "sales" "facts").tables = .ok () := rfl
  obtain ⟨⟨outcome, houtcome, hiff⟩, -⟩ :=
    refreshed_iff hacts rfl hentry hfree hchecked .empty (.store (.timeout ""))
  have hcalls : ((fresh .standard ["facts"]).run leftBehind).world.tasks.length = 4 := by
    decide +kernel
  obtain rfl := hiff.2 (by decide +kernel)
  rw [hcalls] at houtcome
  exact ⟨by decide +kernel, houtcome⟩

/-- A cube is refreshed, unregistered and registered anew. -/
def registeredAnew : List Act :=
  [.call (.register (.ofFacts "sales" "facts") false) .empty,
   .call (.refresh "sales") .empty, .perform 1 none,
   .call (.unregister "sales") .empty,
   .call (.register (.ofFacts "sales" "facts") false) .empty]

/-- Its versions begin anew, and the snapshot that is there prevents every refresh. -/
theorem exists_blocked :
    ¬ ∀ (settings : Settings) (tables : List String) (cube : String) (acts : List Act),
      (∀ table ∈ tables, ¬ IsSnapshot cube table) → (∀ act ∈ acts, CallsApart cube act) →
      ((fresh settings tables).run acts).world.engine.leases = [] →
      cube ∉ ((fresh settings tables).run acts).world.engine.locks →
      ∀ entry, ((fresh settings tables).run acts).world.engine.catalog.entry? cube = some entry →
      Procedure.checkSnapshots (snapshotTable cube (entry.version + 1)) entry.source.tables =
        .ok () →
      ∀ context failure,
        (((fresh settings tables).run acts).refreshed cube context failure
            entry.source.tables.length).outcome?
          ((fresh settings tables).run acts).world.tasks.length =
            some (cube, .ok (entry.version + 1)) := by
  intro h
  have hentry : ((fresh .standard []).run registeredAnew).world.engine.catalog.entry? "sales" =
      some ⟨.ofFacts "sales" "facts", .ofFacts "sales" "facts", 0, none⟩ := by decide +kernel
  have hsucceeds := h .standard [] "sales" registeredAnew (by simp)
    (by simp [registeredAnew, CallsApart])
    (by decide +kernel) (by decide +kernel) _ hentry rfl .empty (.store (.timeout ""))
  have hfails : ((((fresh .standard []).run registeredAnew).refreshed "sales" .empty
      (.store (.timeout "")) 1).outcome? 4).map (fun ended => ended.2.toOption) = some none := by
    decide +kernel
  have hsome := congrArg (Option.map fun ended => ended.2.toOption) hsucceeds
  exact absurd (hfails.symm.trans hsome) (by simp [Except.toOption])

end Site

end StarCube
