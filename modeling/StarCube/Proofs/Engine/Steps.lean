import StarCube.Proofs.Engine.Course

/-!
What an act does for a cube. Whatever happens at an engine and its store, for one cube it is one of
few steps of the refresh that has its turn: all else leaves the version of the cube, its retired
tables and its snapshots alone, unless the cube is unregistered.
-/

namespace StarCube

namespace Site

variable {site : Site}

/-- What a cube is published as. -/
def published (site : Site) (cube : String) : Option Cube :=
  (site.world.engine.catalog.entry? cube).map CatalogEntry.published

/-- The version of a cube and its retired tables stay as they are. -/
structure Steady (cube : String) (before after : Site) : Prop where
  settings : after.world.engine.settings = before.world.engine.settings
  version : after.version cube = before.version cube
  retired : after.world.engine.retiredTables cube = before.world.engine.retiredTables cube

/-- The same snapshots of a cube are there. -/
def SameSnapshots (cube : String) (before after : Site) : Prop :=
  ∀ table, IsSnapshot cube table → (table ∈ after.tables ↔ table ∈ before.tables)

/-- What an act does for a cube, with the stage of the refresh that has its turn before it and
after. -/
inductive Steps (cube : String) (before after : Site) : Act → Option Stage → Option Stage → Prop
  | passes (act : Act) (stage? : Option Stage) (steady : before.Steady cube after)
      (tables : before.SameSnapshots cube after) : Steps cube before after act stage? stage?
  | forgets (context : LogContext) (stage? : Option Stage)
      (registered : ∃ entry, before.world.engine.catalog.entry? cube = some entry)
      (settings : after.world.engine.settings = before.world.engine.settings)
      (retired : after.world.engine.retiredTables cube = before.world.engine.retiredTables cube)
      (zero : after.version cube = 0) (tables : before.SameSnapshots cube after) :
      Steps cube before after (.call (.unregister cube) context) stage? stage?
  | enters (act : Act) (source : Cube) (steady : before.Steady cube after)
      (tables : before.SameSnapshots cube after) :
      Steps cube before after act none
        (some (.creating source (before.version cube + 1) [] source.factTable source.tables.tail))
  | creates (task : Nat) (source : Cube) (version : Int) (created : List String)
      (table next : String)
      (rest : List String) (steady : before.Steady cube after)
      (tables : after.tables = snapshotTable cube version table :: before.tables) :
      Steps cube before after (.perform task none)
        (some (.creating source version created table (next :: rest)))
        (some (.creating source version (created ++ [snapshotTable cube version table]) next rest))
  /-- A snapshot is not created, or the snapshots are not published. -/
  | fails (task : Nat) (fault : Option Fault) (source : Cube) (version : Int)
      (created : List String)
      (table : String) (rest : List String) (next? : Option Stage)
      (steady : before.Steady cube after)
      (tables : Stage.made next? = created ∧ after.tables = before.tables ∨
        Stage.made next? = created ++ [snapshotTable cube version table] ∧
          after.tables = snapshotTable cube version table :: before.tables)
      (next : next? = none ∨ ∃ made failure, next? = some (.cleaning version made failure)) :
      Steps cube before after (.perform task fault)
        (some (.creating source version created table rest)) next?
  | publishes (task : Nat) (source : Cube) (version : Int) (created : List String) (table : String)
      (next? : Option Stage)
      (settings : after.world.engine.settings = before.world.engine.settings)
      (made : created ++ [snapshotTable cube version table] =
        source.tables.map (snapshotTable cube version))
      (later : before.version cube < version) (reached : after.version cube = version)
      (published : after.published cube = some (source.renameTables (snapshotTable cube version)))
      (due : ∀ table, table ∈ after.world.engine.retiredTables cube ∨ table ∈ Stage.going next? ↔
        table ∈ before.world.engine.retiredTables cube ∨
          1 ≤ version - after.world.engine.settings.refreshKeepVersions ∧ ∃ old ∈ source.tables,
            snapshotTable cube (version - after.world.engine.settings.refreshKeepVersions) old =
              table)
      (held : ∀ table ∈ after.world.engine.retiredTables cube,
        ∃ lease ∈ after.world.engine.leases, table ∈ lease)
      (tables : after.tables = snapshotTable cube version table :: before.tables)
      (next : next? = none ∨ ∃ idle, next? = some (.expiring version idle)) :
      Steps cube before after (.perform task none)
        (some (.creating source version created table [])) next?
  | cleans (task : Nat) (fault : Option Fault) (version : Int) (created : List String)
      (failure : Failure) (steady : before.Steady cube after)
      (waited : before.statements task = created.map dropStatement)
      (tables : after.tables = Store.perform before.tables (created.map dropStatement) fault) :
      Steps cube before after (.perform task fault) (some (.cleaning version created failure)) none
  | expires (task : Nat) (fault : Option Fault) (version : Int) (idle : List String)
      (steady : before.Steady cube after)
      (waited : before.statements task = idle.map dropStatement)
      (tables : after.tables = Store.perform before.tables (idle.map dropStatement) fault) :
      Steps cube before after (.perform task fault) (some (.expiring version idle)) none

/-- Refreshes are in order, and only of the cube and of cubes whose snapshots have other names. -/
structure Tended (site : Site) (cube : String) : Prop where
  inOrder : site.world.InOrder
  apart : ∀ task ∈ site.world.tasks, ∀ other, task.call = .refresh other →
    other = cube ∨ NamesApart cube other

/-- A call of a refresh is one of the cube or of a cube whose snapshots have other names. -/
def CallsApart (cube : String) : Act → Prop
  | .call (.refresh other) _ => other = cube ∨ NamesApart cube other
  | _ => True

variable {cube : String} {act : Act} {event : Event} {engine : Engine} {task : Task}
  {stage? : Option Stage}

theorem tended_fresh (settings : Settings) (tables : List String) (cube : String) :
    (fresh settings tables).Tended cube :=
  ⟨World.inOrder_fresh settings, by simp [fresh, World.fresh]⟩

theorem Tended.next (h : site.Tended cube) (hact : CallsApart cube act) :
    (site.next act).Tended cube := by
  refine ⟨inOrder_next h.inOrder act, ?_⟩
  cases hevent : act.event? with
  | none =>
      cases act with
      | lease tables => exact h.apart
      | release tables => exact h.apart
      | _ => cases hevent
  | some event =>
      rw [world_next hevent]
      intro task htask other hcall
      rcases World.mem_tasks_next htask with hold | ⟨engine, hmoved⟩
      · exact h.apart task hold other hcall
      · rcases World.call_of_moved hmoved with ⟨context, rfl⟩ | ⟨before, hbefore, hsame⟩
        · obtain rfl := Act.eq_call_of_event? hevent
          rw [hcall] at hact
          exact hact
        · exact h.apart before (List.mem_of_getElem? hbefore) other (hsame.trans hcall)

/-- What a refresh without a turn, or one of another cube, waits for is not about snapshots of the
cube. -/
theorem Tended.not_about (h : site.Tended cube) {index : Nat}
    (hidle : ∀ task, site.world.tasks[index]? = some task → ¬ task.HasTurn cube) {table : String}
    (htable : IsSnapshot cube table) :
    ∀ statement ∈ site.statements index, ¬ Store.About table statement := by
  intro statement hstatement habout
  unfold statements at hstatement
  cases htask : site.world.tasks[index]? with
  | none => simp [htask] at hstatement
  | some task =>
      have hmem := List.mem_of_getElem? htask
      rw [htask, Option.map_some, Option.getD_some] at hstatement
      cases h.inOrder.sound task hmem with
      | registered definition replace begun context outcome => cases hstatement
      | unregistered name begun context outcome => cases hstatement
      | reading operation begun context rest hreads => cases hstatement
      | refreshing other begun context stage hnamed =>
          have hstatement : statement ∈ stage.submitted other := by
            rw [← Stage.submitted_procedure]
            exact hstatement
          have hother := hnamed.isSnapshot_of_about hstatement habout
          rcases h.apart _ hmem other rfl with rfl | hapart
          · have hactive := Stage.active_of_mem_submitted hstatement
            exact hidle _ htask (Task.hasTurn_iff.2 ⟨rfl, hactive⟩)
          · exact hapart table htable hother

/-- An act that lets no task go on. -/
theorem steps_of_still (hworld : (site.next act).world = site.world)
    (htables : site.SameSnapshots cube (site.next act))
    (hat : site.world.At cube stage?) :
    ∃ next?, (site.next act).world.At cube next? ∧
      Steps cube site (site.next act) act stage? next? := by
  refine ⟨stage?, by rwa [hworld], .passes act stage? ⟨by rw [hworld], ?_, by rw [hworld]⟩ htables⟩
  simp only [version, hworld]

section Quiet

/-! An act that lets no refresh of the cube go on that has its turn. -/

variable (hevent : act.event? = some event)
  (htables : site.SameSnapshots cube (site.next act))
  (hidle : ∀ before, site.world.tasks[site.world.place event]? = some before →
    ¬ before.HasTurn cube)
  (hat : site.world.At cube stage?)

include hevent htables hidle hat

/-- A task that does not come to its turn changes nothing of the cube. -/
theorem steps_of_idle (hmoved : site.world.moved event = some (engine, task))
    (htask : ¬ task.HasTurn cube) (hsettings : engine.settings = site.world.engine.settings)
    (hretired : engine.retiredTables cube = site.world.engine.retiredTables cube)
    (hversion : engine.catalog.version cube = site.version cube) :
    ∃ next?, (site.next act).world.At cube next? ∧
      Steps cube site (site.next act) act stage? next? := by
  have hworld : (site.next act).world = site.world.next event := world_next hevent
  refine ⟨stage?, ?_, .passes act stage? ⟨?_, ?_, ?_⟩ htables⟩
  · rw [hworld]
    exact hat.of_idle hmoved htask hidle
  · rw [hworld, World.engine_next hmoved, hsettings]
  · rw [version, hworld, World.engine_next hmoved, hversion]
  · rw [hworld, World.engine_next hmoved, hretired]

/-- A refresh that comes from no turn waits on, ends or has its turn. -/
theorem steps_of_goes (hexclusive : site.world.Exclusive cube) {other : String} {begun : Engine}
    {context : LogContext} {stage next : Stage}
    (hmoved : site.world.moved event =
      some (engine, ⟨.refresh other, begun, context, next.procedure other⟩))
    (hgoes : Stage.Goes other site.world.engine stage engine next)
    (hstage : other = cube → stage.active = false) :
    ∃ next?, (site.next act).world.At cube next? ∧
      Steps cube site (site.next act) act stage? next? := by
  by_cases hcube : other = cube
  · subst hcube
    have hended : next.active = false → engine = site.world.engine →
        ∃ next?, (site.next act).world.At other next? ∧
          Steps other site (site.next act) act stage? next? := by
      rintro hnext rfl
      apply steps_of_idle hevent htables hidle hat hmoved _ rfl rfl rfl
      rw [Task.hasTurn_iff]
      simp [hnext]
    have hstage := hstage rfl
    cases hgoes with
    | waits source busy => exact hended rfl rfl
    | refused source failure => exact hended rfl rfl
    | enters source entry free registered checked =>
        obtain rfl := hat.eq_none (hexclusive.at_none free)
        have hworld : (site.next act).world = site.world.next event := world_next hevent
        have hversion : site.version other = entry.version := Catalog.version_of_entry registered
        have hplanned := Stage.planned_start
          fun before hbefore => (Procedure.checkSnapshots_eq_ok_iff.1 checked before hbefore).2
        have hnext := World.at_lasting hmoved hplanned
          fun i task _ htask hturn => hat task (List.mem_of_getElem? htask) hturn
        rw [← hversion] at hnext
        refine ⟨_, by rw [hworld]; exact hnext, .enters act source ⟨?_, ?_, ?_⟩ htables⟩
        · rw [hworld, World.engine_next hmoved]
          rfl
        · rw [version, hworld, World.engine_next hmoved]
          rfl
        · rw [hworld, World.engine_next hmoved]
          rfl
    | _ => cases hstage
  · apply steps_of_idle hevent htables hidle hat hmoved
    · rw [Task.hasTurn_iff]
      exact fun hturn => hcube hturn.1
    · exact hgoes.settings
    · exact hgoes.retiredTables_of_ne (Ne.symm hcube)
    · exact Catalog.version_congr (hgoes.entry?_of_ne (Ne.symm hcube))

/-- A read changes nothing of a cube. -/
theorem steps_of_read (hmoved : site.world.moved event = some (engine, task))
    (htask : ¬ task.HasTurn cube) (hread : site.world.engine.ReadFrom engine) :
    ∃ next?, (site.next act).world.At cube next? ∧
      Steps cube site (site.next act) act stage? next? := by
  apply steps_of_idle hevent htables hidle hat hmoved htask hread.settings
  · rw [Engine.retiredTables, hread.retired, Engine.retiredTables]
  · rw [hread.catalog]
    rfl

/-- A cube that is unregistered begins anew, and all others go on. -/
theorem steps_of_unregister {name : String} {context : LogContext}
    (hcall : event = .call (.unregister name) context)
    (hmoved : site.world.moved event =
      some (site.world.engine.changed fun catalog => catalog.unregister name, task))
    (htask : ¬ task.HasTurn cube) :
    ∃ next?, (site.next act).world.At cube next? ∧
      Steps cube site (site.next act) act stage? next? := by
  have hworld : (site.next act).world = site.world.next event := world_next hevent
  have hretired : (site.world.engine.changed fun catalog =>
      catalog.unregister name).retiredTables cube = site.world.engine.retiredTables cube := by
    simp only [Engine.retiredTables, Engine.changed_retired]
  have hkept := steps_of_idle hevent htables hidle hat hmoved htask
    (Engine.changed_settings _ _) hretired
  rcases site.world.engine.changed_eq_or fun catalog => catalog.unregister name with
    hsame | ⟨catalog, hcatalog, hchanged⟩
  · exact hkept (by rw [hsame]; rfl)
  · obtain ⟨hnone, hothers⟩ := Catalog.entry?_unregister hcatalog
    by_cases hname : cube = name
    · subst hname
      obtain rfl := Act.eq_call_of_event? (hcall ▸ hevent)
      refine ⟨stage?, ?_, .forgets context stage?
        (Catalog.exists_entry?_of_unregister hcatalog) ?_ ?_ ?_ htables⟩
      · rw [hworld]
        exact hat.of_idle hmoved htask hidle
      · rw [hworld, World.engine_next hmoved, Engine.changed_settings]
      · rw [hworld, World.engine_next hmoved, hretired]
      · rw [version, hworld, World.engine_next hmoved, hchanged]
        simp [Catalog.version, hnone]
    · apply hkept
      rw [hchanged]
      exact Catalog.version_congr (hothers cube hname)

theorem steps_of_quiet (horder : site.world.InOrder) :
    ∃ next?, (site.next act).world.At cube next? ∧
      Steps cube site (site.next act) act stage? next? := by
  have hexclusive := horder.exclusive cube
  cases hmoved : site.world.moved event with
  | none =>
      refine steps_of_still ?_ htables hat
      rw [world_next hevent, World.next_eq_self hmoved]
  | some moved =>
      obtain ⟨engine, task⟩ := moved
      cases World.moves_of_moved horder.sound hmoved with
      | register definition replace context outcome =>
          apply steps_of_idle hevent htables hidle hat hmoved (by simp [Task.HasTurn])
            (Engine.changed_settings _ _)
          · simp only [Engine.retiredTables, Engine.changed_retired]
          · exact @Engine.catalog_changed
              (fun catalog => catalog.version cube = site.version cube) _ _ rfl
              fun after hafter => Catalog.version_register hafter cube
      | unregister name context outcome =>
          exact steps_of_unregister hevent htables hidle hat rfl hmoved (by simp [Task.HasTurn])
      | refuse other context failure =>
          apply steps_of_idle hevent htables hidle hat hmoved _ rfl rfl rfl
          rw [Task.hasTurn_iff]
          simp [Stage.active]
      | start other context entry after next hentry hgoes =>
          exact steps_of_goes hevent htables hidle hat hexclusive hmoved hgoes fun _ => rfl
      | resume index signal other begun context stage after next hbefore hnamed hgoes =>
          apply steps_of_goes hevent htables hidle hat hexclusive hmoved hgoes
          intro hcube
          rw [← Bool.not_eq_true]
          exact fun hactive => hidle _ hbefore (Task.hasTurn_iff.2 ⟨hcube, hactive⟩)
      | read operation context after bound rest hafter hrest =>
          exact steps_of_read hevent htables hidle hat hmoved (by simp [Task.HasTurn]) hafter
      | readOn index signal operation begun context bound before rest after hbefore hafter hrest =>
          exact steps_of_read hevent htables hidle hat hmoved (by simp [Task.HasTurn]) hafter

end Quiet

theorem steady_of_engine {before after : Site}
    (h : after.world.engine = before.world.engine ∨
      after.world.engine = before.world.engine.unlocked cube) : before.Steady cube after := by
  rcases h with hsame | hunlocked
  · exact ⟨by rw [hsame], by simp only [version, hsame], by rw [hsame]⟩
  · exact ⟨by rw [hunlocked]; rfl, by simp only [version, hunlocked]; rfl, by rw [hunlocked]; rfl⟩

/-- A refresh that gives up. -/
theorem steps_rollBack {before after : Site} {index : Nat} {fault : Option Fault} {source : Cube}
    {built : Int} {created rest : List String} {table : String} (made : List String)
    (failure : Failure) (hengine : after.world.engine =
      (Stage.rollBack cube before.world.engine built made failure).1)
    (htables : made = created ∧ after.tables = before.tables ∨
      made = created ++ [snapshotTable cube built table] ∧
        after.tables = snapshotTable cube built table :: before.tables) :
    Steps cube before after (.perform index fault)
      (some (.creating source built created table rest))
      (Stage.rollBack cube before.world.engine built made failure).2.lasting := by
  unfold Stage.rollBack at hengine ⊢
  split at hengine
  · next hempty =>
      obtain rfl := List.isEmpty_iff.1 hempty
      exact .fails index fault source built created table rest _ (steady_of_engine (.inr hengine))
        htables (.inl rfl)
  · next hmade =>
      rw [if_neg hmade]
      exact .fails index fault source built created table rest _ (steady_of_engine (.inl hengine))
        htables (.inr ⟨made, failure, rfl⟩)

/-- A refresh that has created all snapshots. -/
theorem steps_publish {before after : Site} {index : Nat} {source : Cube} {built : Int}
    {created : List String} {table : String}
    (hmade : created ++ [snapshotTable cube built table] =
      source.tables.map (snapshotTable cube built))
    (hengine : after.world.engine = (Stage.publish cube before.world.engine source built
      (created ++ [snapshotTable cube built table])).1)
    (htables : after.tables = snapshotTable cube built table :: before.tables) :
    Steps cube before after (.perform index none)
      (some (.creating source built created table []))
      (Stage.publish cube before.world.engine source built
        (created ++ [snapshotTable cube built table])).2.lasting := by
  unfold Stage.publish at hengine ⊢
  cases hpublish : before.world.engine.catalog.publish cube
      (source.renameTables (snapshotTable cube built)) built with
  | error failure =>
      simp only [hpublish] at hengine ⊢
      exact steps_rollBack _ failure hengine (.inr ⟨rfl, htables⟩)
  | ok catalog =>
      simp only [hpublish] at hengine ⊢
      obtain ⟨hlater, hreached⟩ := Catalog.version_publish hpublish
      obtain ⟨⟨current, -, -, hentry⟩, -⟩ := Catalog.entry?_publish hpublish
      obtain ⟨hsettings, hcatalog, hleases, hretired, hnext⟩ :=
        Stage.expire_spec cube { before.world.engine with catalog := catalog } source built
      rw [← hengine] at hsettings hcatalog hleases hretired
      refine .publishes index source built created table _ hsettings hmade hlater ?_ ?_ ?_ ?_
        htables ?_
      · rw [version, hcatalog]
        exact hreached
      · simp [published, hcatalog, hentry]
      · intro old
        have hgoing : Stage.going (Stage.expire cube { before.world.engine with catalog := catalog }
            source built).2.lasting = Engine.idle { before.world.engine with catalog := catalog }
              (Engine.due { before.world.engine with catalog := catalog } source cube built) := by
          rcases hnext with ⟨hidle, hnone⟩ | hidle
          · rw [hnone, hidle]
            rfl
          · rw [hidle]
            rfl
        rw [hgoing, hretired, hsettings, Engine.mem_held_or_mem_idle_iff, Engine.mem_due_iff]
        rfl
      · intro old hold
        rw [hleases]
        rw [hretired] at hold
        exact Engine.inUse_iff.1 (List.mem_filter.1 hold).2
      · rcases hnext with ⟨-, hnone⟩ | hidle
        · exact .inl hnone
        · exact .inr ⟨_, hidle⟩

/-- What becomes of a refresh that is told of its statements. -/
theorem steps_acknowledge {before after : Site} {index : Nat} {fault : Option Fault} {stage : Stage}
    (hactive : stage.active = true) (hplanned : stage.Planned cube)
    (hengine : after.world.engine =
      (Stage.acknowledge cube before.world.engine (Fault.outcome fault) stage).1)
    (hwaited : before.statements index = stage.submitted cube)
    (htables : after.tables = Store.perform before.tables (stage.submitted cube) fault) :
    Steps cube before after (.perform index fault) (some stage)
      (Stage.acknowledge cube before.world.engine (Fault.outcome fault) stage).2.lasting := by
  cases stage with
  | waiting source => cases hactive
  | ended outcome => cases hactive
  | cleaning version created failure =>
      exact .cleans index fault version created failure (steady_of_engine (.inr hengine)) hwaited
        htables
  | expiring version idle =>
      exact .expires index fault version idle (steady_of_engine (.inr hengine)) hwaited htables
  | creating source version created table rest =>
      obtain ⟨⟨front, hfront, hcreated⟩, hnames⟩ := hplanned
      cases fault with
      | some fault =>
          apply steps_rollBack created fault.failure hengine
          exact .inl ⟨rfl, htables.trans (Store.perform_create_fault _ _ _ fault)⟩
      | none =>
          have hname := hnames table (by simp [hfront])
          have hafter := htables.trans (Store.perform_create hname.blank_not_mem _ table)
          cases rest with
          | nil =>
              apply steps_publish _ hengine hafter
              simp [hcreated, hfront]
          | cons next rest =>
              exact .creates index source version created table next rest
                (steady_of_engine (.inl hengine)) hafter

section Has

variable {index : Nat} {stage : Stage} (h : site.world.Has index cube stage)

include h

theorem statements_of_has : site.statements index = stage.submitted cube := by
  obtain ⟨begun, context, hindex⟩ := h
  rw [← Stage.submitted_procedure]
  simp only [statements, hindex]
  rfl

variable (hactive : stage.active = true)

include hactive

/-- What an answer of the store makes of a refresh that waits for it. -/
theorem has_perform (fault : Option Fault) :
    (site.next (.perform index fault)).world.Has index cube
        (Stage.acknowledge cube site.world.engine (Fault.outcome fault) stage).2 ∧
      (site.next (.perform index fault)).world.engine =
        (Stage.acknowledge cube site.world.engine (Fault.outcome fault) stage).1 ∧
      (site.next (.perform index fault)).tables =
        Store.perform site.tables (stage.submitted cube) fault := by
  obtain ⟨begun, context, hmoved⟩ := h.moved hactive (Fault.outcome fault)
  refine ⟨⟨begun, context, ?_⟩, World.engine_next hmoved, ?_⟩
  · exact (World.tasks_next hmoved index).trans (if_pos rfl)
  · show Store.perform site.tables (site.statements index) fault = _
    rw [statements_of_has h]

/-- The store answers the refresh that has its turn. -/
theorem steps_of_has (hexclusive : site.world.Exclusive cube) (hplanned : stage.Planned cube)
    (fault : Option Fault) :
    (site.next (.perform index fault)).world.At cube
        (Stage.acknowledge cube site.world.engine (Fault.outcome fault) stage).2.lasting ∧
      Steps cube site (site.next (.perform index fault)) (.perform index fault) (some stage)
        (Stage.acknowledge cube site.world.engine (Fault.outcome fault) stage).2.lasting := by
  obtain ⟨begun, context, hmoved⟩ := h.moved hactive (Fault.outcome fault)
  obtain ⟨-, hengine, htables⟩ := has_perform h hactive fault
  constructor
  · exact World.at_lasting hmoved (hplanned.acknowledge _ _) (h.not_hasTurn hactive hexclusive)
  · exact steps_acknowledge hactive hplanned hengine (statements_of_has h) htables

end Has

/-- A signal that is not about statements. -/
theorem Tended.steps_of_signal (h : site.Tended cube) (hat : site.world.At cube stage?)
    {index : Nat} {signal : Signal} (hevent : act.event? = some (.signal index signal))
    (hsignal : ∀ result, signal ≠ .acknowledge result)
    (htables : (site.next act).tables = site.tables) :
    ∃ next?, (site.next act).world.At cube next? ∧
      Steps cube site (site.next act) act stage? next? := by
  have hsame : site.SameSnapshots cube (site.next act) := fun table _ => by rw [htables]
  by_cases hturn : ∃ task, site.world.tasks[index]? = some task ∧ task.HasTurn cube
  · obtain ⟨task, htask, hturn⟩ := hturn
    have hnone := hat.moved_eq_none (h.inOrder.exclusive cube) htask hturn hsignal
    exact steps_of_still (by rw [world_next hevent, World.next_eq_self hnone]) hsame hat
  · exact steps_of_quiet hevent hsame (fun task htask hhas => hturn ⟨task, htask, hhas⟩) hat
      h.inOrder

/-- The store answers, or a fault hits it. -/
theorem Tended.steps_of_perform (h : site.Tended cube) (hat : site.world.At cube stage?)
    (index : Nat) (fault : Option Fault) :
    ∃ next?, (site.next (.perform index fault)).world.At cube next? ∧
      Steps cube site (site.next (.perform index fault)) (.perform index fault) stage? next? := by
  by_cases hturn : ∃ task, site.world.tasks[index]? = some task ∧ task.HasTurn cube
  · obtain ⟨task, htask, hturn⟩ := hturn
    obtain ⟨stage, rfl, hactive, hplanned, hhas⟩ :=
      hat.exists_has (h.inOrder.exclusive cube) htask hturn
    exact ⟨_, steps_of_has hhas hactive (h.inOrder.exclusive cube) hplanned fault⟩
  · have hidle : ∀ task, site.world.tasks[index]? = some task → ¬ task.HasTurn cube :=
      fun task htask hhas => hturn ⟨task, htask, hhas⟩
    refine steps_of_quiet rfl (fun table htable => ?_) hidle hat h.inOrder
    exact Store.mem_perform_of_not_about fault (h.not_about hidle htable)

/-- Every act is a step for the cube. -/
theorem Tended.steps (h : site.Tended cube) (hat : site.world.At cube stage?) (act : Act) :
    ∃ next?, (site.next act).world.At cube next? ∧
      Steps cube site (site.next act) act stage? next? := by
  cases act with
  | lease tables => exact ⟨stage?, hat, .passes _ _ ⟨rfl, rfl, rfl⟩ fun _ _ => Iff.rfl⟩
  | release tables => exact ⟨stage?, hat, .passes _ _ ⟨rfl, rfl, rfl⟩ fun _ _ => Iff.rfl⟩
  | turn task => exact h.steps_of_signal hat rfl (by simp) rfl
  | answer task result => exact h.steps_of_signal hat rfl (by simp) rfl
  | perform index fault => exact h.steps_of_perform hat index fault
  | call call context =>
      refine steps_of_quiet rfl (fun _ _ => Iff.rfl) (fun before hbefore => ?_) hat h.inOrder
      simp [World.place] at hbefore

/-! ### Ends -/

/-- The refresh that succeeds at an act, with the version that it has published. -/
def completed? (site : Site) (act : Act) : Option (String × Int) := do
  let event ← act.event?
  let (_, task) ← site.world.moved event
  task.completed?

/-- A refresh that ends well publishes its version or has published it when it had its turn. -/
theorem Tended.of_ends (h : site.Tended cube) (hat : site.world.At cube stage?) {version : Int}
    (hends : site.completed? act = some (cube, version)) :
    (site.next act).world.At cube none ∧ ((site.next act).version cube = version ∨
      (∃ idle, stage? = some (.expiring version idle)) ∧
        (site.next act).version cube = site.version cube) := by
  have hexclusive := h.inOrder.exclusive cube
  obtain ⟨event, hevent, hends⟩ := Option.bind_eq_some_iff.1 hends
  obtain ⟨⟨engine, task⟩, hmoved, hends⟩ := Option.bind_eq_some_iff.1 hends
  have hended := Task.ended?_of_completed? hends
  cases World.moves_of_moved h.inOrder.sound hmoved with
  | register definition replace context outcome => cases hended
  | unregister name context outcome => cases hended
  | read operation context after bound rest hafter hrest => cases hended
  | readOn index signal operation begun context bound before rest after hbefore hafter hrest =>
      cases hended
  | refuse other context failure =>
      obtain ⟨-, hstage⟩ := Task.ended?_eq_some_iff.1 hended
      cases hstage
  | start other context entry after next hentry hgoes =>
      obtain ⟨-, rfl⟩ := Task.ended?_eq_some_iff.1 hended
      cases hgoes.active_of_ok
  | resume index signal other begun context stage after next hbefore hnamed hgoes =>
      obtain ⟨rfl, rfl⟩ := Task.ended?_eq_some_iff.1 hended
      have hactive := hgoes.active_of_ok
      have hhas : site.world.Has index other stage := ⟨begun, context, hbefore⟩
      obtain ⟨result, rfl⟩ := hhas.exists_acknowledge hactive hmoved
      obtain ⟨fault, rfl⟩ := Act.eq_perform_of_event? hevent
      obtain ⟨-, hresult⟩ := Event.signal.inj (Option.some.inj hevent)
      obtain rfl := Signal.acknowledge.inj hresult
      obtain ⟨stage, rfl, hactive, hplanned, hhas⟩ :=
        hat.exists_has hexclusive hbefore (Task.hasTurn_iff.2 ⟨rfl, hactive⟩)
      -- The task is where the stage of the turn says, so it goes on from there.
      obtain ⟨begun, context, hmoved'⟩ := hhas.moved hactive (Fault.outcome fault)
      obtain ⟨hengine, htask⟩ := Prod.mk.inj (Option.some.inj (hmoved.symm.trans hmoved'))
      rw [htask] at hended
      obtain ⟨-, hended⟩ := Task.ended?_eq_some_iff.1 hended
      have hafter := (steps_of_has hhas hactive hexclusive hplanned fault).1
      rw [hended] at hafter
      refine ⟨hafter, ?_⟩
      simp only [Site.version, world_next hevent, World.engine_next hmoved, hengine]
      rcases Stage.version_of_acknowledge hactive hended with hversion | ⟨⟨idle, rfl⟩, hcatalog⟩
      · exact .inl hversion
      · exact .inr ⟨⟨idle, rfl⟩, by rw [hcatalog]⟩

end Site

end StarCube
