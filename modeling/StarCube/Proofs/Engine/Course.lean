import StarCube.Proofs.Engine.Site

/-!
The turn of a refresh. While a refresh has its turn it goes on only when it is told of its
statements, and what it does then is a function of its stage. It creates the snapshots of its source
one after the other, and has published its version when it ends well.
-/

namespace StarCube

/-- Each table that is due is either held or idle. -/
theorem Engine.mem_held_or_mem_idle_iff {engine : Engine} {tables : List String} {table : String} :
    table ∈ engine.held tables ∨ table ∈ engine.idle tables ↔ table ∈ tables := by
  simp only [held, idle, List.mem_filter]
  cases engine.inUse table <;> simp

namespace Stage

/-- A stage of a refresh as long as it has its turn. -/
def lasting (stage : Stage) : Option Stage :=
  if stage.active then some stage else none

/-- The snapshots that are there for a refresh under way but belong to no version that is
published. -/
def made : Option Stage → List String
  | some (.creating _ _ created _ _) => created
  | some (.cleaning _ created _) => created
  | _ => []

/-- The tables that a refresh is about to remove because they are no longer needed. -/
def going : Option Stage → List String
  | some (.expiring _ idle) => idle
  | _ => []

/-- A refresh creates the snapshots of its source one after the other, and all have names that may
be written. -/
def Planned (cube : String) : Stage → Prop
  | .creating source version created table rest =>
      (∃ front, source.tables = front ++ table :: rest ∧
        created = front.map (snapshotTable cube version)) ∧
      ∀ before ∈ source.tables, Acceptable (snapshotTable cube version before)
  | _ => True

variable {cube : String} {engine : Engine} {source : Cube} {version : Int}

theorem planned_start
    (h : ∀ before ∈ source.tables, Acceptable (snapshotTable cube version before)) :
    (creating source version [] source.factTable source.tables.tail).Planned cube :=
  ⟨⟨[], source.tables_eq_cons, rfl⟩, h⟩

theorem planned_rollBack (engine : Engine) (created : List String) (failure : Failure) :
    (rollBack cube engine version created failure).2.Planned cube := by
  unfold rollBack
  split <;> trivial

theorem planned_expire (engine : Engine) : (expire cube engine source version).2.Planned cube := by
  simp only [expire]
  split <;> trivial

theorem planned_publish (engine : Engine) (created : List String) :
    (publish cube engine source version created).2.Planned cube := by
  unfold publish
  split
  · exact planned_rollBack _ _ _
  · exact planned_expire _

/-- A refresh goes on as it is planned. -/
theorem Planned.acknowledge {stage : Stage} (h : stage.Planned cube) (engine : Engine)
    (result : Except Failure Unit) : (acknowledge cube engine result stage).2.Planned cube := by
  cases stage with
  | waiting source => trivial
  | cleaning version created failure => trivial
  | expiring version idle => trivial
  | ended outcome => trivial
  | creating source version created table rest =>
      cases result with
      | error failure => exact planned_rollBack _ _ _
      | ok _ =>
          cases rest with
          | nil => exact planned_publish _ _
          | cons next rest =>
              obtain ⟨⟨front, htables, rfl⟩, hnames⟩ := h
              exact ⟨⟨front ++ [table], by simp [htables], by simp⟩, hnames⟩

/-- What a refresh that has published makes of the engine, and where it is then. -/
theorem expire_spec (cube : String) (engine : Engine) (source : Cube) (version : Int) :
    (expire cube engine source version).1.settings = engine.settings ∧
      (expire cube engine source version).1.catalog = engine.catalog ∧
      (expire cube engine source version).1.leases = engine.leases ∧
      (expire cube engine source version).1.retiredTables cube =
        engine.held (engine.due source cube version) ∧
      (engine.idle (engine.due source cube version) = [] ∧
          (expire cube engine source version).2.lasting = none ∨
        (expire cube engine source version).2.lasting =
          some (.expiring version (engine.idle (engine.due source cube version)))) := by
  have hretired := engine.retiredTables_retire cube (engine.held (engine.due source cube version))
  simp only [expire]
  split
  · next hempty => exact ⟨rfl, rfl, rfl, hretired, .inl ⟨List.isEmpty_iff.1 hempty, rfl⟩⟩
  · exact ⟨rfl, rfl, rfl, hretired, .inr rfl⟩

/-- A refresh that ends well has had its turn. -/
theorem Goes.active_of_ok {after : Engine} {stage : Stage}
    (h : Goes cube engine stage after (.ended (.ok version))) : stage.active = true := by
  cases h <;> rfl

/-- A refresh that ends well has published its version, now or before. -/
theorem version_of_acknowledge {stage : Stage} {result : Except Failure Unit}
    (hactive : stage.active = true)
    (h : (acknowledge cube engine result stage).2 = .ended (.ok version)) :
    (acknowledge cube engine result stage).1.catalog.version cube = version ∨
      (∃ idle, stage = .expiring version idle) ∧
        (acknowledge cube engine result stage).1.catalog = engine.catalog := by
  have hfails : ∀ built made failure,
      (rollBack cube engine built made failure).2 ≠ .ended (.ok version) := by
    intro built made failure
    unfold rollBack
    split <;> simp
  cases stage with
  | waiting source => cases hactive
  | ended outcome => cases hactive
  | cleaning built created failure => cases h
  | expiring built idle =>
      obtain rfl := Except.ok.inj (ended.inj h)
      exact .inr ⟨⟨idle, rfl⟩, rfl⟩
  | creating source built created table rest =>
      cases result with
      | error failure => exact absurd h (hfails _ _ _)
      | ok _ =>
          cases rest with
          | cons next rest => cases h
          | nil =>
              simp only [acknowledge, publish] at h ⊢
              cases hpublish : engine.catalog.publish cube
                  (source.renameTables (snapshotTable cube built)) built with
              | error failure =>
                  rw [hpublish] at h
                  exact absurd h (hfails _ _ _)
              | ok catalog =>
                  simp only [hpublish] at h ⊢
                  rw [(expire_spec cube { engine with catalog := catalog } source built).2.1,
                    (Catalog.version_publish hpublish).2]
                  simp only [expire] at h
                  split at h
                  · exact .inl (Except.ok.inj (ended.inj h))
                  · cases h

end Stage

namespace Task

theorem ended?_of_completed? {task : Task} {cube : String} {version : Int}
    (h : task.completed? = some (cube, version)) :
    task.ended? = some (cube, .ok version) := by
  unfold completed? at h
  split at h
  · next hended =>
      obtain ⟨rfl, rfl⟩ := Prod.mk.inj (Option.some.inj h)
      exact hended
  · cases h

theorem ended?_eq_some_iff {cube other : String} {begun : Engine} {context : LogContext}
    {stage : Stage} {outcome : Except Failure Int} :
    (⟨.refresh other, begun, context, stage.procedure other⟩ : Task).ended? = some (cube, outcome) ↔
      other = cube ∧ stage = .ended outcome := by
  have hrest : ∀ rest : Procedure Int,
      (⟨.refresh other, begun, context, rest⟩ : Task).ended? = some (cube, outcome) ↔
        other = cube ∧ rest = .done outcome := by
    intro rest
    cases rest <;> simp [ended?]
  rw [hrest]
  refine and_congr_right fun _ => ?_
  cases stage with
  | ended result => simp [Stage.procedure]
  | creating source version created table rest =>
      rw [Stage.procedure, Stage.building_cons]
      simp
  | waiting source => simp [Stage.procedure, Procedure.exclusively]
  | cleaning version created failure =>
      apply Iff.intro <;> (intro h; cases h)
  | expiring version idle =>
      apply Iff.intro <;> (intro h; cases h)

end Task

namespace World

variable {world : World} {event : Event} {engine : Engine} {task : Task} {cube : String}
  {stage? : Option Stage}

/-- A task is a refresh of a cube at a stage. -/
def Has (world : World) (index : Nat) (cube : String) (stage : Stage) : Prop :=
  ∃ begun context,
    world.tasks[index]? = some ⟨.refresh cube, begun, context, stage.procedure cube⟩

/-- The refresh of a cube that has its turn is at a stage, or none has its turn. -/
def At (world : World) (cube : String) : Option Stage → Prop
  | none => ∀ task ∈ world.tasks, ¬ task.HasTurn cube
  | some stage => stage.active = true ∧ stage.Planned cube ∧ ∃ index, world.Has index cube stage

/-- A task without a turn leaves the turns of others as they are. -/
theorem At.of_idle (h : world.At cube stage?) (hmoved : world.moved event = some (engine, task))
    (hidle : ¬ task.HasTurn cube)
    (hbefore : ∀ before, world.tasks[world.place event]? = some before → ¬ before.HasTurn cube) :
    (world.next event).At cube stage? := by
  cases stage? with
  | none =>
      intro other hother
      rcases mem_tasks_next hother with hold | ⟨engine', hmoved'⟩
      · exact h other hold
      · obtain ⟨-, rfl⟩ := Prod.mk.inj (Option.some.inj (hmoved.symm.trans hmoved'))
        exact hidle
  | some stage =>
      obtain ⟨hactive, hplanned, index, begun, context, hindex⟩ := h
      refine ⟨hactive, hplanned, index, begun, context, ?_⟩
      have hplace : index ≠ world.place event := by
        rintro rfl
        exact hbefore _ hindex (Task.hasTurn_iff.2 ⟨rfl, hactive⟩)
      rw [tasks_next hmoved, if_neg hplace, hindex]

/-- A refresh goes on while no other has its turn. -/
theorem at_lasting {begun : Engine} {context : LogContext} {next : Stage}
    (hmoved : world.moved event =
      some (engine, ⟨.refresh cube, begun, context, next.procedure cube⟩))
    (hplanned : next.Planned cube)
    (hothers : ∀ i other, i ≠ world.place event → world.tasks[i]? = some other →
      ¬ other.HasTurn cube) : (world.next event).At cube next.lasting := by
  have hplace := tasks_next hmoved (world.place event)
  rw [if_pos rfl] at hplace
  unfold Stage.lasting
  split
  · next hactive => exact ⟨hactive, hplanned, _, begun, context, hplace⟩
  · next hidle =>
      intro other hother hturn
      obtain ⟨i, hi⟩ := List.getElem?_of_mem hother
      rw [tasks_next hmoved] at hi
      split at hi
      · obtain rfl := Option.some.inj hi
        exact hidle (Task.hasTurn_iff.1 hturn).2
      · next hne => exact hothers i other hne hi hturn

/-- While a cube is not locked no refresh of it has its turn. -/
theorem Exclusive.at_none (h : world.Exclusive cube) (hfree : cube ∉ world.engine.locks) :
    world.At cube none :=
  fun task htask hturn => hfree (h.locked task htask hturn)

theorem At.eq_none (h : world.At cube stage?) (hnone : world.At cube none) : stage? = none := by
  cases stage? with
  | none => rfl
  | some stage =>
      obtain ⟨hactive, -, index, begun, context, hindex⟩ := h
      exact absurd (Task.hasTurn_iff.2 ⟨rfl, hactive⟩) (hnone _ (List.mem_of_getElem? hindex))

section Has

variable {index : Nat} {stage : Stage} (h : world.Has index cube stage)
  (hactive : stage.active = true)

include h hactive

/-- A refresh that has its turn goes on once it is told of its statements. -/
theorem Has.moved (result : Except Failure Unit) :
    ∃ begun context, world.moved (.signal index (.acknowledge result)) =
      some ((Stage.acknowledge cube world.engine result stage).1, ⟨.refresh cube, begun, context,
        (Stage.acknowledge cube world.engine result stage).2.procedure cube⟩) := by
  obtain ⟨begun, context, hindex⟩ := h
  have hresume : Stage.resume cube world.engine stage (.acknowledge result) =
      some (Stage.acknowledge cube world.engine result stage) := by
    cases stage with
    | waiting source => cases hactive
    | ended outcome => cases hactive
    | _ => rfl
  obtain ⟨rest, hrest⟩ : ∃ rest,
      (stage.procedure cube).resume (.acknowledge result) = some rest := by
    have hexecutes := stage.executes_procedure cube
    rw [hactive] at hexecutes
    cases hprocedure : stage.procedure cube with
    | execute statements next => exact ⟨_, rfl⟩
    | _ => simp [hprocedure, Procedure.executes] at hexecutes
  obtain ⟨next, hnext, hreaches⟩ := @Stage.reaches_resume cube world.engine stage _ rest hrest
  obtain rfl := Option.some.inj (hresume.symm.trans hnext)
  have hproceed := Task.proceed_eq ⟨.refresh cube, begun, context, stage.procedure cube⟩
    (hreaches context)
  refine ⟨begun, context, Option.bind_eq_some_iff.2 ⟨_, hindex, ?_⟩⟩
  exact Option.bind_eq_some_iff.2 ⟨rest, hrest, congrArg some hproceed⟩

/-- A refresh that has its turn goes on only if it is told of its statements. -/
theorem Has.exists_acknowledge {signal : Signal}
    (hmoved : world.moved (.signal index signal) = some (engine, task)) :
    ∃ result, signal = .acknowledge result := by
  obtain ⟨begun, context, hindex⟩ := h
  have hexecutes := stage.executes_procedure cube
  rw [hactive] at hexecutes
  cases signal with
  | acknowledge result => exact ⟨result, rfl⟩
  | _ =>
      cases hprocedure : stage.procedure cube with
      | execute statements next =>
          simp [World.moved, hindex, hprocedure, Procedure.resume] at hmoved
      | _ => simp [hprocedure, Procedure.executes] at hexecutes

theorem Has.not_hasTurn (hexclusive : world.Exclusive cube) : ∀ other task, other ≠ index →
    world.tasks[other]? = some task → ¬ task.HasTurn cube := by
  obtain ⟨begun, context, hindex⟩ := h
  intro other task hne htask hturn
  exact hne
    (hexclusive.unique other index task _ htask hindex hturn (Task.hasTurn_iff.2 ⟨rfl, hactive⟩))

end Has

/-- The task that has its turn is a refresh at the stage of the turn. -/
theorem At.exists_has (h : world.At cube stage?) (hexclusive : world.Exclusive cube) {index : Nat}
    (htask : world.tasks[index]? = some task) (hturn : task.HasTurn cube) :
    ∃ stage, stage? = some stage ∧ stage.active = true ∧ stage.Planned cube ∧
      world.Has index cube stage := by
  cases stage? with
  | none => exact absurd hturn (h task (List.mem_of_getElem? htask))
  | some stage =>
      obtain ⟨hactive, hplanned, other, begun, context, hother⟩ := h
      obtain rfl := hexclusive.unique other index _ task hother htask
        (Task.hasTurn_iff.2 ⟨rfl, hactive⟩) hturn
      exact ⟨stage, rfl, hactive, hplanned, begun, context, hother⟩

/-- A refresh that has its turn does not go on unless it is told of its statements. -/
theorem At.moved_eq_none (h : world.At cube stage?) (hexclusive : world.Exclusive cube)
    {index : Nat}
    (htask : world.tasks[index]? = some task) (hturn : task.HasTurn cube) {signal : Signal}
    (hsignal : ∀ result, signal ≠ .acknowledge result) :
    world.moved (.signal index signal) = none := by
  obtain ⟨stage, rfl, hactive, -, hhas⟩ := h.exists_has hexclusive htask hturn
  cases hmoved : world.moved (.signal index signal) with
  | none => rfl
  | some moved =>
      obtain ⟨result, hresult⟩ := hhas.exists_acknowledge hactive hmoved
      exact absurd hresult (hsignal result)

/-- A task goes on with its own call. -/
theorem call_of_moved (h : world.moved event = some (engine, task)) :
    (∃ context, event = .call task.call context) ∨
      ∃ before, world.tasks[world.place event]? = some before ∧ before.call = task.call := by
  rcases moved_eq_some h with ⟨call, context, rfl, hproceed⟩ |
    ⟨index, signal, before, rest, rfl, hbefore, -, hproceed⟩
  · obtain ⟨-, rfl⟩ := Prod.mk.inj hproceed
    exact .inl ⟨context, rfl⟩
  · obtain ⟨-, rfl⟩ := Prod.mk.inj hproceed
    exact .inr ⟨before, hbefore, rfl⟩

/-- A refresh that is called while no other has its turn begins to create snapshots of the next
version. -/
theorem has_called {entry : CatalogEntry} (hentry : world.engine.catalog.entry? cube = some entry)
    (hfree : cube ∉ world.engine.locks)
    (hchecked : Procedure.checkSnapshots (snapshotTable cube (entry.version + 1))
      entry.source.tables =
      .ok ()) (context : LogContext) :
    (world.next (.call (.refresh cube) context)).Has world.tasks.length cube
        (.creating entry.source (entry.version + 1) [] entry.source.factTable
          entry.source.tables.tail) ∧
      (world.next (.call (.refresh cube) context)).engine = world.engine.locked cube := by
  have hlocks : world.engine.locks.contains cube = false := by simpa using hfree
  have hstart : Stage.start cube world.engine = (world.engine.locked cube,
      .creating entry.source (entry.version + 1) [] entry.source.factTable
        entry.source.tables.tail) := by
    simp only [Stage.start, Catalog.entry_eq_ok_iff.2 hentry, Stage.ask, hlocks, Stage.enter,
      hchecked]
    rfl
  have hreaches := @Stage.reaches_start cube world.engine context
  rw [hstart] at hreaches
  have hproceed := Task.proceed_eq (Task.made (.refresh cube) world.engine context) hreaches
  have hmoved : world.moved (.call (.refresh cube) context) = some _ := congrArg some hproceed
  refine ⟨⟨world.engine, context, ?_⟩, engine_next hmoved⟩
  exact (tasks_next hmoved _).trans (if_pos rfl)

/-- A cube is registered at once. -/
theorem engine_next_register (world : World) (cube : Cube) (replace : Bool) (context : LogContext) :
    (world.next (.call (.register cube replace) context)).engine =
      world.engine.changed fun catalog => catalog.register cube replace := by
  obtain ⟨outcome, hadvance⟩ := advance_register cube replace world.engine context
  have hproceed :=
    Task.proceed_eq (Task.made (.register cube replace) world.engine context) hadvance
  have hmoved : world.moved (.call (.register cube replace) context) = some _ :=
    congrArg some hproceed
  exact engine_next hmoved

end World

end StarCube
