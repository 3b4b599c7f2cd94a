import StarCube.Proofs.Engine.Reading
import StarCube.Proofs.Engine.Stage

/-!
What each event does. Tasks are where their calls can be: a change of the catalog is over at once, a
refresh is at a stage, and a read only reads. From there a task moves in one of a few ways.
-/

namespace StarCube

namespace Engine

/-- The state after a change of the catalog; one that fails changes nothing. -/
def changed (engine : Engine) (change : Catalog → Except Failure Catalog) : Engine :=
  match change engine.catalog with
  | .ok catalog => { engine with catalog := catalog }
  | .error _ => engine

theorem changed_eq_or (engine : Engine) (change : Catalog → Except Failure Catalog) :
    engine.changed change = engine ∨
      ∃ catalog, change engine.catalog = .ok catalog ∧
        engine.changed change = { engine with catalog := catalog } := by
  unfold changed
  cases hchange : change engine.catalog with
  | error failure => exact .inl rfl
  | ok catalog => exact .inr ⟨catalog, rfl, rfl⟩

/-- What holds of a catalog before a change and after it if it succeeds holds in the end. -/
theorem catalog_changed {holds : Catalog → Prop} {engine : Engine}
    {change : Catalog → Except Failure Catalog} (h : holds engine.catalog)
    (hchange : ∀ after, change engine.catalog = .ok after → holds after) :
    holds (engine.changed change).catalog := by
  rcases engine.changed_eq_or change with hkept | ⟨after, hafter, hchanged⟩
  · rw [hkept]
    exact h
  · rw [hchanged]
    exact hchange after hafter

@[simp] theorem changed_settings (engine : Engine) (change : Catalog → Except Failure Catalog) :
    (engine.changed change).settings = engine.settings := by
  rcases engine.changed_eq_or change with h | ⟨catalog, -, h⟩ <;> rw [h]

@[simp] theorem changed_locks (engine : Engine) (change : Catalog → Except Failure Catalog) :
    (engine.changed change).locks = engine.locks := by
  rcases engine.changed_eq_or change with h | ⟨catalog, -, h⟩ <;> rw [h]

@[simp] theorem changed_leases (engine : Engine) (change : Catalog → Except Failure Catalog) :
    (engine.changed change).leases = engine.leases := by
  rcases engine.changed_eq_or change with h | ⟨catalog, -, h⟩ <;> rw [h]

@[simp] theorem changed_retired (engine : Engine) (change : Catalog → Except Failure Catalog) :
    (engine.changed change).retired = engine.retired := by
  rcases engine.changed_eq_or change with h | ⟨catalog, -, h⟩ <;> rw [h]

end Engine

/-- A refresh does not change the settings. -/
theorem Stage.Goes.settings {cube : String} {engine after : Engine} {stage next : Stage}
    (h : Goes cube engine stage after next) : after.settings = engine.settings := by
  cases h with
  | publishes source version created table published hpublished =>
      obtain ⟨catalog, -, rfl⟩ := hpublished
      rfl
  | finishes source version created table published hpublished =>
      obtain ⟨catalog, -, rfl⟩ := hpublished
      rfl
  | _ => rfl

/-- A refresh does not change leases. -/
theorem Stage.Goes.leases {cube : String} {engine after : Engine} {stage next : Stage}
    (h : Goes cube engine stage after next) : after.leases = engine.leases := by
  cases h with
  | publishes source version created table published hpublished =>
      obtain ⟨catalog, -, rfl⟩ := hpublished
      rfl
  | finishes source version created table published hpublished =>
      obtain ⟨catalog, -, rfl⟩ := hpublished
      rfl
  | _ => rfl

/-- Where a task can be. Of a refresh more is asked: `holds` of the state in which it was called,
its cube and its stage. -/
inductive Task.Sound (holds : Engine → String → Stage → Prop) : Task → Prop
  | registered (cube : Cube) (replace : Bool) (begun : Engine) (context : LogContext)
      (outcome : Except Failure Unit) :
      Sound holds ⟨.register cube replace, begun, context, .done outcome⟩
  | unregistered (name : String) (begun : Engine) (context : LogContext)
      (outcome : Except Failure Unit) :
      Sound holds ⟨.unregister name, begun, context, .done outcome⟩
  | refreshing (cube : String) (begun : Engine) (context : LogContext) (stage : Stage)
      (h : holds begun cube stage) :
      Sound holds ⟨.refresh cube, begun, context, stage.procedure cube⟩
  | reading (operation : Read) (begun : Engine) (context : LogContext)
      (rest : Procedure operation.Result)
      (h : Procedure.ReadsOn Procedure.Whatever rest) :
      Sound holds ⟨.read operation, begun, context, rest⟩

/-- A refresh is at some stage. -/
theorem Task.Sound.exists_stage {holds : Engine → String → Stage → Prop} {task : Task}
    {cube : String} (h : task.Sound holds) (hcall : task.call = .refresh cube) :
    ∃ begun context stage, task = ⟨.refresh cube, begun, context, stage.procedure cube⟩ ∧
      holds begun cube stage := by
  cases h with
  | refreshing other begun context stage hholds =>
      obtain rfl := Call.refresh.inj hcall
      exact ⟨begun, context, stage, rfl, hholds⟩
  | registered definition replace begun context outcome => cases hcall
  | unregistered name begun context outcome => cases hcall
  | reading operation begun context rest hreads => cases hcall

namespace World

/-- How a task moves: the event, the state of the engine after it and the task after it. -/
inductive Moves (holds : Engine → String → Stage → Prop) (world : World) :
    Event → Engine → Task → Prop
  | register (cube : Cube) (replace : Bool) (context : LogContext) (outcome : Except Failure Unit) :
      Moves holds world (.call (.register cube replace) context)
        (world.engine.changed fun catalog => catalog.register cube replace)
        ⟨.register cube replace, world.engine, context, .done outcome⟩
  | unregister (name : String) (context : LogContext) (outcome : Except Failure Unit) :
      Moves holds world (.call (.unregister name) context)
        (world.engine.changed fun catalog => catalog.unregister name)
        ⟨.unregister name, world.engine, context, .done outcome⟩
  | refuse (cube : String) (context : LogContext) (failure : Failure) :
      Moves holds world (.call (.refresh cube) context) world.engine
        ⟨.refresh cube, world.engine, context, (Stage.ended (.error failure)).procedure cube⟩
  | start (cube : String) (context : LogContext) (entry : CatalogEntry) (after : Engine)
      (next : Stage) (hentry : world.engine.catalog.entry? cube = some entry)
      (hgoes : Stage.Goes cube world.engine (.waiting entry.source) after next) :
      Moves holds world (.call (.refresh cube) context) after
        ⟨.refresh cube, world.engine, context, next.procedure cube⟩
  | resume (index : Nat) (signal : Signal) (cube : String) (begun : Engine) (context : LogContext)
      (stage : Stage) (after : Engine) (next : Stage)
      (hbefore : world.tasks[index]? = some ⟨.refresh cube, begun, context, stage.procedure cube⟩)
      (hholds : holds begun cube stage) (hgoes : Stage.Goes cube world.engine stage after next) :
      Moves holds world (.signal index signal) after
        ⟨.refresh cube, begun, context, next.procedure cube⟩
  | read (operation : Read) (context : LogContext) (after : Engine) (bound : LogContext)
      (rest : Procedure operation.Result) (hafter : world.engine.ReadFrom after)
      (hrest : Procedure.ReadsOn Procedure.Whatever rest) :
      Moves holds world (.call (.read operation) context) after
        ⟨.read operation, world.engine, bound, rest⟩
  | readOn (index : Nat) (signal : Signal) (operation : Read) (begun : Engine)
      (context bound : LogContext) (before rest : Procedure operation.Result) (after : Engine)
      (hbefore : world.tasks[index]? = some ⟨.read operation, begun, context, before⟩)
      (hafter : world.engine.ReadFrom after)
      (hrest : Procedure.ReadsOn Procedure.Whatever rest) :
      Moves holds world (.signal index signal) after ⟨.read operation, begun, bound, rest⟩

variable {holds : Engine → String → Stage → Prop} {world : World} {event : Event} {engine : Engine}
  {task : Task}

/-- A change of the catalog that is logged is over at once. -/
theorem advance_changeCatalog (change : Catalog → Except Failure Catalog) (level : LogLevel)
    (event : String) (fields : Keyed Document) (state : Engine) (bound : LogContext) :
    (Procedure.changeCatalog change >>= fun _ =>
      Procedure.log level event fields).advance state bound =
      ⟨state.changed change, bound, .done ((change state.catalog).map fun _ => ())⟩ := by
  have haccess : (Procedure.changeCatalog change >>= fun _ =>
      Procedure.log level event fields).advance state bound =
        ((Procedure.ofExcept ((change state.catalog).map fun _ => ())).bind fun _ =>
          Procedure.log level event fields).advance (state.changed change) bound := rfl
  rw [haccess]
  cases change state.catalog <;> rfl

theorem advance_register (cube : Cube) (replace : Bool) (state : Engine) (bound : LogContext) :
    ∃ outcome, (Procedure.register cube replace).advance state bound =
      ⟨state.changed fun catalog => catalog.register cube replace, bound, .done outcome⟩ :=
  ⟨_, advance_changeCatalog _ _ _ _ state bound⟩

theorem advance_unregister (name : String) (state : Engine) (bound : LogContext) :
    ∃ outcome, (Procedure.unregister name).advance state bound =
      ⟨state.changed fun catalog => catalog.unregister name, bound, .done outcome⟩ :=
  ⟨_, advance_changeCatalog _ _ _ _ state bound⟩

theorem moves_of_call {call : Call} {context : LogContext}
    (h : (Task.made call world.engine context).proceed call.procedure world.engine =
      (engine, task)) : world.Moves holds (.call call context) engine task := by
  cases call with
  | register cube replace =>
      obtain ⟨outcome, hadvance⟩ := advance_register cube replace world.engine context
      have hproceed :=
        Task.proceed_eq (Task.made (.register cube replace) world.engine context) hadvance
      obtain ⟨rfl, rfl⟩ := Prod.mk.inj (hproceed.symm.trans h)
      exact .register cube replace context outcome
  | unregister name =>
      obtain ⟨outcome, hadvance⟩ := advance_unregister name world.engine context
      have hproceed := Task.proceed_eq (Task.made (.unregister name) world.engine context) hadvance
      obtain ⟨rfl, rfl⟩ := Prod.mk.inj (hproceed.symm.trans h)
      exact .unregister name context outcome
  | refresh cube =>
      have hproceed := Task.proceed_eq (Task.made (.refresh cube) world.engine context)
        (@Stage.reaches_start cube world.engine context)
      obtain ⟨rfl, rfl⟩ := Prod.mk.inj (hproceed.symm.trans h)
      rcases Stage.start_cases cube world.engine with ⟨failure, hstart⟩ | ⟨entry, hentry, hgoes⟩
      · rw [hstart]
        exact .refuse cube context failure
      · exact .start cube context entry _ _ hentry hgoes
  | read operation =>
      obtain ⟨hafter, hrest⟩ := (operation.reads fun _ => False).advance world.engine context
        fun _ hfalse => hfalse.elim
      obtain ⟨rfl, rfl⟩ := Prod.mk.inj h
      exact .read operation context _ _ _ hafter hrest

theorem moves_of_signal {index : Nat} {signal : Signal} {before : Task}
    {rest : Procedure before.call.Result} (hsound : before.Sound holds)
    (hbefore : world.tasks[index]? = some before) (hrest : before.rest.resume signal = some rest)
    (h : before.proceed rest world.engine = (engine, task)) :
    world.Moves holds (.signal index signal) engine task := by
  cases hsound with
  | registered cube replace begun context outcome => simp [Procedure.resume] at hrest
  | unregistered name begun context outcome => simp [Procedure.resume] at hrest
  | refreshing cube begun context stage hholds =>
      obtain ⟨next, hnext, hreaches⟩ := Stage.reaches_resume hrest
      have hproceed := Task.proceed_eq ⟨.refresh cube, begun, context, stage.procedure cube⟩
        (hreaches context)
      obtain ⟨rfl, rfl⟩ := Prod.mk.inj (hproceed.symm.trans h)
      exact .resume index signal cube begun context stage _ _ hbefore hholds
        (Stage.goes_resume hnext)
  | reading operation begun context before hreads =>
      obtain ⟨hafter, hrest⟩ := (hreads signal rest hrest).advance world.engine context
        fun _ hfalse => hfalse.elim
      obtain ⟨rfl, rfl⟩ := Prod.mk.inj h
      exact .readOn index signal operation begun context _ before _ _ hbefore hafter hrest

/-- Sound tasks move in one of these ways. -/
theorem moves_of_moved (hsound : ∀ task ∈ world.tasks, task.Sound holds)
    (h : world.moved event = some (engine, task)) : world.Moves holds event engine task := by
  rcases moved_eq_some h with ⟨call, context, rfl, hproceed⟩ | hsignal
  · exact moves_of_call hproceed
  · obtain ⟨index, signal, before, rest, rfl, hbefore, hrest, hproceed⟩ := hsignal
    exact moves_of_signal (hsound before (List.mem_of_getElem? hbefore)) hbefore hrest hproceed

/-- The settings of an engine stay what they are. -/
theorem settings_next (hsound : ∀ task ∈ world.tasks, task.Sound holds) (event : Event) :
    (world.next event).engine.settings = world.engine.settings := by
  cases hmoved : world.moved event with
  | none => rw [next_eq_self hmoved]
  | some moved =>
      obtain ⟨engine, task⟩ := moved
      rw [engine_next hmoved]
      cases moves_of_moved hsound hmoved with
      | register cube replace context outcome => exact Engine.changed_settings _ _
      | unregister name context outcome => exact Engine.changed_settings _ _
      | refuse cube context failure => rfl
      | start cube context entry after next hentry hgoes => exact hgoes.settings
      | resume index signal cube begun context stage after next hbefore hholds hgoes =>
          exact hgoes.settings
      | read operation context after bound rest hafter hrest => exact hafter.settings
      | readOn index signal operation begun context bound before rest after hbefore hafter hrest =>
          exact hafter.settings

/-- Leases are a matter of reads. -/
theorem leases_of_moved (hsound : ∀ task ∈ world.tasks, task.Sound holds)
    (h : world.moved event = some (engine, task))
    (hcall : ∀ operation, task.call ≠ .read operation) : engine.leases = world.engine.leases := by
  cases moves_of_moved hsound h with
  | register cube replace context outcome => exact Engine.changed_leases _ _
  | unregister name context outcome => exact Engine.changed_leases _ _
  | refuse cube context failure => rfl
  | start cube context entry after next hentry hgoes => exact hgoes.leases
  | resume index signal cube begun context stage after next hbefore hholds hgoes =>
      exact hgoes.leases
  | read operation context after bound rest hafter hrest => exact absurd rfl (hcall operation)
  | readOn index signal operation begun context bound before rest after hbefore hafter hrest =>
      exact absurd rfl (hcall operation)

end World

end StarCube
