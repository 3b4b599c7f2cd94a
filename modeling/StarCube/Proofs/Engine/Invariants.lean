import StarCube.Proofs.Engine.Moves

/-!
Invariants of a run. What is said of the engine and of the stages of its refreshes holds after every
run if it holds of a new engine, the steps of a refresh keep it, and so do the other calls as far as
it is about the engine.
-/

namespace StarCube

/-- Something that holds of the engine and of each refresh, by the state in which it was called, its
cube and its stage, and is kept by all that can happen. -/
structure Invariant (good : Engine → Prop) (holds : Engine → String → Stage → Prop) : Prop where
  fresh : ∀ settings, good (World.fresh settings).engine
  register : ∀ {engine : Engine} {cube : Cube} {replace : Bool}, good engine →
    good (engine.changed fun catalog => catalog.register cube replace)
  unregister : ∀ {engine : Engine} {name : String}, good engine →
    good (engine.changed fun catalog => catalog.unregister name)
  reads : ∀ {engine after : Engine}, engine.ReadFrom after → good engine → good after
  ended : ∀ begun cube failure, holds begun cube (.ended (.error failure))
  waiting : ∀ {engine : Engine} {cube : String} {entry : CatalogEntry}, good engine →
    engine.catalog.entry? cube = some entry → holds engine cube (.waiting entry.source)
  goes : ∀ {cube : String} {begun engine after : Engine} {stage next : Stage},
    Stage.Goes cube engine stage after next → good engine → holds begun cube stage →
      good after ∧ holds begun cube next

/-- An invariant holds in a world. -/
structure World.Satisfies (good : Engine → Prop) (holds : Engine → String → Stage → Prop)
    (world : World) : Prop where
  engine : good world.engine
  sound : ∀ task ∈ world.tasks, task.Sound holds

namespace Invariant

variable {good : Engine → Prop} {holds : Engine → String → Stage → Prop} {world : World}
  {event : Event}

theorem of_moved (h : Invariant good holds) (hworld : world.Satisfies good holds) {engine : Engine}
    {task : Task} (hmoved : world.moved event = some (engine, task)) :
    good engine ∧ task.Sound holds := by
  cases World.moves_of_moved hworld.sound hmoved with
  | register cube replace context outcome =>
      exact ⟨h.register hworld.engine, .registered cube replace _ context outcome⟩
  | unregister name context outcome =>
      exact ⟨h.unregister hworld.engine, .unregistered name _ context outcome⟩
  | refuse cube context failure =>
      exact ⟨hworld.engine, .refreshing cube _ context _ (h.ended _ cube failure)⟩
  | start cube context entry after next hentry hgoes =>
      obtain ⟨hafter, hnext⟩ := h.goes hgoes hworld.engine (h.waiting hworld.engine hentry)
      exact ⟨hafter, .refreshing cube _ context next hnext⟩
  | resume index signal cube begun context stage after next hbefore hstage hgoes =>
      obtain ⟨hafter, hnext⟩ := h.goes hgoes hworld.engine hstage
      exact ⟨hafter, .refreshing cube begun context next hnext⟩
  | read operation context after bound rest hafter hrest =>
      exact ⟨h.reads hafter hworld.engine, .reading operation _ bound rest hrest⟩
  | readOn index signal operation begun context bound before rest after hbefore hafter hrest =>
      exact ⟨h.reads hafter hworld.engine, .reading operation begun bound rest hrest⟩

theorem next (h : Invariant good holds) (hworld : world.Satisfies good holds) (event : Event) :
    (world.next event).Satisfies good holds where
  engine := by
    cases hmoved : world.moved event with
    | none =>
        rw [World.next_eq_self hmoved]
        exact hworld.engine
    | some moved =>
        rw [World.engine_next hmoved]
        exact (h.of_moved hworld hmoved).1
  sound := by
    intro task htask
    rcases World.mem_tasks_next htask with hold | ⟨engine, hmoved⟩
    · exact hworld.sound task hold
    · exact (h.of_moved hworld hmoved).2

/-- An invariant that holds in a world holds after every run from there. -/
theorem run_of_satisfies (h : Invariant good holds) (hworld : world.Satisfies good holds)
    (events : List Event) : (world.run events).Satisfies good holds := by
  induction events generalizing world with
  | nil => exact hworld
  | cons event rest ih => exact ih (h.next hworld event)

/-- An invariant holds after every run of a new engine. -/
theorem run (h : Invariant good holds) (settings : Settings) (events : List Event) :
    ((World.fresh settings).run events).Satisfies good holds :=
  h.run_of_satisfies ⟨h.fresh settings, by simp [World.fresh]⟩ events

end Invariant

end StarCube
