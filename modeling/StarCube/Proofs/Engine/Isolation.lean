import StarCube.Proofs.Engine.Lending

/-!
Isolation of reads. Whatever is refreshed, registered, unregistered and read meanwhile: a read sends
statements over the definition that was published when it was called and over no other, there are
leases on the tables of that definition while it waits, and the leases are those of the reads under
way.

A statement is sent when it is handed to the store, which is where the read that sends it comes to
wait; when the store takes it up is its own affair. A read that puts several questions side by side
is over with the first failure. Those that are still open then have been sent before, under the
lease that it gives back, and their answers are told to the log alone.
-/

namespace StarCube

namespace Procedure

variable {α : Type}

/-- A procedure has come to its end. -/
def ended : Procedure α → Bool
  | .done _ => true
  | _ => false

/-- The leases that a borrower of a definition holds. -/
def lent (published : Option Cube) (held : Bool) : List (List String) :=
  if held then (published.map Cube.tables).toList else []

/-- Where a borrower of a definition halts: at its end, or waiting for the store with the lease
held. -/
inductive Stays (settings : Settings) (published : Option Cube) (final : α → Prop) :
    Bool → Procedure α → Prop
  | done {outcome : Except Failure α} (h : ∀ value, outcome = .ok value → final value) :
      Stays settings published final false (.done outcome)
  | query {cube : Cube} {tables : List String} {request : StoreQuery}
      {next : Except Failure QueryResult → Procedure α} (hcube : published = some cube)
      (hsent : cube.Sent settings tables request.sql)
      (h : ∀ answer, Borrows settings published (fun _ => final) false none true (next answer)) :
      Stays settings published final true (.query request next)
  | gather {cube : Cube} {gathering : Gathering}
      {next : Except Failure (List (List Row)) → Procedure α} (hcube : published = some cube)
      (hsent : ∀ request ∈ gathering.requests, ∃ tables, cube.Sent settings tables request.sql)
      (h : ∀ outcome, (∀ rows, outcome = .ok rows → rows.length = gathering.parts.length) →
        Borrows settings published (fun _ => final) false none true (next outcome)) :
      Stays settings published final true (.gather gathering next)

variable {settings : Settings} {published : Option Cube} {final : α → Prop} {known : Option Catalog}
  {held : Bool} {procedure : Procedure α}

/-- Up to the place where it halts a borrower changes no leases but its own. -/
theorem Borrows.advance {others : List (List String)}
    (h : Borrows settings published (fun _ => final) false known held procedure) (state : Engine)
    (bound : LogContext) (hstate : state.Known settings known)
    (hleases : state.leases.Perm (lent published held ++ others)) :
    ∃ held, Stays settings published final held (procedure.advance state bound).rest ∧
      (procedure.advance state bound).engine.leases.Perm (lent published held ++ others) := by
  induction h generalizing state bound with
  | done h => exact ⟨false, .done h, hleases⟩
  | look h ih => exact ih state hstate state bound hstate hleases
  | @lease _ cube _ hcube h ih =>
      refine ih state (state.lease cube.tables) bound ⟨hstate.settings, hstate.catalog⟩ ?_
      rw [hcube]
      exact hleases.cons cube.tables
  | @release _ cube _ hcube h ih =>
      refine ih state (state.release cube.tables) bound ⟨hstate.settings, hstate.catalog⟩ ?_
      rw [hcube] at hleases
      have herased := hleases.erase cube.tables
      rwa [show lent (some cube) true ++ others = cube.tables :: others from rfl,
        List.erase_cons_head] at herased
  | context update h ih => exact ih bound state (update bound) hstate hleases
  | emit record h ih => exact ih state bound hstate hleases
  | query hcube hsent h ih => exact ⟨true, .query hcube hsent h, hleases⟩
  | gather hcube hsent h ih => exact ⟨true, .gather hcube hsent h, hleases⟩

/-- A borrower that waits goes on with the lease held. -/
theorem Stays.resume (h : Stays settings published final held procedure) {signal : Signal}
    {rest : Procedure α} (hrest : procedure.resume signal = some rest) :
    held = true ∧ Borrows settings published (fun _ => final) false none true rest := by
  cases h with
  | done h => cases signal <;> cases hrest
  | query hcube hsent h =>
      cases signal with
      | answer result =>
          obtain rfl := Option.some.inj hrest
          exact ⟨rfl, h result⟩
      | _ => cases hrest
  | @gather cube gathering next hcube hsent h =>
      refine ⟨rfl, ?_⟩
      obtain ⟨index, result, question, -, -, rfl⟩ | ⟨-, -, rfl⟩ := resume_gather hrest
      · refine .context id fun _ => .emit _ (.gather hcube (fun request hrequest => ?_) ?_)
        · exact hsent request (Gathering.mem_requests_of_settle hrequest)
        · simpa only [Gathering.length_settle] using h
      · exact h _ fun rows hrows => Gathering.length_of_outcome hrows

theorem Stays.ended_eq (h : Stays settings published final held procedure) :
    procedure.ended = !held := by
  cases h <;> rfl

end Procedure

namespace Task

/-- The lease that belongs to a task: a read that is not over has one on the tables of the
definition that was published when it was called. -/
def lease? : Task → Option (List String)
  | ⟨.read operation, begun, _, rest⟩ =>
      if rest.ended then none else (begun.published? operation.target).map Cube.tables
  | _ => none

/-- A task is a read that is not over, of a definition that has a table. -/
def reads (table : String) : Task → Bool
  | ⟨.read operation, begun, _, rest⟩ =>
      !rest.ended && (begun.published? operation.target).any fun cube => cube.tables.contains table
  | _ => false

/-- A task that reads stays where a borrower of its definition does. -/
def Stays (settings : Settings) : Task → Prop
  | ⟨.read operation, begun, _, rest⟩ => ∃ held, Procedure.Stays settings
      (begun.published? operation.target) (operation.Reports begun) held rest
  | _ => True

theorem lease?_of_stays {settings : Settings} {operation : Read} {begun : Engine}
    {context : LogContext} {rest : Procedure operation.Result} {held : Bool}
    (h : Procedure.Stays settings (begun.published? operation.target) (operation.Reports begun) held
      rest) :
    (⟨.read operation, begun, context, rest⟩ : Task).lease?.toList =
      Procedure.lent (begun.published? operation.target) held := by
  show (if rest.ended then _ else _ : Option (List String)).toList = _
  rw [h.ended_eq]
  cases held <;> rfl

/-- Other tasks than reads have no lease. -/
theorem lease?_eq_none {task : Task} (h : ∀ operation, task.call ≠ .read operation)
    (settings : Settings) : task.lease? = none ∧ task.Stays settings := by
  obtain ⟨call, begun, context, rest⟩ := task
  cases call with
  | read operation => exact absurd rfl (h operation)
  | register cube replace => exact ⟨rfl, trivial⟩
  | unregister name => exact ⟨rfl, trivial⟩
  | refresh cube => exact ⟨rfl, trivial⟩

end Task

namespace World

/-- The leases that are held are those of the reads under way, which stay where borrowers do. -/
structure Lent (settings : Settings) (world : World) : Prop where
  titled : world.Satisfies (fun engine => engine.catalog.Titled) fun _ cube stage =>
    stage.Titled cube
  configured : world.engine.settings = settings
  leases : world.engine.leases.Perm (world.tasks.filterMap Task.lease?)
  stays : ∀ task ∈ world.tasks, task.Stays settings

variable {settings : Settings} {world : World} {event : Event} {engine : Engine} {task : Task}

/-- The leases of all tasks but the one that an event is about. -/
def otherLeases (world : World) (event : Event) : List (List String) :=
  (world.tasks.eraseIdx (world.place event)).filterMap Task.lease?

theorem leases_perm_of_call (world : World) (call : Call) (context : LogContext) :
    (world.tasks.filterMap Task.lease?).Perm (world.otherLeases (.call call context)) := by
  have hplace : world.tasks.eraseIdx (world.place (.call call context)) = world.tasks :=
    List.eraseIdx_of_length_le (Nat.le_refl _)
  rw [otherLeases, hplace]

theorem filterMap_lease?_cons (task : Task) (tasks : List Task) :
    (task :: tasks).filterMap Task.lease? = task.lease?.toList ++ tasks.filterMap Task.lease? := by
  cases hlease : task.lease? <;> simp [hlease]

theorem leases_perm_of_signal {index : Nat} (hbefore : world.tasks[index]? = some task)
    (signal : Signal) :
    (world.tasks.filterMap Task.lease?).Perm
      (task.lease?.toList ++ world.otherLeases (.signal index signal)) := by
  obtain ⟨hindex, rfl⟩ := List.getElem?_eq_some_iff.1 hbefore
  have hperm := (List.getElem_cons_eraseIdx_perm hindex).symm.filterMap Task.lease?
  rwa [filterMap_lease?_cons] at hperm

theorem leases_perm_next (hmoved : world.moved event = some (engine, task)) :
    ((world.next event).tasks.filterMap Task.lease?).Perm
      (task.lease?.toList ++ world.otherLeases event) := by
  have htasks :
      (world.next event).tasks.Perm (task :: world.tasks.eraseIdx (world.place event)) := by
    simp only [next, hmoved, List.eraseIdx_eq_take_drop_succ]
    exact List.perm_middle
  have hperm := htasks.filterMap Task.lease?
  rwa [filterMap_lease?_cons] at hperm

/-- The task that moves stays where a borrower does, and no leases are changed but its own. -/
theorem Lent.of_moved (h : world.Lent settings) (hmoved : world.moved event = some (engine, task)) :
    task.Stays settings ∧ engine.leases.Perm (task.lease?.toList ++ world.otherLeases event) := by
  obtain rfl := h.configured
  have hquiet : (∀ operation, task.call ≠ .read operation) →
      world.engine.leases.Perm (world.otherLeases event) →
      task.Stays world.engine.settings ∧
        engine.leases.Perm (task.lease?.toList ++ world.otherLeases event) := by
    intro hcall hperm
    obtain ⟨hnone, hstays⟩ := Task.lease?_eq_none hcall world.engine.settings
    rw [leases_of_moved h.titled.sound hmoved hcall, hnone]
    exact ⟨hstays, hperm⟩
  rcases moved_eq_some hmoved with ⟨call, context, rfl, hproceed⟩ |
    ⟨index, signal, before, rest, rfl, hbefore, hrest, hproceed⟩
  · obtain ⟨rfl, rfl⟩ := Prod.mk.inj hproceed
    have hperm := h.leases.trans (leases_perm_of_call world call context)
    cases call with
    | read operation =>
        obtain ⟨held, hstays, hleases⟩ :=
          (operation.borrows h.titled.engine).advance world.engine context ⟨rfl, by simp⟩ hperm
        rw [← Task.lease?_of_stays hstays] at hleases
        exact ⟨⟨held, hstays⟩, hleases⟩
    | register cube replace => exact hquiet (fun _ hcall => by cases hcall) hperm
    | unregister name => exact hquiet (fun _ hcall => by cases hcall) hperm
    | refresh cube => exact hquiet (fun _ hcall => by cases hcall) hperm
  · obtain ⟨rfl, rfl⟩ := Prod.mk.inj hproceed
    have hperm := h.leases.trans (leases_perm_of_signal hbefore signal)
    have hstays := h.stays before (List.mem_of_getElem? hbefore)
    obtain ⟨call, begun, context, waiting⟩ := before
    cases call with
    | read operation =>
        obtain ⟨held, hstays⟩ := hstays
        obtain ⟨rfl, hborrows⟩ := hstays.resume hrest
        rw [Task.lease?_of_stays hstays] at hperm
        obtain ⟨held, hstays, hleases⟩ := hborrows.advance world.engine context ⟨rfl, by simp⟩ hperm
        rw [← Task.lease?_of_stays hstays] at hleases
        exact ⟨⟨held, hstays⟩, hleases⟩
    | register cube replace => exact hquiet (fun _ hcall => by cases hcall) hperm
    | unregister name => exact hquiet (fun _ hcall => by cases hcall) hperm
    | refresh cube => exact hquiet (fun _ hcall => by cases hcall) hperm

theorem Lent.next (h : world.Lent settings) (event : Event) : (world.next event).Lent settings := by
  cases hmoved : world.moved event with
  | none => rwa [next_eq_self hmoved]
  | some moved =>
      obtain ⟨engine, task⟩ := moved
      obtain ⟨hstays, hleases⟩ := h.of_moved hmoved
      constructor
      · exact titled_invariant.next h.titled event
      · rw [settings_next h.titled.sound event]
        exact h.configured
      · rw [engine_next hmoved]
        exact hleases.trans (leases_perm_next hmoved).symm
      · intro other hother
        rcases mem_tasks_next hother with hold | ⟨_, hnew⟩
        · exact h.stays other hold
        · obtain ⟨-, rfl⟩ := Prod.mk.inj (Option.some.inj (hmoved.symm.trans hnew))
          exact hstays

theorem Lent.run (h : world.Lent settings) (events : List Event) :
    (world.run events).Lent settings := by
  induction events generalizing world with
  | nil => exact h
  | cons event rest ih => exact ih (h.next event)

theorem lent_fresh (settings : Settings) : (fresh settings).Lent settings where
  titled := titled_invariant.run settings []
  configured := rfl
  leases := .nil
  stays := by simp [fresh]

/-- A cube is refreshed between two reads of it that overlap. -/
def refreshedBetween : List Event :=
  [.call (.register (.ofFacts "sales" "facts") false) .empty,
   .call (.read (.statistics "sales")) .empty,
   .call (.refresh "sales") .empty, .signal 2 (.acknowledge (.ok ())),
   .call (.read (.statistics "sales")) .empty]

/-- Each of the reads has its own version, until it is over. -/
example : ((fresh .standard).run refreshedBetween).engine.leases =
      [["facts__sales_v1"], ["facts"]] ∧
    ((fresh .standard).run (refreshedBetween ++
      [.signal 1 (.part 0 (.error (.store (.timeout "slow")))), .signal 1 .wake])).engine.leases =
        [["facts__sales_v1"]] := by
  decide +kernel

end World

end StarCube
