import StarCube.Proofs.Engine.Turns

/-!
The course of a procedure among others. It goes from one place where it waits to the next, and finds
the engine each time as others have left it, which may be in any way. What it sends to the store and
what it is answered are its exchanges.
-/

namespace StarCube

/-- What a procedure sends to the store, with the answer that it is given. -/
inductive Exchange where
  | query (request : StoreQuery) (result : Except Failure QueryResult)
  | execute (statements : List String) (result : Except Failure Unit)

/-- A stretch that a procedure goes without waiting: the engine that it finds and the one that it
leaves. -/
structure Leg where
  found : Engine
  left : Engine

/-- Only turns to refresh a cube are taken or given back on a leg. -/
def Leg.Keeps (leg : Leg) : Prop :=
  ∃ locks, leg.left = { leg.found with locks := locks }

namespace Procedure

variable {α : Type}

/-- What a waiting procedure has exchanged with the store when it is given a signal. -/
def exchanged : Procedure α → Signal → List Exchange
  | .query request _, .answer result => [.query request result]
  | .gather gathering _, .part index result =>
      (gathering.question? index).toList.map fun question => .query question.request result
  | .execute statements _, .acknowledge result => [.execute statements result]
  | _, _ => []

/-- A procedure that is called and then told again and again what it waits for: the legs that it has
gone, its exchanges, and where it has come to. -/
inductive Course (procedure : Procedure α) (context : LogContext) :
    List Leg → List Exchange → Halt α → Prop
  | called (engine : Engine) {halt : Halt α} (advanced : procedure.advance engine context = halt) :
      Course procedure context [⟨engine, halt.engine⟩] [] halt
  | told {legs : List Leg} {exchanges : List Exchange} {before : Halt α}
      (course : Course procedure context legs exchanges before) (engine : Engine) (signal : Signal)
      {next : Procedure α} (resumed : before.rest.resume signal = some next) {halt : Halt α}
      (advanced : next.advance engine before.context = halt) :
      Course procedure context (legs ++ [⟨engine, halt.engine⟩])
        (exchanges ++ before.rest.exchanged signal) halt

end Procedure

/-- A procedure that does not wait for a signal exchanges nothing by it. -/
theorem Procedure.exchanged_eq_nil {α : Type} {procedure : Procedure α} {signal : Signal}
    (h : procedure.resume signal = none) : procedure.exchanged signal = [] := by
  cases procedure with
  | gather gathering next =>
      cases signal with
      | part index result =>
          have hclosed : gathering.question? index = none := Option.map_eq_none_iff.1 h
          rw [exchanged, hclosed]
          rfl
      | _ => rfl
  | _ => cases signal <;> first | rfl | cases h

namespace World

/-- What the call at a place exchanges with the store by an event. -/
def exchangedBy (world : World) (index : Nat) : Event → List Exchange
  | .signal other signal =>
      if other = index then
        (world.tasks[index]?.map fun task => task.rest.exchanged signal).getD []
      else []
  | .call .. => []

/-- What the call at a place exchanges with the store in a list of events. -/
def exchanges (index : Nat) : World → List Event → List Exchange
  | _, [] => []
  | world, event :: rest => world.exchangedBy index event ++ exchanges index (world.next event) rest

theorem run_append (world : World) (front back : List Event) :
    world.run (front ++ back) = (world.run front).run back := by
  simp [run]

theorem run_append_singleton (world : World) (events : List Event) (event : Event) :
    world.run (events ++ [event]) = (world.run events).next event :=
  run_append world events [event]

theorem exchanges_append_singleton (index : Nat) (world : World) (events : List Event)
    (event : Event) :
    world.exchanges index (events ++ [event]) =
      world.exchanges index events ++ (world.run events).exchangedBy index event := by
  induction events generalizing world with
  | nil => simp [exchanges, run]
  | cons first rest ih =>
      simp only [List.cons_append, exchanges, ih, List.append_assoc]
      rfl

/-- A task has come to where it is on a course from its call, with some exchanges. -/
def Courses (task : Task) (legs : List Leg) (exchanges : List Exchange) (engine : Engine) : Prop :=
  ∃ context, legs.head?.map Leg.found = some task.begun ∧
    task.call.procedure.Course context legs exchanges ⟨engine, task.context, task.rest⟩

/-- The exchanges are those of the task at a place, or there is none and nothing has been
exchanged. -/
def Traced (world : World) (index : Nat) (exchanges : List Exchange) : Prop :=
  match world.tasks[index]? with
  | none => exchanges = []
  | some task => ∃ legs engine, Courses task legs exchanges engine

variable {world : World} {event : Event} {engine : Engine} {task : Task} {index : Nat}

theorem exchangedBy_of_ne (h : index ≠ world.place event) : world.exchangedBy index event = [] := by
  cases event with
  | call call context => rfl
  | signal other signal => exact if_neg (Ne.symm h)

theorem exchangedBy_of_moved_eq_none (h : world.moved event = none) :
    world.exchangedBy index event = [] := by
  by_cases hplace : index = world.place event
  · subst hplace
    cases event with
    | call call context => rfl
    | signal other signal =>
        show (if other = other then _ else []) = []
        rw [if_pos rfl]
        show ((world.tasks[other]?.map fun task => task.rest.exchanged signal).getD []) = []
        cases htask : world.tasks[other]? with
        | none => rfl
        | some task =>
            have hresume : task.rest.resume signal = none := by
              cases hresume : task.rest.resume signal with
              | none => rfl
              | some rest => simp [moved, htask, hresume] at h
            exact Procedure.exchanged_eq_nil hresume
  · exact exchangedBy_of_ne hplace

/-- A task that moves goes one leg more on its course. -/
theorem courses_of_moved {told : List Exchange} (h : world.Traced (world.place event) told)
    (hmoved : world.moved event = some (engine, task)) :
    ∃ legs, Courses task (legs ++ [⟨world.engine, engine⟩])
      (told ++ world.exchangedBy (world.place event) event) engine := by
  rcases moved_eq_some hmoved with ⟨call, context, rfl, hproceed⟩ |
    ⟨index, signal, before, rest, rfl, hbefore, hrest, hproceed⟩
  · obtain ⟨rfl, rfl⟩ := Prod.mk.inj hproceed
    obtain rfl : told = [] := by simpa [Traced, place] using h
    exact ⟨[], context, rfl, .called world.engine rfl⟩
  · obtain ⟨rfl, rfl⟩ := Prod.mk.inj hproceed
    simp only [place, Traced, hbefore] at h
    obtain ⟨legs, engine, context, hhead, hcourse⟩ := h
    have hexchanged : world.exchangedBy index (.signal index signal) =
        before.rest.exchanged signal := by
      simp [exchangedBy, hbefore]
    refine ⟨legs, context, ?_, ?_⟩
    · obtain ⟨first, hfirst, hbegun⟩ := Option.map_eq_some_iff.1 hhead
      rw [List.head?_append, hfirst]
      exact congrArg some hbegun
    · rw [show world.place (.signal index signal) = index from rfl, hexchanged]
      exact hcourse.told world.engine signal hrest rfl

theorem Traced.next {told : List Exchange} (h : world.Traced index told) (event : Event) :
    (world.next event).Traced index (told ++ world.exchangedBy index event) := by
  cases hmoved : world.moved event with
  | none =>
      rw [next_eq_self hmoved, exchangedBy_of_moved_eq_none hmoved, List.append_nil]
      exact h
  | some moved =>
      obtain ⟨engine, task⟩ := moved
      have htasks := tasks_next hmoved index
      by_cases hplace : index = world.place event
      · subst hplace
        rw [if_pos rfl] at htasks
        obtain ⟨legs, hcourses⟩ := courses_of_moved h hmoved
        simp only [Traced, htasks]
        exact ⟨_, _, hcourses⟩
      · rw [if_neg hplace] at htasks
        rw [exchangedBy_of_ne hplace, List.append_nil]
        simpa only [Traced, htasks] using h

theorem Traced.run {told : List Exchange} (h : world.Traced index told) (events : List Event) :
    (world.run events).Traced index (told ++ world.exchanges index events) := by
  induction events generalizing world told with
  | nil => rwa [exchanges, List.append_nil]
  | cons event rest ih =>
      rw [exchanges, ← List.append_assoc]
      exact ih (h.next event)

/-- Every call of an engine goes a course, whatever else is called meanwhile. -/
theorem traced_run (settings : Settings) (events : List Event) (index : Nat) :
    ((fresh settings).run events).Traced index ((fresh settings).exchanges index events) := by
  have hfresh : (fresh settings).Traced index [] := by simp [Traced, fresh]
  exact hfresh.run events

end World

end StarCube
