import StarCube.Engine.Procedure
import StarCube.Proofs.Outcome

/-!
Procedures that take the same steps and tell the store apart only by the values they send. What runs
them sees no more of the one than of the other: they leave the same records behind.
-/

namespace StarCube

namespace Procedure

variable {α β γ δ : Type}

/-- Procedures that take the same steps, up to the values of the queries they send, and end
alike. -/
inductive Alike (related : α → β → Prop) : Procedure α → Procedure β → Prop
  | done {left : Except Failure α} {right : Except Failure β}
      (h : Except.Alike related left right) : Alike related (.done left) (.done right)
  | access (update : Engine → Engine) {left : Engine → Procedure α} {right : Engine → Procedure β}
      (h : ∀ engine, Alike related (left engine) (right engine)) :
      Alike related (.access update left) (.access update right)
  | context (update : LogContext → LogContext) {left : LogContext → Procedure α}
      {right : LogContext → Procedure β}
      (h : ∀ context, Alike related (left context) (right context)) :
      Alike related (.context update left) (.context update right)
  | emit (record : LogRecord) {left : Procedure α} {right : Procedure β}
      (h : Alike related left right) : Alike related (.emit record left) (.emit record right)
  | acquire (cube : String) {left : Procedure α} {right : Procedure β}
      (h : Alike related left right) : Alike related (.acquire cube left) (.acquire cube right)
  | query {request other : StoreQuery} {left : Except Failure QueryResult → Procedure α}
      {right : Except Failure QueryResult → Procedure β} (sql : request.sql = other.sql)
      (timeout : request.timeout = other.timeout)
      (h : ∀ answer, Alike related (left answer) (right answer)) :
      Alike related (.query request left) (.query other right)
  | gather (gathering : Gathering) {left : Except Failure (List (List Row)) → Procedure α}
      {right : Except Failure (List (List Row)) → Procedure β}
      (h : ∀ outcome, Alike related (left outcome) (right outcome)) :
      Alike related (.gather gathering left) (.gather gathering right)
  | execute (statements : List String) {left : Except Failure Unit → Procedure α}
      {right : Except Failure Unit → Procedure β}
      (h : ∀ answer, Alike related (left answer) (right answer)) :
      Alike related (.execute statements left) (.execute statements right)

namespace Alike

theorem refl (procedure : Procedure α) : Alike Eq procedure procedure := by
  induction procedure with
  | done outcome => exact .done (.refl outcome)
  | access update next ih => exact .access update ih
  | context update next ih => exact .context update ih
  | emit record next ih => exact .emit record ih
  | acquire cube next ih => exact .acquire cube ih
  | query request next ih => exact .query rfl rfl ih
  | gather gathering next ih => exact .gather gathering ih
  | execute statements next ih => exact .execute statements ih

variable {related : α → β → Prop} {after : γ → δ → Prop} {left : Procedure α} {right : Procedure β}

theorem attempt {f : Except Failure α → Procedure γ} {g : Except Failure β → Procedure δ}
    (h : Alike related left right)
    (hnext : ∀ a b, Except.Alike related a b → Alike after (f a) (g b)) :
    Alike after (left.attempt f) (right.attempt g) := by
  induction h with
  | done h => exact hnext _ _ h
  | access update h ih => exact .access update ih
  | context update h ih => exact .context update ih
  | emit record h ih => exact .emit record ih
  | acquire cube h ih => exact .acquire cube ih
  | query hsql htimeout h ih => exact .query hsql htimeout ih
  | gather gathering h ih => exact .gather gathering ih
  | execute statements h ih => exact .execute statements ih

theorem bind {f : α → Procedure γ} {g : β → Procedure δ} (h : Alike related left right)
    (hnext : ∀ a b, related a b → Alike after (f a) (g b)) :
    Alike after (left >>= f) (right >>= g) := by
  rw [bind_eq_attempt, bind_eq_attempt]
  refine h.attempt fun a b hab => ?_
  cases hab with
  | ok h => exact hnext _ _ h
  | error fault => exact .done (.error fault)

theorem ensuring (h : Alike related left right) (cleanup : Procedure Unit) :
    Alike related (left.ensuring cleanup) (right.ensuring cleanup) := by
  refine h.attempt fun a b hab => ?_
  refine (Alike.refl cleanup).bind ?_
  rintro _ _ rfl
  exact .done hab

theorem within (h : Alike related left right) (fields : Keyed Document) :
    Alike related (left.within fields) (right.within fields) :=
  .context _ fun _ => h.ensuring _

theorem leasing (h : Alike related left right) (tables : List String) :
    Alike related (left.leasing tables) (right.leasing tables) := by
  refine (Alike.refl (update (·.lease tables))).bind ?_
  rintro _ _ rfl
  exact h.ensuring _

end Alike

end Procedure

/-- What goes on around a procedure: what others do to the engine before its `n`-th step, and what
the store answers if that step asks it, or which of several questions is answered then. -/
structure Surroundings where
  others : Nat → Engine → Engine
  answer : Nat → Except Failure QueryResult
  choice : Nat → Option Nat
  acknowledge : Nat → Except Failure Unit

/-- A run that is recorded: the state of the engine and the log context, the number of steps taken,
and the log records written, the last one first. -/
structure Recording where
  engine : Engine
  context : LogContext
  steps : Nat
  records : List LogRecord

/-- A host that keeps a recording. -/
def Surroundings.host (around : Surroundings) : Host (StateM Recording) where
  access update := fun recording =>
    let engine := around.others recording.steps recording.engine
    (engine, { recording with engine := update engine, steps := recording.steps + 1 })
  context update := fun recording =>
    (recording.context, { recording with
      context := update recording.context
      steps := recording.steps + 1 })
  emit record := fun recording =>
    ((), { recording with records := record :: recording.records, steps := recording.steps + 1 })
  query _ := fun recording =>
    (around.answer recording.steps, { recording with steps := recording.steps + 1 })
  choose _ := fun recording =>
    (around.choice recording.steps, { recording with steps := recording.steps + 1 })
  execute _ := fun recording =>
    (around.acknowledge recording.steps, { recording with steps := recording.steps + 1 })

namespace Procedure

variable {α β : Type}

/-- The recording that a run of a procedure leaves behind. -/
def recorded (procedure : Procedure α) (around : Surroundings) (start : Recording) : Recording :=
  (procedure.run around.host start).2

/-- Procedures that are alike take the same steps and leave the same questions open. -/
theorem Alike.steps_eq {related : α → β → Prop} {left : Procedure α} {right : Procedure β}
    (h : Alike related left right) (around : Surroundings) (start : Recording) :
    (left.steps around.host start).2 = (right.steps around.host start).2 ∧
      (left.steps around.host start).1.2 = (right.steps around.host start).1.2 := by
  induction h generalizing start with
  | done h => exact ⟨rfl, rfl⟩
  | access update h ih => exact ih _ _
  | context update h ih => exact ih _ _
  | emit record h ih => exact ih _
  | acquire cube h ih => exact ih _
  | query hsql htimeout h ih => exact ih _ _
  | gather gathering h ih =>
      obtain ⟨hafter, hleft⟩ := ih _ _
      exact ⟨hafter, congrArg _ hleft⟩
  | execute statements h ih => exact ih _ _

/-- Procedures that are alike leave the same recording behind. -/
theorem Alike.recorded_eq {related : α → β → Prop} {left : Procedure α} {right : Procedure β}
    (h : Alike related left right) (around : Surroundings) (start : Recording) :
    left.recorded around start = right.recorded around start := by
  obtain ⟨hafter, hleft⟩ := h.steps_eq around start
  have hrecorded : ∀ {γ : Type} (procedure : Procedure γ), procedure.recorded around start =
      ((procedure.steps around.host start).1.2.forM (Leftover.finish around.host)
        (procedure.steps around.host start).2).2 := fun _ => rfl
  rw [hrecorded, hrecorded, hafter, hleft]

end Procedure

end StarCube
