import StarCube.Proofs.Engine.Moves

/-!
Turns to refresh a cube. A refresh that waits for the store has its turn, and no two refreshes of
one cube have theirs at the same time.
-/

namespace StarCube

/-- A refresh waits for the store, so that it has its turn. -/
def Stage.active : Stage → Bool
  | .creating .. => true
  | .cleaning .. => true
  | .expiring .. => true
  | _ => false

/-- Statements are waited for just at the stages that have their turn. -/
theorem Stage.active_of_mem_submitted {cube statement : String} {stage : Stage}
    (h : statement ∈ stage.submitted cube) : stage.active = true := by
  cases stage with
  | waiting source => cases h
  | ended outcome => cases h
  | _ => rfl

/-- A procedure waits for statements to be executed. -/
def Procedure.executes {α : Type} : Procedure α → Bool
  | .execute .. => true
  | _ => false

theorem Stage.executes_procedure (cube : String) (stage : Stage) :
    (stage.procedure cube).executes = stage.active := by
  cases stage with
  | creating source version created table rest =>
      simp only [procedure, building_cons]
      rfl
  | waiting source => rfl
  | cleaning version created failure => rfl
  | expiring version idle => rfl
  | ended outcome => rfl

/-- A task is a refresh of a cube that has its turn. -/
def Task.HasTurn (task : Task) (cube : String) : Prop :=
  task.call = .refresh cube ∧ task.rest.executes = true

theorem Task.hasTurn_iff {cube other : String} {begun : Engine} {context : LogContext}
    {stage : Stage} :
    (⟨.refresh other, begun, context, stage.procedure other⟩ : Task).HasTurn cube ↔
      other = cube ∧ stage.active = true := by
  show Call.refresh other = .refresh cube ∧ (stage.procedure other).executes = true ↔ _
  rw [Stage.executes_procedure, Call.refresh.injEq]

namespace Stage

variable {cube other : String} {engine after : Engine} {stage next : Stage}

/-- A refresh that goes on has had its turn and keeps the lock while it has it, or its turn begins,
or it has none and leaves the locks as they are. -/
theorem Goes.turn (h : Goes cube engine stage after next) :
    (stage.active = true ∧ (next.active = true → after.locks = engine.locks)) ∨
    (cube ∉ engine.locks ∧ cube ∈ after.locks) ∨
    (next.active = false ∧ after.locks = engine.locks) := by
  cases h with
  | waits source busy => exact .inr (.inr ⟨rfl, rfl⟩)
  | refused source failure => exact .inr (.inr ⟨rfl, rfl⟩)
  | enters source entry free registered => exact .inr (.inl ⟨free, List.mem_cons_self⟩)
  | creates source version created table next rest => exact .inl ⟨rfl, fun _ => rfl⟩
  | gives source version created table rest failure => exact .inl ⟨rfl, fun h => by cases h⟩
  | fails source version created table rest made failure hmade => exact .inl ⟨rfl, fun _ => rfl⟩
  | publishes source version created table published hpublished =>
      obtain ⟨catalog, -, rfl⟩ := hpublished
      exact .inl ⟨rfl, fun _ => rfl⟩
  | finishes source version created table published hpublished =>
      exact .inl ⟨rfl, fun h => by cases h⟩
  | cleaned version created failure => exact .inl ⟨rfl, fun h => by cases h⟩
  | expired version idle => exact .inl ⟨rfl, fun h => by cases h⟩

/-- A refresh does not end the turn of another cube. -/
theorem Goes.mem_locks (h : Goes cube engine stage after next) (hother : other ≠ cube)
    (hlocked : other ∈ engine.locks) : other ∈ after.locks := by
  have herase : other ∈ engine.locks.erase cube := (List.mem_erase_of_ne hother).2 hlocked
  cases h with
  | waits source busy => exact hlocked
  | refused source failure => exact hlocked
  | enters source entry free registered => exact List.mem_cons_of_mem _ hlocked
  | creates source version created table next rest => exact hlocked
  | gives source version created table rest failure => exact herase
  | fails source version created table rest made failure hmade => exact hlocked
  | publishes source version created table published hpublished =>
      obtain ⟨catalog, -, rfl⟩ := hpublished
      exact hlocked
  | finishes source version created table published hpublished =>
      obtain ⟨catalog, -, rfl⟩ := hpublished
      exact herase
  | cleaned version created failure => exact herase
  | expired version idle => exact herase

end Stage

namespace World

/-- At most one refresh of a cube has its turn, and the cube is locked meanwhile. -/
structure Exclusive (world : World) (cube : String) : Prop where
  unique : ∀ (i j : Nat) (left right : Task), world.tasks[i]? = some left →
    world.tasks[j]? = some right → left.HasTurn cube → right.HasTurn cube → i = j
  locked : ∀ task ∈ world.tasks, task.HasTurn cube → cube ∈ world.engine.locks

variable {cube : String} {world : World} {event : Event} {engine : Engine} {task : Task}

theorem place_le_of_moved (h : world.moved event = some (engine, task)) :
    world.place event ≤ world.tasks.length := by
  rcases moved_eq_some h with
    ⟨call, context, rfl, -⟩ | ⟨index, signal, before, rest, rfl, hbefore, -⟩
  · exact Nat.le_refl _
  · exact Nat.le_of_lt (List.getElem?_eq_some_iff.1 hbefore).1

theorem tasks_next (h : world.moved event = some (engine, task)) (i : Nat) :
    (world.next event).tasks[i]? =
      if i = world.place event then some task else world.tasks[i]? := by
  have hplace := place_le_of_moved h
  have hlength : (world.tasks.take (world.place event)).length = world.place event :=
    List.length_take_of_le hplace
  simp only [next, h]
  rw [List.getElem?_append, hlength]
  by_cases hlt : i < world.place event
  · rw [if_pos hlt, if_neg (by omega), List.getElem?_take_of_lt hlt]
  · rw [if_neg hlt]
    by_cases heq : i = world.place event
    · simp [heq]
    · rw [if_neg heq, List.getElem?_cons, if_neg (by omega), List.getElem?_drop]
      congr 1
      omega

/-- Another task than the one that moved stays as it was. -/
theorem Exclusive.of_moved (h : world.Exclusive cube)
    (hmoved : world.moved event = some (engine, task))
    (hunique : task.HasTurn cube → ∀ i other, i ≠ world.place event → world.tasks[i]? = some other →
      ¬ other.HasTurn cube)
    (hlocked : task.HasTurn cube → cube ∈ engine.locks)
    (hothers : ∀ i other, i ≠ world.place event → world.tasks[i]? = some other →
      other.HasTurn cube → cube ∈ engine.locks) : (world.next event).Exclusive cube := by
  have hengine := engine_next hmoved
  constructor
  · intro i j left right hleft hright hleftTurn hrightTurn
    rw [tasks_next hmoved] at hleft hright
    by_cases hi : i = world.place event <;> by_cases hj : j = world.place event
    · rw [hi, hj]
    · rw [if_pos hi] at hleft
      rw [if_neg hj] at hright
      obtain rfl := Option.some.inj hleft
      exact absurd hrightTurn (hunique hleftTurn j right hj hright)
    · rw [if_neg hi] at hleft
      rw [if_pos hj] at hright
      obtain rfl := Option.some.inj hright
      exact absurd hleftTurn (hunique hrightTurn i left hi hleft)
    · rw [if_neg hi] at hleft
      rw [if_neg hj] at hright
      exact h.unique i j left right hleft hright hleftTurn hrightTurn
  · intro other hother hturn
    rw [hengine]
    obtain ⟨i, hi⟩ := List.getElem?_of_mem hother
    rw [tasks_next hmoved] at hi
    by_cases hplace : i = world.place event
    · rw [if_pos hplace] at hi
      obtain rfl := Option.some.inj hi
      exact hlocked hturn
    · rw [if_neg hplace] at hi
      exact hothers i other hplace hi hturn

/-- A task without a turn leaves the turns of others alone. -/
theorem Exclusive.next_of_idle (h : world.Exclusive cube)
    (hmoved : world.moved event = some (engine, task)) (hidle : ¬ task.HasTurn cube)
    (hlocks : cube ∈ world.engine.locks → cube ∈ engine.locks) :
    (world.next event).Exclusive cube := by
  refine h.of_moved hmoved (fun hturn => absurd hturn hidle) (fun hturn => absurd hturn hidle) ?_
  intro i other _ hother hturn
  exact hlocks (h.locked other (List.mem_of_getElem? hother) hturn)

/-- A task that has had its turn is the only one. -/
theorem Exclusive.next_of_hasTurn (h : world.Exclusive cube)
    (hmoved : world.moved event = some (engine, task)) {before : Task}
    (hbefore : world.tasks[world.place event]? = some before) (hturn : before.HasTurn cube)
    (hlocked : task.HasTurn cube → cube ∈ engine.locks) : (world.next event).Exclusive cube := by
  have hothers : ∀ i other, i ≠ world.place event → world.tasks[i]? = some other →
      ¬ other.HasTurn cube := by
    intro i other hi hother hotherTurn
    exact hi (h.unique i _ other before hother hbefore hotherTurn hturn)
  refine h.of_moved hmoved (fun _ => hothers) hlocked ?_
  intro i other hi hother hotherTurn
  exact absurd hotherTurn (hothers i other hi hother)

/-- A turn begins when no other task has one. -/
theorem Exclusive.next_of_free (h : world.Exclusive cube)
    (hmoved : world.moved event = some (engine, task)) (hfree : cube ∉ world.engine.locks)
    (hlocked : cube ∈ engine.locks) : (world.next event).Exclusive cube := by
  refine h.of_moved hmoved ?_ (fun _ => hlocked) (fun _ _ _ _ _ => hlocked)
  intro _ i other _ hother hturn
  exact hfree (h.locked other (List.mem_of_getElem? hother) hturn)

/-- A refresh goes on. -/
theorem Exclusive.next_of_goes (h : world.Exclusive cube) {other : String} {begun : Engine}
    {context : LogContext} {stage next : Stage}
    (hmoved : world.moved event =
      some (engine, ⟨.refresh other, begun, context, next.procedure other⟩))
    (hgoes : Stage.Goes other world.engine stage engine next)
    (hbefore : stage.active = true →
      world.tasks[world.place event]? =
        some ⟨.refresh other, begun, context, stage.procedure other⟩) :
    (world.next event).Exclusive cube := by
  by_cases hcube : other = cube
  · subst hcube
    rcases hgoes.turn with ⟨hactive, hlocks⟩ | ⟨hfree, hlocked⟩ | ⟨hidle, hlocks⟩
    · have hmem := List.mem_of_getElem? (hbefore hactive)
      have hlocked := h.locked _ hmem (Task.hasTurn_iff.2 ⟨rfl, hactive⟩)
      refine h.next_of_hasTurn hmoved (hbefore hactive) (Task.hasTurn_iff.2 ⟨rfl, hactive⟩) ?_
      intro hturn
      rwa [hlocks (Task.hasTurn_iff.1 hturn).2]
    · exact h.next_of_free hmoved hfree hlocked
    · refine h.next_of_idle hmoved ?_ (fun hlocked => by rwa [hlocks])
      rw [Task.hasTurn_iff]
      simp [hidle]
  · refine h.next_of_idle hmoved ?_ (hgoes.mem_locks (Ne.symm hcube))
    rw [Task.hasTurn_iff]
    exact fun hturn => hcube hturn.1

/-- No event gives two refreshes of a cube their turn at the same time. -/
theorem Exclusive.next {holds : Engine → String → Stage → Prop} (h : world.Exclusive cube)
    (hsound : ∀ task ∈ world.tasks, task.Sound holds) (event : Event) :
    (world.next event).Exclusive cube := by
  cases hmoved : world.moved event with
  | none =>
      rwa [next_eq_self hmoved]
  | some moved =>
      obtain ⟨engine, task⟩ := moved
      cases moves_of_moved hsound hmoved with
      | register definition replace context outcome =>
          exact h.next_of_idle hmoved (by simp [Task.HasTurn]) (by simp)
      | unregister name context outcome =>
          exact h.next_of_idle hmoved (by simp [Task.HasTurn]) (by simp)
      | refuse other context failure =>
          refine h.next_of_idle hmoved ?_ id
          rw [Task.hasTurn_iff]
          simp [Stage.active]
      | start other context entry after next hentry hgoes =>
          exact h.next_of_goes hmoved hgoes (fun hactive => by cases hactive)
      | resume index signal other begun context stage after next hbefore hholds hgoes =>
          exact h.next_of_goes hmoved hgoes (fun _ => hbefore)
      | read operation context after bound rest hafter hrest =>
          refine h.next_of_idle hmoved (by simp [Task.HasTurn]) fun hlocked => ?_
          rwa [hafter.locks]
      | readOn index signal operation begun context bound before rest after hbefore hafter hrest =>
          refine h.next_of_idle hmoved (by simp [Task.HasTurn]) fun hlocked => ?_
          rwa [hafter.locks]

end World

end StarCube
