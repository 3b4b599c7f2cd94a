import StarCube.Proofs.Cube.Consistent

/-!
Failures that are none of the engine's own, and how they come out of computations that are put
together from smaller ones: of those that are done one after the other, the first that fails
decides.
-/

namespace StarCube

variable {α β : Type}

/-- A computation fails with a failure that is none of the engine's own. -/
def Foreign (outcome : Except Failure α) : Prop :=
  ∃ failure, outcome = .error failure ∧ failure.isEngine = false

@[simp] theorem not_foreign_ok (value : α) : ¬ Foreign (.ok value : Except Failure α) := by
  simp [Foreign]

@[simp] theorem foreign_error_iff {failure : Failure} :
    Foreign (.error failure : Except Failure α) ↔ failure.isEngine = false := by
  simp [Foreign]

theorem foreign_bind_iff {outcome : Except Failure α} {f : α → Except Failure β} :
    Foreign (outcome >>= f) ↔ Foreign outcome ∨ ∃ value, outcome = .ok value ∧
      Foreign (f value) := by
  cases outcome <;> simp [bind, Except.bind]

theorem not_foreign_bind {outcome : Except Failure α} {f : α → Except Failure β}
    (h : ¬ Foreign outcome) (hnext : ∀ value, outcome = .ok value → ¬ Foreign (f value)) :
    ¬ Foreign (outcome >>= f) := by
  rw [foreign_bind_iff, or_iff_right h]
  rintro ⟨value, hvalue, hforeign⟩
  exact hnext value hvalue hforeign

theorem foreign_refuse_iff {refused : Prop} [Decidable refused] {failure : Failure}
    (hfailure : failure.isEngine = true) {rest : Except Failure α} :
    Foreign (if refused then (throw failure : Except Failure Unit) >>= fun _ => rest else rest) ↔
      ¬ refused ∧ Foreign rest := by
  by_cases h : refused <;>
    simp [h, hfailure, throw, throwThe, MonadExceptOf.throw, bind, Except.bind]

theorem foreign_map_iff {outcome : Except Failure α} {f : α → β} :
    Foreign (outcome.map f) ↔ Foreign outcome := by
  cases outcome <;> simp [Except.map]

theorem foreign_mapError_iff {ε : Type} {outcome : Except ε α} {f : ε → Failure} :
    Foreign (outcome.mapError f) ↔ ∃ fault, outcome = .error fault ∧
      (f fault).isEngine = false := by
  cases outcome <;> simp [Except.mapError]

theorem not_foreign_reference {outcome : Except ReferenceFault α} :
    ¬ Foreign (outcome.mapError Failure.reference) := by
  simp [foreign_mapError_iff, Failure.isEngine]

theorem foreign_requireIdentifier_iff {what text : String} :
    Foreign (requireIdentifier what text) ↔ ¬ Acceptable text := by
  rw [requireIdentifier, foreign_mapError_iff]
  simp only [Failure.isEngine, and_true]
  cases hcheck : checkIdentifier what text with
  | ok checked => simp [(checkIdentifier_eq_ok_iff.1 hcheck).1]
  | error fault =>
      simp only [Except.error.injEq, exists_eq', true_iff]
      intro htext
      rw [checkIdentifier_eq_ok_iff.2 ⟨htext, rfl⟩] at hcheck
      simp at hcheck

theorem foreign_discard_iff {outcome : Except Failure α} :
    Foreign (discard outcome) ↔ Foreign outcome := by
  cases outcome <;> simp [discard, Functor.discard, Functor.mapConst, Except.map]

section Lists

variable {f : α → Except Failure β} {list : List α}

/-- The first element of a list that has some property stands at the front, or is the first of the
rest. -/
theorem exists_first_cons_iff {before at_ : α → Prop} {first : α} {rest : List α} :
    (∃ front element back, first :: rest = front ++ element :: back ∧
        (∀ other ∈ front, before other) ∧ at_ element) ↔
      at_ first ∨ before first ∧ ∃ front element back, rest = front ++ element :: back ∧
        (∀ other ∈ front, before other) ∧ at_ element := by
  constructor
  · rintro ⟨front, element, back, heq, hfront, helement⟩
    cases front with
    | nil =>
        obtain ⟨rfl, rfl⟩ := List.cons.inj heq
        exact .inl helement
    | cons other front =>
        obtain ⟨rfl, rfl⟩ := List.cons.inj heq
        rw [List.forall_mem_cons] at hfront
        exact .inr ⟨hfront.1, front, element, back, rfl, hfront.2, helement⟩
  · rintro (hfirst | ⟨hfirst, front, element, back, rfl, hfront, helement⟩)
    · exact ⟨[], first, rest, rfl, by simp, hfirst⟩
    · exact ⟨first :: front, element, back, rfl, List.forall_mem_cons.2 ⟨hfirst, hfront⟩, helement⟩

/-- A list fails by the first of its elements that does. -/
theorem foreign_mapM_iff :
    Foreign (list.mapM f) ↔ ∃ front element back, list = front ++ element :: back ∧
      (∀ other ∈ front, ∃ value, f other = .ok value) ∧ Foreign (f element) := by
  induction list with
  | nil => simp [pure, Except.pure]
  | cons first rest ih =>
      have hpure (value : β) (values : List β) :
          ¬ Foreign (pure (value :: values) : Except Failure (List β)) := not_foreign_ok _
      rw [List.mapM_cons, foreign_bind_iff, exists_first_cons_iff, ← ih]
      simp only [foreign_bind_iff, hpure, and_false, exists_false, or_false, exists_and_right]

theorem not_foreign_mapM (h : ∀ element ∈ list, ¬ Foreign (f element)) :
    ¬ Foreign (list.mapM f) := by
  rw [foreign_mapM_iff]
  rintro ⟨front, element, back, rfl, -, hforeign⟩
  exact h element (by simp) hforeign

/-- A computation that fails with no failure of the engine's own. -/
def Raw (outcome : Except Failure α) : Prop :=
  Foreign outcome ∨ ∃ value, outcome = .ok value

/-- Where no element fails in another way, it does not matter which of them is the first. -/
theorem foreign_mapM_iff_exists (h : ∀ element ∈ list, Raw (f element)) :
    Foreign (list.mapM f) ↔ ∃ element ∈ list, Foreign (f element) := by
  induction list with
  | nil => simp [pure, Except.pure]
  | cons first rest ih =>
      rw [List.forall_mem_cons] at h
      have hpure (value : β) (values : List β) :
          ¬ Foreign (pure (value :: values) : Except Failure (List β)) := not_foreign_ok _
      rw [List.mapM_cons, foreign_bind_iff, List.exists_mem_cons_iff, ← ih h.2]
      simp only [foreign_bind_iff, hpure, and_false, exists_false, or_false]
      obtain hforeign | ⟨value, hvalue⟩ := h.1
      · simp [hforeign]
      · simp [hvalue]

section Folds

variable {step : β → α → Except Failure β}

theorem raw_foldlM (h : ∀ before element, Raw (step before element)) (before : β) :
    Raw (list.foldlM step before) := by
  induction list generalizing before with
  | nil => exact .inr ⟨before, rfl⟩
  | cons first rest ih =>
      rw [List.foldlM_cons]
      obtain hforeign | ⟨after, hafter⟩ := h before first
      · exact .inl (foreign_bind_iff.2 (.inl hforeign))
      · rw [hafter]
        exact ih after

/-- A fold fails just if one of its elements makes a step fail, whatever came before. -/
theorem foreign_foldlM_iff {bad : α → Prop} (h : ∀ before element, Raw (step before element))
    (hbad : ∀ before element, Foreign (step before element) ↔ bad element) (before : β) :
    Foreign (list.foldlM step before) ↔ ∃ element ∈ list, bad element := by
  induction list generalizing before with
  | nil => simp [pure, Except.pure]
  | cons first rest ih =>
      rw [List.foldlM_cons, foreign_bind_iff, List.exists_mem_cons_iff, hbad]
      obtain hforeign | ⟨after, hafter⟩ := h before first
      · simp [(hbad before first).1 hforeign]
      · simp [hafter, ih]

end Folds

end Lists

end StarCube
