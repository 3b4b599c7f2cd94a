import Mathlib.Data.List.Forall2

/-!
When a computation that may fail succeeds, and when two of them come out alike.
-/

namespace StarCube.Except

variable {ε ε' α β γ δ : Type}

theorem map_eq_ok_iff {f : α → β} {outcome : Except ε α} {value : β} :
    outcome.map f = .ok value ↔ ∃ before, outcome = .ok before ∧ f before = value := by
  cases outcome <;> simp [Except.map]

theorem bind_eq_ok_iff {f : α → Except ε β} {outcome : Except ε α} {value : β} :
    outcome >>= f = .ok value ↔ ∃ before, outcome = .ok before ∧ f before = .ok value := by
  cases outcome <;> simp [bind, Except.bind]

theorem bind_eq_error_iff {f : α → Except ε β} {outcome : Except ε α} {failure : ε} :
    outcome >>= f = .error failure ↔
      outcome = .error failure ∨ ∃ before, outcome = .ok before ∧ f before = .error failure := by
  cases outcome <;> simp [bind, Except.bind]

theorem pure_eq_ok_iff {value other : α} :
    (pure value : Except ε α) = .ok other ↔ value = other := by
  simp [pure, Except.pure]

theorem mapError_eq_ok_iff {f : ε → ε'} {outcome : Except ε α} {value : α} :
    outcome.mapError f = .ok value ↔ outcome = .ok value := by
  cases outcome <;> simp [Except.mapError]

theorem discard_eq_ok_iff {outcome : Except ε α} {value : PUnit} :
    discard outcome = .ok value ↔ ∃ before, outcome = .ok before := by
  cases outcome <;> simp [discard, Functor.discard, Functor.mapConst, Except.map]

theorem toOption_eq_some_iff {outcome : Except ε α} {value : α} :
    outcome.toOption = some value ↔ outcome = .ok value := by
  cases outcome <;> simp [Except.toOption]

theorem isOk_iff {outcome : Except ε α} : outcome.isOk = true ↔ ∃ value, outcome = .ok value := by
  cases outcome <;> simp [Except.isOk, Except.toBool]

theorem map_bind {f : α → Except ε β} {g : β → γ} {outcome : Except ε α} :
    (outcome >>= f).map g = outcome >>= fun value => (f value).map g := by
  cases outcome <;> rfl

theorem bind_map {f : α → β} {g : β → Except ε γ} {outcome : Except ε α} :
    outcome.map f >>= g = outcome >>= fun value => g (f value) := by
  cases outcome <;> rfl

theorem map_pure {f : α → β} {value : α} :
    (pure value : Except ε α).map f = pure (f value) := rfl

/-- A check and what follows it. -/
theorem seq_eq_ok_iff {check : Except ε Unit} {rest : Except ε α} {value : α} :
    (check >>= fun _ => rest) = .ok value ↔ check = .ok () ∧ rest = .ok value := by
  cases check <;> simp [bind, Except.bind]

/-- A refusal and what follows it. -/
theorem refuse_eq_ok_iff {refused : Prop} [Decidable refused] {fault : ε} {rest : Except ε α}
    {value : α} :
    (if refused then (throw fault : Except ε Unit) >>= fun _ => rest else rest) = .ok value ↔
      ¬ refused ∧ rest = .ok value := by
  split <;> simp_all [throw, throwThe, MonadExceptOf.throw, bind, Except.bind]

theorem forM_eq_ok_iff {f : α → Except ε Unit} {list : List α} :
    list.forM f = .ok () ↔ ∀ element ∈ list, f element = .ok () := by
  induction list with
  | nil => simp [pure, Except.pure]
  | cons first rest ih =>
      have hcons : (first :: rest).forM f = (f first >>= fun _ => rest.forM f) := rfl
      rw [hcons, seq_eq_ok_iff, ih, List.forall_mem_cons]

/-- A list succeeds if all of its elements do. -/
theorem exists_mapM_eq_ok {f : α → Except ε β} {list : List α}
    (h : ∀ element ∈ list, ∃ value, f element = .ok value) :
    ∃ values, list.mapM f = .ok values := by
  induction list with
  | nil => exact ⟨[], rfl⟩
  | cons element rest ih =>
      rw [List.forall_mem_cons] at h
      obtain ⟨value, hvalue⟩ := h.1
      obtain ⟨values, hvalues⟩ := ih h.2
      exact ⟨value :: values, by rw [List.mapM_cons, hvalue, hvalues]; rfl⟩

/-- The elements of a list succeed one by one. -/
theorem forall₂_of_mapM {f : α → Except ε β} {list : List α} {values : List β}
    (h : list.mapM f = .ok values) :
    List.Forall₂ (fun element value => f element = .ok value) list values := by
  induction list generalizing values with
  | nil =>
      obtain rfl : [] = values := by simpa [pure, Except.pure] using h
      exact .nil
  | cons element rest ih =>
      rw [List.mapM_cons, bind_eq_ok_iff] at h
      obtain ⟨value, hvalue, h⟩ := h
      obtain ⟨others, hothers, h⟩ := bind_eq_ok_iff.1 h
      obtain rfl : value :: others = values := by simpa [pure, Except.pure] using h
      exact .cons hvalue (ih hothers)

theorem mapM_eq_ok_iff {f : α → Except ε β} {list : List α} {values : List β} :
    list.mapM f = .ok values ↔
      List.Forall₂ (fun element value => f element = .ok value) list values := by
  refine ⟨forall₂_of_mapM, fun h => ?_⟩
  induction h with
  | nil => rfl
  | cons hfirst _ ih =>
      rw [List.mapM_cons, hfirst, ih]
      rfl

theorem forall_mem_of_mapM {f : α → Except ε β} {holds : β → Prop} {list : List α}
    {values : List β} (h : list.mapM f = .ok values)
    (hf : ∀ element value, f element = .ok value → holds value) :
    ∀ value ∈ values, holds value := by
  have hall := forall₂_of_mapM h
  clear h
  induction hall with
  | nil => simp
  | cons hfirst _ ih =>
      rw [List.forall_mem_cons]
      exact ⟨hf _ _ hfirst, ih⟩

/-- Two computations that fail alike, or succeed with related values. -/
inductive Alike (related : α → β → Prop) : Except ε α → Except ε β → Prop
  | ok {left : α} {right : β} (h : related left right) : Alike related (.ok left) (.ok right)
  | error (fault : ε) : Alike related (.error fault) (.error fault)

namespace Alike

theorem refl (outcome : Except ε α) : Alike Eq outcome outcome := by
  cases outcome with
  | ok value => exact .ok rfl
  | error fault => exact .error fault

theorem bind {related : α → β → Prop} {next : γ → δ → Prop} {left : Except ε α}
    {right : Except ε β} {f : α → Except ε γ} {g : β → Except ε δ} (h : Alike related left right)
    (hnext : ∀ a b, related a b → Alike next (f a) (g b)) :
    Alike next (left >>= f) (right >>= g) := by
  cases h with
  | ok h => exact hnext _ _ h
  | error fault => exact .error fault

theorem mapM {related : α → β → Prop} {next : γ → δ → Prop} {left : List α} {right : List β}
    {f : α → Except ε γ} {g : β → Except ε δ} (h : List.Forall₂ related left right)
    (hnext : ∀ a b, related a b → Alike next (f a) (g b)) :
    Alike (List.Forall₂ next) (left.mapM f) (right.mapM g) := by
  induction h with
  | nil => exact .ok .nil
  | cons hfirst _ ih =>
      rw [List.mapM_cons, List.mapM_cons]
      refine (hnext _ _ hfirst).bind fun a b hab => ?_
      refine ih.bind fun as bs habs => ?_
      exact .ok (.cons hab habs)

theorem map_eq {related : α → β → Prop} {left : Except ε α} {right : Except ε β} {f : α → γ}
    {g : β → γ} (h : Alike related left right) (hmap : ∀ a b, related a b → f a = g b) :
    left.map f = right.map g := by
  cases h with
  | ok h => exact congrArg Except.ok (hmap _ _ h)
  | error fault => rfl

end Alike

end StarCube.Except
