import Mathlib.Data.List.Nodup
import StarCube.Keyed

/-!
Laws of lists of values by key: what is found after a key has been set or removed, and which keys
there are, in which order.
-/

namespace StarCube.Keyed

variable {α : Type}

theorem put_of_not_mem {entries : Keyed α} {key : String} {value : α} (h : key ∉ entries.keys) :
    entries.put key value = entries ++ [(key, value)] := by
  induction entries with
  | nil => rfl
  | cons entry rest ih =>
      rw [keys, List.map_cons, List.mem_cons, not_or] at h
      rw [put, if_neg (Ne.symm h.1), ih h.2, List.cons_append]

/-- Keys that are all different are set in their order. -/
theorem putAll_of_nodup {entries new : Keyed α} (h : (entries.keys ++ new.keys).Nodup) :
    entries.putAll new = entries ++ new := by
  induction new generalizing entries with
  | nil => simp [putAll]
  | cons entry rest ih =>
      have hmoved : entries.keys ++ keys (entry :: rest) =
          keys (entries ++ [entry]) ++ keys rest := by
        simp [keys]
      have hnew : entry.1 ∉ entries.keys := by
        intro hmem
        exact (List.nodup_append.1 h).2.2 _ hmem _ (by simp [keys]) rfl
      rw [hmoved] at h
      have hput : entries.putAll (entry :: rest) = (entries.put entry.1 entry.2).putAll rest := rfl
      rw [hput, put_of_not_mem hnew, ih h, List.append_assoc]
      rfl

theorem mem_keys_putAll {entries new : Keyed α} {key : String}
    (h : key ∈ (entries.putAll new).keys) : key ∈ entries.keys ∨ key ∈ new.keys := by
  induction new generalizing entries with
  | nil => exact .inl h
  | cons entry rest ih =>
      rcases ih h with hput | hrest
      · rw [keys_put] at hput
        split at hput
        · exact .inl hput
        · rcases List.mem_append.1 hput with hbefore | hself
          · exact .inl hbefore
          · exact .inr (List.mem_cons.2 (.inl (List.mem_singleton.1 hself)))
      · exact .inr (List.mem_cons_of_mem _ hrest)

/-- Of several values that are set for a key the last one stays. -/
theorem get?_putAll (entries new : Keyed α) (key : String) :
    (entries.putAll new).get? key = (get? new.reverse key).or (entries.get? key) := by
  induction new generalizing entries with
  | nil => rfl
  | cons entry rest ih =>
      obtain ⟨first, content⟩ := entry
      have hput : entries.putAll ((first, content) :: rest) =
          (entries.put first content).putAll rest :=
        rfl
      have hreverse : get? (rest.reverse ++ [(first, content)]) key =
          (get? rest.reverse key).or (get? [(first, content)] key) := List.lookup_append
      rw [hput, ih, List.reverse_cons, hreverse, Option.or_assoc]
      congr 1
      by_cases h : key = first
      · subst h
        rw [get?_put_self]
        simp [get?]
      · have hne : (key == first) = false := by simpa using h
        rw [get?_put_of_ne entries content h]
        simp [get?, List.lookup_cons, hne]

theorem mem_of_get? {entries : Keyed α} {key : String} {value : α}
    (h : entries.get? key = some value) : (key, value) ∈ entries := by
  obtain ⟨front, back, rfl, -⟩ := List.lookup_eq_some_iff.1 h
  simp

theorem get?_eq_none {entries : Keyed α} {key : String} (h : entries.get? key = none) :
    key ∉ entries.keys := by
  intro hmem
  obtain ⟨entry, hentry, rfl⟩ := List.mem_map.1 hmem
  have hne := List.lookup_eq_none_iff.1 h entry hentry
  simp at hne

/-- A key is there just if it has a value. -/
theorem mem_keys_iff {entries : Keyed α} {key : String} :
    key ∈ entries.keys ↔ ∃ value, entries.get? key = some value := by
  constructor
  · intro hmem
    cases hget : entries.get? key with
    | none => exact absurd hmem (get?_eq_none hget)
    | some value => exact ⟨value, rfl⟩
  · rintro ⟨value, hvalue⟩
    exact List.mem_map_of_mem (mem_of_get? hvalue)

theorem get?_reverse_of_not_mem {entries : Keyed α} {key : String} (h : key ∉ entries.keys) :
    get? entries.reverse key = none := by
  by_contra hsome
  obtain ⟨value, hvalue⟩ := Option.ne_none_iff_exists'.1 hsome
  exact h (List.mem_map_of_mem (List.mem_reverse.1 (mem_of_get? hvalue)))

theorem get?_eq_find? (entries : Keyed α) (key : String) :
    entries.get? key = (entries.find? fun entry => entry.1 == key).map Prod.snd := by
  induction entries with
  | nil => rfl
  | cons entry rest ih =>
      rw [get?, List.lookup_cons, List.find?_cons, BEq.comm]
      cases entry.1 == key with
      | true => rfl
      | false => exact ih

theorem get?_of_nodup {entries : Keyed α} (hnodup : entries.keys.Nodup) {entry : String × α}
    (h : entry ∈ entries) : entries.get? entry.1 = some entry.2 := by
  cases hget : entries.get? entry.1 with
  | none => exact absurd (List.mem_map_of_mem h) (get?_eq_none hget)
  | some value =>
      have hsame := List.inj_on_of_nodup_map hnodup (mem_of_get? hget) h rfl
      rw [← hsame]

theorem get?_remove_self (entries : Keyed α) (key : String) :
    (entries.remove key).get? key = none := by
  induction entries with
  | nil => rfl
  | cons entry rest ih =>
      obtain ⟨first, content⟩ := entry
      simp only [get?, remove] at ih
      by_cases h : first = key
      · simp [get?, remove, h, ih]
      · have hne : (key == first) = false := by simpa using Ne.symm h
        simp [get?, remove, h, List.lookup_cons, hne, ih]

theorem get?_remove_of_ne (entries : Keyed α) {key other : String} (h : other ≠ key) :
    (entries.remove key).get? other = entries.get? other := by
  induction entries with
  | nil => rfl
  | cons entry rest ih =>
      obtain ⟨first, content⟩ := entry
      simp only [get?, remove] at ih
      by_cases hfirst : first = key
      · have hother : (other == key) = false := by simpa using h
        simp [get?, remove, hfirst, List.lookup_cons, hother, ih]
      · simp [get?, remove, hfirst, List.lookup_cons, ih]

theorem keys_remove (entries : Keyed α) (key : String) :
    (entries.remove key).keys = entries.keys.filter (· != key) := by
  rw [keys, remove, keys, List.filter_map]
  rfl

end StarCube.Keyed
