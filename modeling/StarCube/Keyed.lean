/-!
Lists of values by key. A key that is new goes last and a key that is there keeps its place, so the
order is that of first entry.
-/

namespace StarCube

/-- Values by key, in the order in which the keys came. -/
abbrev Keyed (α : Type) := List (String × α)

namespace Keyed

variable {α : Type}

/-- The value of a key. -/
def get? (entries : Keyed α) (key : String) : Option α :=
  List.lookup key entries

/-- Sets the value of a key. -/
def put : Keyed α → String → α → Keyed α
  | [], key, value => [(key, value)]
  | entry :: rest, key, value =>
      if entry.1 = key then (key, value) :: rest else entry :: put rest key value

/-- Sets values one after the other: of several for one key the last one stays. -/
def putAll (entries new : Keyed α) : Keyed α :=
  new.foldl (fun entries entry => entries.put entry.1 entry.2) entries

/-- Removes a key. -/
def remove (entries : Keyed α) (key : String) : Keyed α :=
  entries.filter fun entry => entry.1 != key

def keys (entries : Keyed α) : List String :=
  entries.map Prod.fst

theorem get?_put_self (entries : Keyed α) (key : String) (value : α) :
    (entries.put key value).get? key = some value := by
  induction entries with
  | nil => simp [put, get?]
  | cons entry rest ih =>
      obtain ⟨first, content⟩ := entry
      by_cases h : first = key
      · simp [put, get?, h]
      · have hne : (key == first) = false := by simpa using Ne.symm h
        simpa [put, get?, h, List.lookup_cons, hne] using ih

theorem get?_put_of_ne (entries : Keyed α) {key other : String} (value : α) (h : other ≠ key) :
    (entries.put key value).get? other = entries.get? other := by
  have hother : (other == key) = false := by simpa using h
  induction entries with
  | nil => simp [put, get?, List.lookup_cons, hother]
  | cons entry rest ih =>
      obtain ⟨first, content⟩ := entry
      by_cases heq : first = key
      · simp [put, get?, heq, List.lookup_cons, hother]
      · simp only [get?] at ih
        simp [put, get?, heq, List.lookup_cons, ih]

/-- A key that is there keeps its place, and a new one goes last. -/
theorem keys_put (entries : Keyed α) (key : String) (value : α) :
    (entries.put key value).keys =
      if key ∈ entries.keys then entries.keys else entries.keys ++ [key] := by
  induction entries with
  | nil => simp [put, keys]
  | cons entry rest ih =>
      simp only [put, keys] at *
      by_cases h : entry.1 = key
      · simp [h]
      · by_cases hrest : key ∈ rest.map Prod.fst
        · simp [h, ih, hrest]
        · simp [h, ih, hrest, Ne.symm h]

end Keyed

end StarCube
