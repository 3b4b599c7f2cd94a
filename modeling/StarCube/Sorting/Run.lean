import StarCube.Sorting.Search

/-!
Runs: the rising or strictly falling stretch at the front of a list, brought to a least length by
inserting the items that follow it.
-/

namespace StarCube.Sorting

variable {α ε : Type}

/-- How many items at the front continue a run whose last item is given: each comes before the one
in front of it, or none does. -/
def continuing (before : α → α → Except ε Bool) (falling : Bool) (last : α) :
    List α → Except ε Nat
  | [] => .ok 0
  | item :: rest => do
      if (← before item last) = falling then
        return (← continuing before falling item rest) + 1
      else return 0

/-- Puts an item at its place in a sorted list, after all items that it does not come before. -/
def insert (before : α → α → Except ε Bool) (sorted : List α) (item : α) :
    Except ε (List α) := do
  let place ← search false (fun other => negated (before item other)) sorted 0 sorted.length
  return sorted.take place ++ item :: sorted.drop place

/-- The sorted run at the front of a list of a first item and others, and how many of the others are
in it: at least `least` items in all, if there are so many. -/
def firstRun (before : α → α → Except ε Bool) (least : Nat) (first : α) :
    List α → Except ε (List α × Nat)
  | [] => .ok ([first], 0)
  | second :: rest => do
      let falling ← before second first
      let count := (← continuing before falling second rest) + 1
      let natural := first :: (second :: rest).take count
      let more := ((second :: rest).drop count).take (least - natural.length)
      let run ← more.foldlM (insert before) (if falling then natural.reverse else natural)
      return (run, count + more.length)

/-- The lists that are sorted by insertion alone are shorter. -/
def runLimit : Nat := 64

/-- The least length of runs in a list of `length` items: the six highest bits of the length,
rounded up. -/
def leastRun (length : Nat) : Nat :=
  if length < runLimit then length
  else
    let shift := length.log2 + 1 - 6
    let high := length >>> shift
    if high <<< shift = length then high else high + 1

end StarCube.Sorting
