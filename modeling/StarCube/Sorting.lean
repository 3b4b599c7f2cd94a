import StarCube.Sorting.Merge
import StarCube.Sorting.Run

/-!
Sorting by merging runs. The runs of the list are pushed on a stack and merged as soon as their
place in the list allows a balanced merge. The result is the stable rising order where there is one.
Comparisons may fail, and they may contradict each other; then the result depends on which of them
are made, and these are fixed here.
-/

namespace StarCube.Sorting

variable {α ε : Type}

/-- A sorted run and the place in the list at which it starts. -/
structure Run (α : Type) where
  start : Nat
  items : List α

/-- The depth, in the tree that halves a list of `total` items, at which the middle of a run and the
middle of the next run part. -/
def power (total start length next : Nat) : Nat :=
  let left := 2 * start + length
  let right := left + length + next
  let parts (depth : Nat) : Bool := (left <<< depth) / total != (right <<< depth) / total
  ((List.range (total.log2 + 2)).find? parts).getD 0 + 1

/-- The run of two neighbouring runs. -/
def join (before : α → α → Except ε Bool) (threshold : Nat) (left right : Run α) :
    Except ε (Run α × Nat) := do
  let (items, threshold) ← merge before threshold left.items right.items
  return (⟨left.start, items⟩, threshold)

/-- Merges the topmost run with the runs below it that part at a greater depth. -/
def settle (before : α → α → Except ε Bool) (depth : Nat) :
    List (Run α × Nat) → Run α → Nat → Except ε (List (Run α × Nat) × Run α × Nat)
  | (run, bound) :: below, top, threshold => do
      if depth < bound then
        let (joined, threshold) ← join before threshold run top
        settle before depth below joined threshold
      else return ((run, bound) :: below, top, threshold)
  | [], top, threshold => .ok ([], top, threshold)

/-- Merges all runs of a stack, the topmost first; a run below two others is merged first if it is
shorter than the topmost one. -/
def collapse (before : α → α → Except ε Bool) (threshold : Nat) :
    List (Run α) → Except ε (List α)
  | [] => .ok []
  | [run] => .ok run.items
  | [top, second] => do
      let (joined, _) ← join before threshold second top
      return joined.items
  | top :: second :: third :: below => do
      if third.items.length < top.items.length then
        let (joined, threshold) ← join before threshold third second
        collapse before threshold (top :: joined :: below)
      else
        let (joined, threshold) ← join before threshold second top
        collapse before threshold (joined :: third :: below)
termination_by runs => runs.length

/-- Cuts the rest of the list into runs and merges them with the topmost run and those below it. -/
def gather (before : α → α → Except ε Bool) (total : Nat) (below : List (Run α × Nat))
    (top : Run α) (threshold : Nat) (rest : List α) : Except ε (List α) :=
  match rest with
  | [] => collapse before threshold (top :: below.map (·.1))
  | first :: others => do
      let (items, more) ← firstRun before (leastRun total) first others
      let depth := power total top.start top.items.length items.length
      let next : Run α := ⟨top.start + top.items.length, items⟩
      let (below, top, threshold) ← settle before depth below top threshold
      gather before total ((top, depth) :: below) next threshold (others.drop more)
termination_by rest.length
decreasing_by
  simp only [List.length_cons, List.length_drop]
  omega

/-- Sorts a list in rising order; items of which none comes before the other keep their order. -/
def sort (before : α → α → Except ε Bool) (items : List α) : Except ε (List α) :=
  match items with
  | [] => .ok []
  | first :: others => do
      let (run, more) ← firstRun before (leastRun items.length) first others
      gather before items.length [] ⟨0, run⟩ gallopGain (others.drop more)

end StarCube.Sorting
