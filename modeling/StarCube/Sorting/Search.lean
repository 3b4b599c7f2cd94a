/-!
The number of items at the front of a list that pass a test which holds up to some place and not
beyond. It is found by halving an interval, or by galloping: in steps that double until the test
fails, and then by halving. A test may fail, and where it does not stop for good the answer depends
on the places that are tried, so these are part of the definitions.
-/

namespace StarCube.Sorting

variable {α ε : Type}

/-- The opposite of the answer of a test. -/
def negated (answer : Except ε Bool) : Except ε Bool :=
  answer.map not

/-- The place in the middle of an interval. Of two such places it is the upper one, or the lower one
if the list is `mirrored`, that is, searched from its end. -/
def middle (mirrored : Bool) (low high : Nat) : Nat :=
  low + (high - low - (if mirrored then 1 else 0)) / 2

theorem middle_lt (mirrored : Bool) {low high : Nat} (h : low < high) :
    middle mirrored low high < high := by
  unfold middle
  split <;> omega

theorem le_middle (mirrored : Bool) (low high : Nat) : low ≤ middle mirrored low high :=
  Nat.le_add_right low _

/-- The first place from `low` on and up to `high` at which the test fails, by halving. -/
def search (mirrored : Bool) (passes : α → Except ε Bool) (items : List α) (low high : Nat) :
    Except ε Nat :=
  if _ : low < high then
    match items[middle mirrored low high]? with
    | none => .ok low
    | some item =>
        match passes item with
        | .error fault => .error fault
        | .ok true => search mirrored passes items (middle mirrored low high + 1) high
        | .ok false => search mirrored passes items low (middle mirrored low high)
  else .ok low
termination_by high - low
decreasing_by
  · have := le_middle mirrored low high
    omega
  · have := middle_lt mirrored ‹low < high›
    omega

/-- The interval in which the test stops to hold, if it holds at `last`: each step goes one further
than twice as far. -/
def bracket (passes : α → Except ε Bool) (items : List α) (last next : Nat) :
    Except ε (Nat × Nat) :=
  if _ : next < items.length then
    match passes items[next] with
    | .error fault => .error fault
    | .ok true => bracket passes items next (2 * next + 1)
    | .ok false => .ok (last + 1, next)
  else .ok (last + 1, items.length)
termination_by items.length - next
decreasing_by
  omega

/-- The number of items at the front that pass the test, by galloping. -/
def gallop (mirrored : Bool) (passes : α → Except ε Bool) (items : List α) : Except ε Nat :=
  match items with
  | [] => .ok 0
  | first :: _ => do
      if ← passes first then
        let (low, high) ← bracket passes items 0 1
        search mirrored passes items low high
      else return 0

end StarCube.Sorting
