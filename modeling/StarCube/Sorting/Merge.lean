import StarCube.Sorting.Search

/-!
Merging of two sorted lists. Items are taken one by one until one list wins many times in a row;
from then on the merge gallops, taking as many items as come before the head of the other list,
for as long as that pays. How many wins in a row make it gallop is the `threshold`, which adapts
and is handed on to the next merge.
-/

namespace StarCube.Sorting

variable {α ε : Type}

/-- How many items galloping has to take at once to go on. -/
def gallopGain : Nat := 7

/-- How a merge takes its items. Of the two lists one is `kept`: its last item is known to come
after all items of the other list. -/
inductive Pace where
  /-- One by one; how often each list has won in a row. -/
  | stepping (keptWins otherWins : Nat)
  /-- Many at once, from the kept list or from the other one; `earlier` is what the first half of
  a round has taken, if this is the second half. -/
  | galloping (fromKept : Bool) (earlier : Option Nat)

/-- The lists are merged as soon as one of them is empty or only the last kept item is left. -/
def settled? : List α → List α → Option (List α)
  | [], other => some other
  | [last], other => some (other ++ [last])
  | kept, [] => some kept
  | _, _ => none

/-- The pace after a half of a galloping round that took `count` items, with the threshold. -/
def paceAfter (mirrored fromKept : Bool) (earlier : Option Nat) (count threshold : Nat) :
    Pace × Nat :=
  match earlier with
  | none => (.galloping (!fromKept) (some count), threshold)
  | some before =>
      if gallopGain ≤ before || gallopGain ≤ count then
        (.galloping (!mirrored) none, max 1 (threshold - 1))
      else (.stepping 0 0, threshold + 1)

/-- The pace after a step after which one list has won `wins` times in a row. -/
def paceAfterStep (mirrored : Bool) (threshold wins : Nat) (stepping : Pace) : Pace :=
  if threshold ≤ wins then .galloping (!mirrored) none else stepping

/-- Merges two lists, of which `mirrored` ones are in falling order. `wins` says whether the head of
the other list goes before the head of the kept one. The answer comes with the new threshold. -/
def mergeAt (mirrored : Bool) (wins : α → α → Except ε Bool) (pace : Pace) (threshold : Nat)
    (kept other : List α) : Except ε (List α × Nat) :=
  match settled? kept other with
  | some rest => .ok (rest, threshold)
  | none =>
      match kept, other with
      | own :: owns, foreign :: foreigns =>
          match pace with
          | .stepping keptWins otherWins => do
              if ← wins foreign own then
                let pace := paceAfterStep mirrored threshold (otherWins + 1)
                  (.stepping 0 (otherWins + 1))
                let (merged, after) ← mergeAt mirrored wins pace threshold (own :: owns) foreigns
                return (foreign :: merged, after)
              else
                let pace := paceAfterStep mirrored threshold (keptWins + 1)
                  (.stepping (keptWins + 1) 0)
                let (merged, after) ←
                  mergeAt mirrored wins pace threshold owns (foreign :: foreigns)
                return (own :: merged, after)
          | .galloping true earlier => do
              let count ← gallop mirrored (fun item => negated (wins foreign item)) (own :: owns)
              let taken := (own :: owns).take count
              let left := (own :: owns).drop count
              match settled? left (foreign :: foreigns) with
              | some rest => return (taken ++ rest, threshold)
              | none =>
                  let (pace, next) := if (settled? left foreigns).isSome then (pace, threshold)
                    else paceAfter mirrored true earlier count threshold
                  let (merged, after) ← mergeAt mirrored wins pace next left foreigns
                  return (taken ++ foreign :: merged, after)
          | .galloping false earlier => do
              let count ← gallop mirrored (fun item => wins item own) (foreign :: foreigns)
              let taken := (foreign :: foreigns).take count
              let left := (foreign :: foreigns).drop count
              match settled? (own :: owns) left with
              | some rest => return (taken ++ rest, threshold)
              | none =>
                  let (pace, next) := if (settled? owns left).isSome then (pace, threshold)
                    else paceAfter mirrored false earlier count threshold
                  let (merged, after) ← mergeAt mirrored wins pace next owns left
                  return (taken ++ own :: merged, after)
      | kept, other => .ok (kept ++ other, threshold)
termination_by kept.length + other.length
decreasing_by
  all_goals simp only [List.length_cons, List.length_drop]
  all_goals omega

/-- Merges two lists in rising order; of items of which none comes before the other, those of the
left list go first. What is in place already is left where it is, and the shorter list of the rest
is the one that is kept. -/
def merge (before : α → α → Except ε Bool) (threshold : Nat) (left right : List α) :
    Except ε (List α × Nat) :=
  match right, left.getLast? with
  | first :: _, some last => do
      let start ← gallop false (fun item => negated (before first item)) left
      let lead := left.take start
      let lefts := left.drop start
      if lefts.isEmpty then return (left ++ right, threshold)
      else
        let finish ← gallop true (fun item => negated (before item last)) right.reverse
        let rights := right.take (right.length - finish)
        let tail := right.drop (right.length - finish)
        if lefts.length ≤ rights.length then
          let (merged, after) ← mergeUp before threshold lefts rights
          return (lead ++ merged ++ tail, after)
        else
          let (merged, after) ← mergeDown before threshold lefts.reverse rights.reverse
          return (lead ++ merged.reverse ++ tail, after)
  | _, _ => return (left ++ right, threshold)
where
  /-- Keeps the left list; the first item of the right one is known to go before it. -/
  mergeUp (before : α → α → Except ε Bool) (threshold : Nat) (lefts : List α) :
      List α → Except ε (List α × Nat)
    | [] => .ok (lefts, threshold)
    | first :: rights => do
        let (merged, after) ← mergeAt false before (.stepping 0 0) threshold lefts rights
        return (first :: merged, after)
  /-- Keeps the right list; both are in falling order, and the first item of the left one is known
  to go before it. -/
  mergeDown (before : α → α → Except ε Bool) (threshold : Nat) :
      List α → List α → Except ε (List α × Nat)
    | [], rights => .ok (rights, threshold)
    | last :: lefts, rights => do
        let wins := fun other kept => before kept other
        let (merged, after) ← mergeAt true wins (.stepping 0 0) threshold rights lefts
        return (last :: merged, after)

end StarCube.Sorting
