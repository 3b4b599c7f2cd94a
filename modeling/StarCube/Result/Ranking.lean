import StarCube.Result.Table
import StarCube.Sorting

/-!
Rankings: the rows of a result in falling order of a measure, absent values last. Rows of equal
values keep the order in which the store returned them. Values that have no order fail as soon as
two of them are compared.
-/

namespace StarCube

namespace ResultTable

/-- The rows of a table of one level and one measure. -/
def series (table : ResultTable) : List (Value × Value) :=
  table.data.map fun row => (row.headD .null, row.tail.headD .null)

end ResultTable

namespace Ranking

/-- Whether one value ranks below another: an absent value ranks below all others. -/
def below (left right : Value) : Except Value.OrderFault Bool :=
  if left.isNull then .ok !right.isNull
  else if right.isNull then .ok false
  else if left.same right then .ok false
  else left.before right

/-- Whether one value is known to rank below another. -/
def isBelow (left right : Value) : Bool :=
  match below left right with
  | .ok answer => answer
  | .error _ => false

/-- Two values have an order if they are the same or one ranks below the other. No number has no
order, not even with itself. -/
def ordered (left right : Value) : Bool :=
  left.same right || isBelow left right || isBelow right left

/-- All values have an order among each other. Values other than lists have one if each has one with
the first of them. -/
def mutuallyOrdered : List Value → Bool
  | [] => true
  | first :: rest =>
      if (first :: rest).any Value.isList then
        (first :: rest).all fun left => (first :: rest).all (ordered left)
      else (first :: rest).all (ordered first)

/-- The rows in falling order of their values. Where the values have an order, every stable sort
gives these rows; elsewhere the reversed rows are sorted in rising order by merging their runs, as
far as the comparisons that this takes do not fail. -/
def falling (rows : List (Value × Value)) : Except Value.OrderFault (List (Value × Value)) :=
  if mutuallyOrdered ((rows.map (·.2)).filter (!·.isNull)) then
    .ok (rows.mergeSort fun left right => !isBelow left.2 right.2)
  else (Sorting.sort (fun left right => below left.2 right.2) rows.reverse).map List.reverse

end Ranking

/-- A row of a ranking. -/
structure Ranked where
  rank : Nat
  dimension : Value
  value : Value
deriving Repr

namespace Ranked

/-- Numbers the first rows from one on. -/
def numbered (count : Nat) (rows : List (Value × Value)) : List Ranked :=
  (rows.take count).zipIdx.map fun entry => ⟨entry.2 + 1, entry.1.1, entry.1.2⟩

end Ranked

namespace Failure

/-- The failure that an order fault is. -/
def ofOrder : Value.OrderFault → Failure
  | .kinds => .kinds
  | .undefined => .undefinedOrder

end Failure

namespace ResultTable

/-- The first rows of a table of one level and one measure, ranked by the measure. -/
def ranking (table : ResultTable) (count : Nat) : Except Failure (List Ranked) :=
  ((Ranking.falling table.series).mapError Failure.ofOrder).map (Ranked.numbered count)

end ResultTable

end StarCube
