import StarCube.Result.Ranking

/-!
Growth of a measure from period to period. Each period is compared with the one just before it; the
first is compared with zero, and growth from zero counts as none.
-/

namespace StarCube

/-- A period with the value of the one before it. -/
structure GrowthPoint where
  period : Value
  current : Binary64
  previous : Binary64
  rate : Binary64
deriving Repr

namespace GrowthPoint

/-- Growth in percent. -/
def percentage (previous current : Binary64) : Binary64 :=
  (current - previous) / previous * Binary64.ofInt 100

/-- The decimal places to which a rate is rounded. -/
def places : Nat := 2

/-- The growth rate between two values. -/
def rateOf (previous current : Binary64) : Binary64 :=
  if previous.isZero then Binary64.zero else (percentage previous current).roundPlaces places

/-- The points of a series whose first period comes after a given value. -/
def series (previous : Binary64) :
    List (Value × Value) → Except ConversionFault (List GrowthPoint)
  | [] => .ok []
  | (period, value) :: rest => do
      let current ← value.toBinary64
      let points ← series current rest
      return ⟨period, current, previous, rateOf previous current⟩ :: points

/-- The last points of a series. -/
def latest (count : Nat) (points : List GrowthPoint) : List GrowthPoint :=
  points.drop (points.length - count)

end GrowthPoint

namespace ResultTable

/-- The growth over the last periods of a table of one level and one measure. -/
def growth (table : ResultTable) (count : Nat) : Except Failure (List GrowthPoint) :=
  ((GrowthPoint.series Binary64.zero table.series).mapError Failure.conversion).map
    (GrowthPoint.latest count)

end ResultTable

end StarCube
