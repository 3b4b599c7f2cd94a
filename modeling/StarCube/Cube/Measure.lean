import StarCube.Formula.Parser

/-!
Measures, the columns of facts that a cube aggregates, and calculated members, the formulas over
measures that it declares.
-/

namespace StarCube

/-- How the facts of a group become one value. -/
inductive Aggregation where
  | sum
  | avg
  | count
  | min
  | max
  | countDistinct
deriving DecidableEq, Repr

namespace Aggregation

def all : List Aggregation :=
  [.sum, .avg, .count, .min, .max, .countDistinct]

def name : Aggregation → String
  | .sum => "sum"
  | .avg => "avg"
  | .count => "count"
  | .min => "min"
  | .max => "max"
  | .countDistinct => "count_distinct"

/-- The aggregate of a column in a statement. -/
def applied (aggregation : Aggregation) (column : String) : String :=
  match aggregation with
  | .sum => "SUM(" ++ column ++ ")"
  | .avg => "AVG(" ++ column ++ ")"
  | .count => "COUNT(" ++ column ++ ")"
  | .min => "MIN(" ++ column ++ ")"
  | .max => "MAX(" ++ column ++ ")"
  | .countDistinct => "COUNT(DISTINCT " ++ column ++ ")"

end Aggregation

/-- How the values of a measure are displayed. -/
inductive MeasureType where
  | number
  | currency
  | percentage
deriving DecidableEq, Repr

namespace MeasureType

def all : List MeasureType :=
  [.number, .currency, .percentage]

def name : MeasureType → String
  | .number => "number"
  | .currency => "currency"
  | .percentage => "percentage"

end MeasureType

/-- A column of the fact table with its aggregation. -/
structure Measure where
  name : String
  column : String
  aggregation : Aggregation
  dataType : MeasureType
  formatString : Option String
deriving DecidableEq, Repr

namespace Measure

/-- The aggregate of this measure over a table alias. -/
def expression (measure : Measure) (tableAlias : String) : String :=
  measure.aggregation.applied (tableAlias ++ "." ++ measure.column)

end Measure

/-- A named formula over measures. -/
structure CalculatedMember where
  name : String
  expression : String
  dataType : MeasureType
  formatString : Option String
deriving DecidableEq, Repr

namespace CalculatedMember

/-- The measures that the formula refers to. -/
def measures (member : CalculatedMember) : Except FormulaFault (List String) :=
  (Formula.parse member.expression).map Formula.measures

end CalculatedMember

end StarCube
