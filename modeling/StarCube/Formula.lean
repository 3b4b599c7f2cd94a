import StarCube.Number.Binary64

/-!
Arithmetic over measures: the formulas of calculated members. A formula is kept as it is written,
grouped by precedence and from the left; it is checked and shown, and never evaluated.
-/

namespace StarCube

/-- A sign before an operand. -/
inductive Sign where
  | plus
  | minus
deriving DecidableEq, Repr

/-- An operation between two operands. -/
inductive Operation where
  | add
  | subtract
  | multiply
  | divide
deriving DecidableEq, Repr

/-- An arithmetic expression over measures. -/
inductive Formula where
  | measure (name : String)
  | number (value : Binary64)
  | signed (sign : Sign) (operand : Formula)
  | binary (operation : Operation) (left right : Formula)
deriving DecidableEq, Repr

namespace Sign

def symbol : Sign → Char
  | .plus => '+'
  | .minus => '-'

end Sign

namespace Operation

def symbol : Operation → Char
  | .add => '+'
  | .subtract => '-'
  | .multiply => '*'
  | .divide => '/'

end Operation

namespace Formula

/-- The measures at the leaves of a formula, from left to right. -/
def leaves : Formula → List String
  | .measure name => [name]
  | .number _ => []
  | .signed _ operand => operand.leaves
  | .binary _ left right => left.leaves ++ right.leaves

/-- The measures that a formula refers to, each once, in the order of first mention. -/
def measures (formula : Formula) : List String :=
  formula.leaves.eraseDups

end Formula

end StarCube
