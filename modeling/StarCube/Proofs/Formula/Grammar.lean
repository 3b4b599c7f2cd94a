import StarCube.Formula
import StarCube.Formula.Symbol

/-!
The grammar of formulas as trees. A sum is a product, and then any number of signs `+` and `-` each
with a further product; a product is made of factors in the same way; a factor is a signed factor, a
measure, a number or a sum in parentheses. A tree keeps every symbol of its text, and its formula
groups each chain from the left.
-/

namespace StarCube

/-- The phrases of the grammar. Each holds together more tightly than the one before it. -/
inductive Phrase where
  | sum
  | product
  | factor
deriving DecidableEq, Repr

/-- The phrase that an operation chains. -/
def Operation.phrase : Operation → Phrase
  | .add => .sum
  | .subtract => .sum
  | .multiply => .product
  | .divide => .product

/-- A derivation. A chain is kept as its front and its last operand. -/
inductive FormulaTree : Phrase → Type where
  | measure (name : String) : FormulaTree .factor
  | number (written : String) (value : Binary64) : FormulaTree .factor
  | signed (sign : Sign) (operand : FormulaTree .factor) : FormulaTree .factor
  | parenthesised (inner : FormulaTree .sum) : FormulaTree .factor
  | factor (only : FormulaTree .factor) : FormulaTree .product
  | product (front : FormulaTree .product) (operation : Operation)
      (chains : operation.phrase = .product) (last : FormulaTree .factor) : FormulaTree .product
  | term (only : FormulaTree .product) : FormulaTree .sum
  | sum (front : FormulaTree .sum) (operation : Operation) (chains : operation.phrase = .sum)
      (last : FormulaTree .product) : FormulaTree .sum

namespace FormulaTree

/-- The symbols of a tree, from left to right. -/
def symbols : {phrase : Phrase} → FormulaTree phrase → List FormulaSymbol
  | _, .measure name => [.measure name]
  | _, .number written value => [.number written value]
  | _, .signed sign operand => .mark sign.symbol :: operand.symbols
  | _, .parenthesised inner => .mark '(' :: (inner.symbols ++ [.mark ')'])
  | _, .factor only => only.symbols
  | _, .product front operation _ last => front.symbols ++ .mark operation.symbol :: last.symbols
  | _, .term only => only.symbols
  | _, .sum front operation _ last => front.symbols ++ .mark operation.symbol :: last.symbols

/-- The formula that a tree stands for. -/
def formula : {phrase : Phrase} → FormulaTree phrase → Formula
  | _, .measure name => .measure name
  | _, .number _ value => .number value
  | _, .signed sign operand => .signed sign operand.formula
  | _, .parenthesised inner => inner.formula
  | _, .factor only => only.formula
  | _, .product front operation _ last => .binary operation front.formula last.formula
  | _, .term only => only.formula
  | _, .sum front operation _ last => .binary operation front.formula last.formula

end FormulaTree

end StarCube
