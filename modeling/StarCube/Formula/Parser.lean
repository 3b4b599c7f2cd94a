import StarCube.Formula
import StarCube.Formula.Symbol

/-!
Formulas from their symbols. The reader keeps what has been opened and not yet finished as a stack
of frames, and alternates between two phases: it waits for an operand, or it holds a value and waits
for an operator. Products bind tighter than sums, signs tighter than products, and operations of one
rank group from the left.
-/

namespace StarCube

/-- Something opened and not yet finished. -/
inductive FormulaFrame where
  | sign (mark : Sign)
  | product (left : Formula) (operation : Operation)
  | sum (left : Formula) (operation : Operation)
  | parenthesis
deriving DecidableEq, Repr

/-- What the reader waits for. -/
inductive FormulaPhase where
  | operand
  | operator (value : Formula)
deriving DecidableEq, Repr

namespace FormulaFrame

/-- Completes a factor: the signs in front of it, then a product that waits for it. -/
def finishFactor (value : Formula) : List FormulaFrame → Formula × List FormulaFrame
  | .sign mark :: frames => finishFactor (.signed mark value) frames
  | .product left operation :: frames => (.binary operation left value, frames)
  | frames => (value, frames)

/-- Completes a sum that waits for a term. -/
def finishTerm (value : Formula) : List FormulaFrame → Formula × List FormulaFrame
  | .sum left operation :: frames => (.binary operation left value, frames)
  | frames => (value, frames)

end FormulaFrame

open FormulaFrame in
/-- Reads the tokens that are left. `finish` is the position of the end. -/
def readFormula (finish : Nat) :
    FormulaPhase → List FormulaFrame → List FormulaToken →
      Except (Nat × FormulaReason) Formula
  | .operand, _, [] => .error (finish, .unexpectedToken "end of expression")
  | .operand, frames, token :: rest =>
      match token.symbol with
      | .measure name =>
          let (value, frames) := finishFactor (.measure name) frames
          readFormula finish (.operator value) frames rest
      | .number _ x =>
          let (value, frames) := finishFactor (.number x) frames
          readFormula finish (.operator value) frames rest
      | .mark '+' => readFormula finish .operand (.sign .plus :: frames) rest
      | .mark '-' => readFormula finish .operand (.sign .minus :: frames) rest
      | .mark '(' => readFormula finish .operand (.parenthesis :: frames) rest
      | .mark c => .error (token.position, .unexpectedToken (String.singleton c))
  | .operator value, frames, [] =>
      match finishTerm value frames with
      | (value, []) => .ok value
      | _ => .error (finish, .expectedParenthesis)
  | .operator value, frames, token :: rest =>
      match token.symbol with
      | .mark '*' => readFormula finish .operand (.product value .multiply :: frames) rest
      | .mark '/' => readFormula finish .operand (.product value .divide :: frames) rest
      | .mark '+' =>
          let (value, frames) := finishTerm value frames
          readFormula finish .operand (.sum value .add :: frames) rest
      | .mark '-' =>
          let (value, frames) := finishTerm value frames
          readFormula finish .operand (.sum value .subtract :: frames) rest
      | symbol =>
          match finishTerm value frames, symbol with
          | (value, .parenthesis :: frames), .mark ')' =>
              let (value, frames) := finishFactor value frames
              readFormula finish (.operator value) frames rest
          | (_, []), symbol => .error (token.position, .unexpectedToken symbol.shown)
          | _, _ => .error (token.position, .expectedParenthesis)

namespace Formula

/-- Reads a formula. -/
def parse (text : String) : Except FormulaFault Formula :=
  let total := text.length
  match (formulaTokens total text.toList).bind (readFormula total .operand []) with
  | .ok formula => .ok formula
  | .error (position, reason) => .error ⟨text, position, reason⟩

end Formula

end StarCube
