/-!
Decimal numbers that keep their trailing zeros, with their text.
-/

namespace StarCube

/-- A decimal number. A finite one is `coefficient * 10 ^ exponent` with its sign, and the pair is
part of it: `1.5` and `1.50` have one value and are two decimals. -/
inductive Decimal where
  | finite (negative : Bool) (coefficient : Nat) (exponent : Int)
  | infinite (negative : Bool)
  | nan (negative signaling : Bool) (payload : Nat)
deriving DecidableEq, Repr

namespace Decimal

/-- A magnitude with its sign. -/
def signed (negative : Bool) (magnitude : Nat) : Int :=
  if negative then -(magnitude : Int) else magnitude

/-- Whole numbers with more zeros at the end are not written out. -/
def placesLimit : Int := 100000000

/-- The value is below one, as seen from the sizes: the coefficient is less than two to the power of
the places behind the point, so it is less than ten to that power. -/
def isSmall (coefficient : Nat) (exponent : Int) : Bool :=
  (coefficient.log2 : Int) < -exponent

/-- The whole part of `coefficient * 10 ^ exponent`; none if it is too long to be written out. -/
def wholePart? (coefficient : Nat) (exponent : Int) : Option Nat :=
  if coefficient = 0 || isSmall coefficient exponent then some 0
  else if placesLimit < exponent then none
  else some (coefficient * Nat.pow 10 exponent.toNat / Nat.pow 10 (-exponent).toNat)

/-- Whether `coefficient * 10 ^ exponent` is no whole number. -/
def hasFraction (coefficient : Nat) (exponent : Int) : Bool :=
  if isSmall coefficient exponent then coefficient ≠ 0
  else coefficient % Nat.pow 10 (-exponent).toNat ≠ 0

/-- The text of a finite decimal without its sign: positional while the exponent is not positive and
at most six zeros follow the point, otherwise with one digit before the point and an exponent. -/
def magnitudeText (coefficient : Nat) (exponent : Int) : String :=
  let digits := Nat.toDigits 10 coefficient
  let count : Int := digits.length
  let left := exponent + count
  let positional := exponent ≤ 0 ∧ -6 < left
  let point : Int := if positional then left else 1
  let body :=
    if point ≤ 0 then "0." ++ String.ofList (List.replicate (-point).toNat '0' ++ digits)
    else if count ≤ point then
      String.ofList (digits ++ List.replicate (point - count).toNat '0')
    else
      String.ofList (digits.take point.toNat) ++ "." ++ String.ofList (digits.drop point.toNat)
  if left = point then body
  else body ++ (if point < left then "E+" else "E-") ++ toString (left - point).natAbs

/-- The text of a decimal. -/
def toText : Decimal → String
  | .finite negative coefficient exponent =>
      (if negative then "-" else "") ++ magnitudeText coefficient exponent
  | .infinite negative => if negative then "-Infinity" else "Infinity"
  | .nan negative signaling payload =>
      (if negative then "-" else "") ++ (if signaling then "sNaN" else "NaN") ++
        (if payload = 0 then "" else toString payload)

/-- The value of a run of ASCII digits; none if another character occurs or there is none. -/
def digitsValue? (text : List Char) : Option Nat :=
  if text.isEmpty || !text.all Char.isDigit then none
  else some (text.foldl (fun total c => 10 * total + (c.toNat - '0'.toNat)) 0)

/-- Reads the exponent that follows the mark. -/
def exponent? (text : List Char) : Option Int :=
  match text with
  | '-' :: digits => (digitsValue? digits).map fun n => -(n : Int)
  | '+' :: digits => (digitsValue? digits).map fun n => (n : Int)
  | digits => (digitsValue? digits).map fun n => (n : Int)

/-- Reads a finite magnitude. -/
def finite? (negative : Bool) (text : List Char) : Option Decimal := do
  let mantissa := text.takeWhile (· != 'E')
  let marked := text.dropWhile (· != 'E')
  let exponent ← if marked.isEmpty then some 0 else exponent? marked.tail
  let whole := mantissa.takeWhile (· != '.')
  let fraction := (mantissa.dropWhile (· != '.')).drop 1
  let coefficient ← digitsValue? (whole ++ fraction)
  return .finite negative coefficient (exponent - fraction.length)

/-- Reads the text of a decimal. -/
def ofText? (text : String) : Option Decimal :=
  let (negative, body) := match text.toList with
    | '-' :: rest => (true, rest)
    | rest => (false, rest)
  let payload (rest : List Char) : Option Nat := if rest.isEmpty then some 0 else digitsValue? rest
  match body with
  | 's' :: 'N' :: 'a' :: 'N' :: rest => (payload rest).map (.nan negative true ·)
  | 'N' :: 'a' :: 'N' :: rest => (payload rest).map (.nan negative false ·)
  | 'I' :: _ => some (.infinite negative)
  | rest => finite? negative rest

end Decimal

end StarCube
