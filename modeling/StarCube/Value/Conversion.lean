import StarCube.Number.Numeral
import StarCube.Text.Display
import StarCube.Value

/-!
Cells read as numbers: as doubles, where what is no number counts as zero, and as whole numbers,
where it is refused.
-/

namespace StarCube

/-- Why a value cannot be converted to a number. -/
inductive ConversionFault where
  /-- A whole number that is beyond the range of doubles. -/
  | tooLarge
  /-- A text or byte string that writes no whole number; `shown` is how it is displayed. -/
  | noInteger (shown : String)
  /-- A whole number written with more digits than are read. -/
  | tooManyDigits (count : Nat)
  /-- A decimal whose whole part has more places than are written out. -/
  | tooManyPlaces
  | infiniteFloat
  | infiniteDecimal
  | nanFloat
  | nanDecimal
  /-- A list or a date. -/
  | kind
deriving DecidableEq, Repr

namespace ConversionFault

/-- The most digits that a whole number may be written with. -/
def digitLimit : Nat := 4300

/-- The characters of a displayed text that a message repeats. -/
def shownLimit : Nat := 200

def message : ConversionFault → String
  | .tooLarge => "int too large to convert to float"
  | .noInteger shown =>
      "invalid literal for int() with base 10: " ++
        String.ofList (shown.toList.take shownLimit)
  | .tooManyDigits count =>
      "Exceeds the limit (" ++ toString digitLimit ++
        " digits) for integer string conversion: value has " ++ toString count ++
        " digits; use sys.set_int_max_str_digits() to increase the limit"
  | .tooManyPlaces => ""
  | .infiniteFloat => "cannot convert float infinity to integer"
  | .infiniteDecimal => "cannot convert Infinity to integer"
  | .nanFloat => "cannot convert float NaN to integer"
  | .nanDecimal => "cannot convert NaN to integer"
  | .kind => ""

end ConversionFault

namespace Value

/-- The characters of a byte string, one for each byte. -/
def byteCharacters (content : List UInt8) : List Char :=
  content.map fun byte => Char.ofNat byte.toNat

/-- The double that a decimal is nearest to. -/
def decimalToBinary64 : Decimal → Binary64
  | .finite negative coefficient exponent => Binary64.ofScientific negative coefficient exponent
  | .infinite negative => Binary64.infinity negative
  | .nan _ signaling _ => if signaling then Binary64.zero else Binary64.nan

/-- The double that a cell counts as. What writes no number counts as zero; a whole number beyond
the range of doubles is refused. -/
def toBinary64 : Value → Except ConversionFault Binary64
  | .null => .ok Binary64.zero
  | .bool b => .ok (Binary64.ofInt (if b then 1 else 0))
  | .int n =>
      let x := Binary64.ofInt n
      if x.isInfinite then .error .tooLarge else .ok x
  | .float x => .ok x
  | .decimal d => .ok (decimalToBinary64 d)
  | .bytes content => .ok (ofNumeral (Numeral.ofText? .bytewise (byteCharacters content)))
  | .text content => .ok (ofNumeral (Numeral.ofText? .textual content.toList))
  | .date _ => .ok Binary64.zero
  | .list _ => .ok Binary64.zero
where
  ofNumeral (numeral : Option Numeral) : Binary64 :=
    (numeral.map Numeral.toBinary64).getD Binary64.zero

/-- Reads a whole number within the limit on digits. The limit is checked before it is seen that
something follows the digits, but not if that is a low line. -/
def wholeOf (style : NumeralStyle) (text : List Char) (shown : String) :
    Except ConversionFault Int :=
  let (negative, digits, rest) := Numeral.whole style text
  if digits.isEmpty || rest.head? = some '_' then .error (.noInteger shown)
  else if ConversionFault.digitLimit < digits.length then .error (.tooManyDigits digits.length)
  else if !rest.isEmpty then .error (.noInteger shown)
  else
    let n := Numeral.valueOf digits
    .ok (if negative then -(n : Int) else n)

/-- The whole number that a cell counts as, fractions dropped. -/
def toInt : Value → Except ConversionFault Int
  | .bool b => .ok (if b then 1 else 0)
  | .int n => .ok n
  | .float x =>
      match x.ratio? with
      | some ratio => .ok ratio.truncate
      | none => .error (if x.isNaN then .nanFloat else .infiniteFloat)
  | .decimal (.finite negative coefficient exponent) =>
      match Decimal.wholePart? coefficient exponent with
      | some whole => .ok (Decimal.signed negative whole)
      | none => .error .tooManyPlaces
  | .decimal (.infinite _) => .error .infiniteDecimal
  | .decimal (.nan _ _ _) => .error .nanDecimal
  | .bytes content =>
      wholeOf .bytewise (byteCharacters content)
        (Text.displayBytes (content.take ConversionFault.shownLimit))
  | .text content => wholeOf .textual content.toList (Text.display content)
  | .null => .error .kind
  | .date _ => .error .kind
  | .list _ => .error .kind

/-- The count that a cell stands for: an absent one is zero. -/
def toCount (value : Value) : Except ConversionFault Int :=
  if value.isEmpty then .ok 0 else value.toInt

end Value

end StarCube
