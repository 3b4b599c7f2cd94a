import StarCube.Document.Reader
import StarCube.Value.Conversion

/-!
Lenient reading of single settings. A setting may be given as a text or as a value of another kind
wherever the meaning is plain: a whole number as `" 5.0 "`, a flag as `"yes"`, a duration as
`"1e2"`.
-/

namespace StarCube.Lenient

/-- The text that a value writes: byte strings are read as text where they can be. -/
inductive Written where
  | text (content : String)
  /-- A byte string that is no text. -/
  | garbled
  | other

/-- What a value writes. -/
def written : Value → Written
  | .text content => .text content
  | .bytes content =>
      match String.fromUTF8? ⟨content.toArray⟩ with
      | some text => .text text
      | none => .garbled
  | _ => .other

/-- The magnitude that whole numbers of sixty-four bits stay below. -/
def wordLimit : Nat := 0x8000000000000000

/-- The text from the first digit that is no leading zero, or from a minus behind the zeros. What
starts with no digit writes no number. -/
def withoutLeadingZeros : List Char → Option (List Char)
  | [] => none
  | c :: rest =>
      if c = '0' then afterZero c rest
      else if c.isDigit then some (c :: rest)
      else none
where
  /-- The text after a zero or a low line, which is given as `last`. -/
  afterZero (last : Char) : List Char → Option (List Char)
    | [] => some [last]
    | c :: rest =>
        if c = '0' || c = '_' then afterZero c rest
        else if c.isDigit || c = '-' then some (c :: rest)
        else if c = '.' then some (last :: c :: rest)
        else none

/-- The text without a point and the zeros behind it, if there are zeros and nothing else. -/
def withoutZeroFraction (text : List Char) : List Char :=
  match text.dropWhile (· != '.') with
  | _ :: zero :: zeros =>
      if (zero :: zeros).all (· == '0') then text.takeWhile (· != '.') else text
  | _ => text

/-- The text without low lines; none if one stands at an end or beside another. -/
def ungrouped (text : List Char) : Option (List Char) :=
  if text.head? = some '_' || text.getLast? = some '_' || doubled text then none
  else some (text.filter (· != '_'))
where
  doubled : List Char → Bool
    | c :: next :: rest => (c == '_' && next == '_') || doubled (next :: rest)
    | _ => false

/-- The digits of a whole number without what leaves its value as it is: leading zeros, a fraction
of zeros, and low lines between digits. -/
def plainDigits? (text : List Char) : Option (List Char) :=
  (withoutLeadingZeros text).map fun digits =>
    let whole := withoutZeroFraction digits
    (ungrouped whole).getD whole

/-- The text of a whole number in plain form, which has digits and perhaps a minus in front. -/
def plainForm? (text : List Char) : Option (List Char) :=
  match Numeral.stripped .plain text with
  | '+' :: rest => plainDigits? rest
  | '-' :: rest => (plainDigits? rest).map ('-' :: ·)
  | rest => plainDigits? rest

/-- Reads digits with an optional minus; further digits may not follow a zero. The digits in front
are counted before what follows them is looked at. -/
def plainInteger (text : List Char) : Reading Int :=
  let (negative, digits) := match text with
    | '-' :: rest => (true, rest)
    | rest => (false, rest)
  if digits.isEmpty || (digits.head? = some '0' && 1 < digits.length) then
    Reading.issue .unreadableWhole
  else if ConversionFault.digitLimit < (digits.takeWhile Char.isDigit).length then
    Reading.issue .tooLong
  else if digits.all Char.isDigit then
    let n : Int := Text.digitsValue digits
    .ok (if negative then -n else n)
  else Reading.issue .unreadableWhole

/-- Reads the text of a whole number. -/
def integerText (content : String) : Reading Int :=
  match plainForm? content.toList with
  | some digits => plainInteger digits
  | none => Reading.issue .unreadableWhole

/-- The whole number that a double is. -/
def integerOfFloat (x : Binary64) : Reading Int :=
  match x.ratio? with
  | none => Reading.issue .notFinite
  | some ratio =>
      if ratio.num % ratio.den ≠ 0 then Reading.issue .fractional
      else if wordLimit ≤ ratio.truncate.natAbs then Reading.issue .tooLong
      else .ok ratio.truncate

/-- The whole number that a decimal is. -/
def integerOfDecimal : Decimal → Reading Int
  | .finite negative coefficient exponent =>
      if Decimal.hasFraction coefficient exponent then Reading.issue .fractional
      else
        match Decimal.wholePart? coefficient exponent with
        | some whole => .ok (Decimal.signed negative whole)
        | none => Reading.issue .tooLong
  | _ => Reading.issue .notFinite

/-- Reads a whole number. -/
def integer (value : Value) : Reading Int :=
  match written value with
  | .text content => integerText content
  | .garbled => Reading.issue .unreadableWhole
  | .other =>
      match value with
      | .bool b => .ok (if b then 1 else 0)
      | .int n => .ok n
      | .float x => integerOfFloat x
      | .decimal d => integerOfDecimal d
      | _ => Reading.issue .notWhole

/-- Reads a whole number that has a least value. -/
def integerFrom (least : Int) (value : Value) : Reading Int :=
  match integer value with
  | .ok n => if n < least then Reading.issue .tooSmall else .ok n
  | .issues found => .issues found

/-- Reads the text of a floating number. Low lines may group digits if no white space stands
around. -/
def numberText (content : String) : Reading Binary64 :=
  let text := content.toList
  match Numeral.ofText? .plain text with
  | some numeral => .ok numeral.toBinary64
  | none =>
      match (ungrouped text).bind fun digits =>
          if digits.any NumeralStyle.isSpacing then none else Numeral.ofText? .plain digits with
      | some numeral => .ok numeral.toBinary64
      | none => Reading.issue .unreadableNumber

/-- Reads a floating number. -/
def number (value : Value) : Reading Binary64 :=
  match written value with
  | .text content => numberText content
  | .garbled => Reading.issue .unreadableNumber
  | .other =>
      match value with
      | .bool b => .ok (Binary64.ofInt (if b then 1 else 0))
      | .int n =>
          let x := Binary64.ofInt n
          if x.isInfinite then Reading.issue .notNumber else .ok x
      | .float x => .ok x
      | .decimal (.nan _ true _) => Reading.issue .notNumber
      | .decimal d => .ok (Value.decimalToBinary64 d)
      | _ => Reading.issue .notNumber

/-- Reads a floating number or its absence. -/
def optionalNumber : Value → Reading (Option Binary64)
  | .null => .ok none
  | value => some <$> number value

def trueWords : List String := ["1", "on", "t", "true", "y", "yes"]

def falseWords : List String := ["0", "off", "f", "false", "n", "no"]

/-- Reads the text of a flag, in any letter case. -/
def flagText (content : String) : Reading Bool :=
  let word := String.ofList (content.toList.map Char.toLower)
  if trueWords.contains word then .ok true
  else if falseWords.contains word then .ok false
  else Reading.issue .unreadableFlag

/-- The flag that a whole number stands for. -/
def flagOfInt (n : Int) : Reading Bool :=
  if n = 0 then .ok false
  else if n = 1 then .ok true
  else if n < -wordLimit || wordLimit ≤ n then Reading.issue .notFlag
  else Reading.issue .unreadableFlag

/-- The flag that a double stands for. -/
def flagOfFloat (x : Binary64) : Reading Bool :=
  match integerOfFloat x with
  | .ok n => flagOfInt n
  | .issues _ => Reading.issue .notFlag

/-- Reads a flag. -/
def flag (value : Value) : Reading Bool :=
  match written value with
  | .text content => flagText content
  | .garbled => Reading.issue .unreadableFlag
  | .other =>
      match value with
      | .bool b => .ok b
      | .int n => flagOfInt n
      | .float x => flagOfFloat x
      | .decimal (.nan _ true _) => Reading.issue .notFlag
      | .decimal d => flagOfFloat (Value.decimalToBinary64 d)
      | _ => Reading.issue .notFlag

/-- Reads a text. -/
def text (value : Value) : Reading String :=
  match written value with
  | .text content => .ok content
  | .garbled => Reading.issue .garbledText
  | .other => Reading.issue .notText

end StarCube.Lenient
