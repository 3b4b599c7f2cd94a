import StarCube.Number.Binary64
import StarCube.Text.Character

/-!
Numbers written as text: which digits count, whether groups of digits may be separated, and the
reading of whole and of floating numbers.
-/

namespace StarCube

/-- The spelling of numbers that a reader admits. -/
structure NumeralStyle where
  /-- White space that may stand around a number. -/
  blank : Char → Bool
  digit? : Char → Option Nat
  /-- A low line may stand between two digits. -/
  grouped : Bool

namespace NumeralStyle

/-- A digit from `0` to `9`. -/
def asciiDigit? (c : Char) : Option Nat :=
  if c.isDigit then some (c.toNat - '0'.toNat) else none

/-- White space without the separator controls. -/
def isSpacing (c : Char) : Bool :=
  Text.isBlank c && !(0x1c ≤ c.toNat && c.toNat ≤ 0x1f)

/-- White space of the ASCII range without the separator controls. -/
def isAsciiSpacing (c : Char) : Bool :=
  isSpacing c && c.toNat < 128

/-- Text cells: digits of every script, in groups. -/
def textual : NumeralStyle := ⟨isSpacing, Text.digitValue?, true⟩

/-- Byte cells: ASCII digits, in groups. -/
def bytewise : NumeralStyle := ⟨isAsciiSpacing, asciiDigit?, true⟩

/-- Settings: ASCII digits without groups. -/
def plain : NumeralStyle := ⟨isSpacing, asciiDigit?, false⟩

end NumeralStyle

/-- What a text may write in place of a floating number. -/
inductive Numeral where
  | infinite (negative : Bool)
  | nan
  | finite (negative : Bool) (coefficient : Nat) (exponent : Int)
deriving Repr

namespace Numeral

/-- The double nearest to a numeral. -/
def toBinary64 : Numeral → Binary64
  | .infinite negative => Binary64.infinity negative
  | .nan => Binary64.nan
  | .finite negative coefficient exponent => Binary64.ofScientific negative coefficient exponent

/-- The characters without the spacing at either end. -/
def stripped (style : NumeralStyle) (text : List Char) : List Char :=
  ((text.dropWhile style.blank).reverse.dropWhile style.blank).reverse

/-- Splits a leading sign off; true for minus. -/
def signOf : List Char → Bool × List Char
  | '-' :: rest => (true, rest)
  | '+' :: rest => (false, rest)
  | rest => (false, rest)

/-- The digits at the front of a text that follow another digit, with what comes after them. -/
def moreDigits (style : NumeralStyle) : List Char → List Nat × List Char
  | [] => ([], [])
  | c :: rest =>
      match style.digit? c with
      | some digit =>
          let (digits, after) := moreDigits style rest
          (digit :: digits, after)
      | none =>
          match rest with
          | next :: tail =>
              if style.grouped && c == '_' then
                match style.digit? next with
                | some digit =>
                    let (digits, after) := moreDigits style tail
                    (digit :: digits, after)
                | none => ([], c :: rest)
              else ([], c :: rest)
          | [] => ([], c :: rest)

/-- The digits at the front of a text. -/
def digits (style : NumeralStyle) (text : List Char) : List Nat × List Char :=
  match text with
  | c :: rest =>
      match style.digit? c with
      | some digit =>
          let (more, after) := moreDigits style rest
          (digit :: more, after)
      | none => ([], text)
  | [] => ([], [])

/-- The number that digits write, the highest first. -/
def valueOf (digits : List Nat) : Nat :=
  digits.foldl (fun total digit => 10 * total + digit) 0

/-- The exponent at the end of a numeral: none written counts as zero. -/
def exponentAfter? (style : NumeralStyle) : List Char → Option Int
  | [] => some 0
  | mark :: rest =>
      if mark == 'e' || mark == 'E' then
        let (negative, body) := signOf rest
        match digits style body with
        | ([], _) => none
        | (written, []) => some (if negative then -(valueOf written : Int) else valueOf written)
        | _ => none
      else none

/-- Reads the part after the sign: a word for an infinity or for no number, or digits with an
optional point and exponent, at least one digit before the exponent. -/
def unsigned? (style : NumeralStyle) (negative : Bool) (text : List Char) : Option Numeral :=
  let word := text.map Char.toLower
  if word = "inf".toList || word = "infinity".toList then some (.infinite negative)
  else if word = "nan".toList then some .nan
  else
    let (whole, rest) := digits style text
    let (fraction, rest) := match rest with
      | '.' :: tail => digits style tail
      | _ => ([], rest)
    if whole.isEmpty && fraction.isEmpty then none
    else
      (exponentAfter? style rest).map fun exponent =>
        .finite negative (valueOf (whole ++ fraction)) (exponent - fraction.length)

/-- Reads a floating number. -/
def ofText? (style : NumeralStyle) (text : List Char) : Option Numeral :=
  let (negative, body) := signOf (stripped style text)
  unsigned? style negative body

/-- Reads the whole number at the front of a text: whether it is negative, its digits, and what
follows them. -/
def whole (style : NumeralStyle) (text : List Char) : Bool × List Nat × List Char :=
  let (negative, body) := signOf (stripped style text)
  (negative, digits style body)

end Numeral

end StarCube
