import StarCube.Text.Printable

/-!
Texts and byte strings displayed between quotes. Single quotes are used unless the content holds a
single quote and no double quote; the quote in use and the backslash are escaped, and so is what
cannot be printed.
-/

namespace StarCube.Text

/-- The hexadecimal digits of a number, padded with zeros to a width. -/
def hexPadded (width n : Nat) : List Char :=
  let digits := Nat.toDigits 16 n
  List.replicate (width - digits.length) '0' ++ digits

/-- The quote that a content is displayed with. -/
def displayQuote (content : List Char) : Char :=
  if content.contains '\'' && !content.contains '"' then '"' else '\''

/-- One displayed character. -/
def displayCharacter (quote c : Char) : List Char :=
  if c = quote || c = '\\' then ['\\', c]
  else if c = '\n' then ['\\', 'n']
  else if c = '\r' then ['\\', 'r']
  else if c = '\t' then ['\\', 't']
  else if isPrintable c then [c]
  else if c.toNat < 0x100 then '\\' :: 'x' :: hexPadded 2 c.toNat
  else if c.toNat < 0x10000 then '\\' :: 'u' :: hexPadded 4 c.toNat
  else '\\' :: 'U' :: hexPadded 8 c.toNat

/-- A text between quotes. -/
def display (text : String) : String :=
  let content := text.toList
  let quote := displayQuote content
  String.ofList (quote :: (content.flatMap (displayCharacter quote) ++ [quote]))

/-- One displayed byte. -/
def displayByte (quote : Char) (byte : UInt8) : List Char :=
  if byte.toNat < 0x7f then displayCharacter quote (Char.ofNat byte.toNat)
  else '\\' :: 'x' :: hexPadded 2 byte.toNat

/-- A byte string between quotes, marked with a `b`. -/
def displayBytes (bytes : List UInt8) : String :=
  let quote := displayQuote (bytes.map fun byte => Char.ofNat byte.toNat)
  String.ofList ('b' :: quote :: (bytes.flatMap (displayByte quote) ++ [quote]))

end StarCube.Text
