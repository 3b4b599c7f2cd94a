/-!
Kinds of characters of every script, by their code points: white space and the trimming of texts,
decimal digits, and the letters of keywords that are found in any letter case.
-/

namespace StarCube.Text

/-- A code point lies in one of the closed intervals. -/
def inRanges (table : List (Nat × Nat)) (code : Nat) : Bool :=
  table.any fun range => range.1 ≤ code && code ≤ range.2

theorem inRanges_eq_true_iff {table : List (Nat × Nat)} {code : Nat} :
    inRanges table code = true ↔ ∃ range ∈ table, range.1 ≤ code ∧ code ≤ range.2 := by
  simp [inRanges]

/-! ### White space -/

/-- White space: the controls of the ASCII range that separate, and the spaces and line ends
of Unicode. -/
def isBlank (c : Char) : Bool :=
  let code := c.toNat
  (0x09 ≤ code && code ≤ 0x0d) || (0x1c ≤ code && code ≤ 0x20) || code == 0x85 ||
    code == 0xa0 || code == 0x1680 || (0x2000 ≤ code && code ≤ 0x200a) ||
    code == 0x2028 || code == 0x2029 || code == 0x202f || code == 0x205f || code == 0x3000

/-- The characters without the white space at either end. -/
def trimmed (text : List Char) : List Char :=
  ((text.dropWhile isBlank).reverse.dropWhile isBlank).reverse

/-- A text without the white space at either end. -/
def trim (text : String) : String :=
  String.ofList (trimmed text.toList)

/-! ### Digits

The digits of a script stand together, zero first, so a script is given by the code point of its
zero.
-/

/-- The code points of the zeros, in rising order. -/
def zeroCodes : List Nat :=
  [48, 1632, 1776, 1984, 2406, 2534, 2662, 2790, 2918, 3046, 3174, 3302, 3430, 3558, 3664, 3792,
   3872, 4160, 4240, 6112, 6160, 6470, 6608, 6784, 6800, 6992, 7088, 7232, 7248, 42528, 43216,
   43264, 43472, 43504, 43600, 44016, 65296, 66720, 68912, 69734, 69872, 69942, 70096, 70384,
   70736, 70864, 71248, 71360, 71472, 71904, 72016, 72784, 73040, 73120, 92768, 92864, 93008,
   120782, 120792, 120802, 120812, 120822, 123200, 123632, 125264, 130032]

/-- The value of a decimal digit. -/
def digitValue? (c : Char) : Option Nat :=
  (zeroCodes.find? fun start => start ≤ c.toNat && c.toNat < start + 10).map (c.toNat - ·)

/-- A decimal digit of some script. -/
def isDigit (c : Char) : Bool :=
  (digitValue? c).isSome

/-- The number that a run of digits writes; a character that is no digit counts as zero. -/
def digitsValue (digits : List Char) : Nat :=
  digits.foldl (fun total c => 10 * total + (digitValue? c).getD 0) 0

/-! ### Keywords

Beside its capital, the letter s has the long s and the letter k has the Kelvin sign as further
forms.
-/

/-- A character is a form of a small letter. -/
def isLetterForm (small c : Char) : Bool :=
  c.toLower == small || (small == 's' && c == 'ſ') || (small == 'k' && c == '\u212a')

/-- What follows a keyword, given in small letters, at the front of a text. -/
def afterKeyword : List Char → List Char → Option (List Char)
  | [], text => some text
  | _ :: _, [] => none
  | small :: smalls, c :: rest => if isLetterForm small c then afterKeyword smalls rest else none

theorem afterKeyword_length {keyword text after : List Char}
    (h : afterKeyword keyword text = some after) : after.length + keyword.length = text.length := by
  fun_induction afterKeyword keyword text with
  | case1 => simp_all
  | case2 => simp at h
  | case3 small smalls c rest _ ih =>
      have := ih h
      simp
      omega
  | case4 => simp at h

end StarCube.Text
