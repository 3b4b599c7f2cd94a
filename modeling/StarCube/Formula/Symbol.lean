import StarCube.Number.Binary64
import StarCube.Text.Bracketed
import StarCube.Text.Character

/-!
The symbols of a formula: measure references, numbers, operators and parentheses, each with the
position at which it stands. White space separates symbols and has no other meaning.
-/

namespace StarCube

/-- What a symbol of a formula is. -/
inductive FormulaSymbol where
  | measure (name : String)
  | number (written : String) (value : Binary64)
  /-- An operator or a parenthesis. -/
  | mark (c : Char)
deriving DecidableEq, Repr

namespace FormulaSymbol

/-- The text that stands for a symbol in a message. -/
def shown : FormulaSymbol → String
  | .measure name => name
  | .number written _ => written
  | .mark c => String.singleton c

/-- An operator or a parenthesis. -/
def isMark (c : Char) : Bool :=
  c == '+' || c == '-' || c == '*' || c == '/' || c == '(' || c == ')'

/-- A measure reference: the bracketed keyword, a point and a bracketed name, with white space
allowed around the point. -/
def measure? (text : List Char) : Option (FormulaSymbol × List Char) :=
  (Text.afterKeyword "[measures]".toList text).bind fun rest =>
    (Text.afterCharacter '.' (rest.dropWhile Text.isBlank)).bind fun rest =>
      (Text.bracketed? (rest.dropWhile Text.isBlank)).map fun found =>
        (.measure (String.ofList found.1), found.2)

/-- The number written by digits before and after a point. -/
def ofDigits (written whole fraction : List Char) : FormulaSymbol :=
  .number (String.ofList written)
    (Binary64.ofScientific false (Text.digitsValue (whole ++ fraction)) (-fraction.length))

/-- A number: digits with an optional point and further digits, or a point and digits. -/
def number? (text : List Char) : Option (FormulaSymbol × List Char) :=
  let whole := text.takeWhile Text.isDigit
  match text.dropWhile Text.isDigit with
  | '.' :: rest =>
      let fraction := rest.takeWhile Text.isDigit
      if whole.isEmpty && fraction.isEmpty then none
      else
        some (ofDigits (whole ++ '.' :: fraction) whole fraction, rest.dropWhile Text.isDigit)
  | rest => if whole.isEmpty then none else some (ofDigits whole whole [], rest)

/-- The symbol at the front of a text that does not start with white space. -/
def next? (text : List Char) : Option (FormulaSymbol × List Char) :=
  match measure? text with
  | some found => some found
  | none =>
      match number? text with
      | some found => some found
      | none =>
          match text with
          | [] => none
          | c :: rest => if isMark c then some (.mark c, rest) else none

theorem measure?_length {text rest : List Char} {symbol : FormulaSymbol}
    (h : measure? text = some (symbol, rest)) : rest.length < text.length := by
  obtain ⟨afterName, hname, h⟩ := Option.bind_eq_some_iff.1 h
  obtain ⟨afterPoint, hpoint, h⟩ := Option.bind_eq_some_iff.1 h
  obtain ⟨⟨name, after⟩, hfound, heq⟩ := Option.map_eq_some_iff.1 h
  have h1 := Text.afterKeyword_length hname
  have h2 := Text.afterCharacter_length hpoint
  have h3 := Text.bracketed?_length hfound
  have h4 := (List.dropWhile_suffix (l := afterName) Text.isBlank).length_le
  have h5 := (List.dropWhile_suffix (l := afterPoint) Text.isBlank).length_le
  obtain ⟨-, rfl⟩ := Prod.mk.inj heq
  change after.length < text.length
  omega

theorem number?_length {text rest : List Char} {symbol : FormulaSymbol}
    (h : number? text = some (symbol, rest)) : rest.length < text.length := by
  have hsplit : (text.takeWhile Text.isDigit).length + (text.dropWhile Text.isDigit).length =
      text.length := by
    rw [← List.length_append, List.takeWhile_append_dropWhile]
  simp only [number?] at h
  split at h
  · rename_i tail hdrop
    split at h
    · simp at h
    · have hle := (List.dropWhile_suffix (l := tail) Text.isDigit).length_le
      simp only [hdrop, List.length_cons] at hsplit
      simp only [Option.some.injEq, Prod.mk.injEq] at h
      rw [← h.2]
      omega
  · split at h
    · simp at h
    · rename_i hempty
      simp only [Option.some.injEq, Prod.mk.injEq] at h
      have hpos : 0 < (text.takeWhile Text.isDigit).length := by
        rw [List.length_pos_iff]
        simpa using hempty
      rw [← h.2]
      omega

theorem next?_length {text rest : List Char} {symbol : FormulaSymbol}
    (h : next? text = some (symbol, rest)) : rest.length < text.length := by
  unfold next? at h
  split at h
  · rename_i found hfound
    obtain rfl := Option.some.inj h
    exact measure?_length hfound
  · split at h
    · rename_i found hfound
      obtain rfl := Option.some.inj h
      exact number?_length hfound
    · split at h
      · simp at h
      · split at h <;> simp_all

end FormulaSymbol

/-- A symbol and the position at which it stands, counted from zero. -/
structure FormulaToken where
  symbol : FormulaSymbol
  position : Nat
deriving DecidableEq, Repr

/-- What is wrong with a formula. -/
inductive FormulaReason where
  | unexpectedCharacter (c : Char)
  | unexpectedToken (shown : String)
  | expectedParenthesis
deriving DecidableEq, Repr

namespace FormulaReason

def message : FormulaReason → String
  | .unexpectedCharacter c => "Unexpected character '" ++ String.singleton c ++ "'"
  | .unexpectedToken shown => "Unexpected token '" ++ shown ++ "'"
  | .expectedParenthesis => "Expected ')'"

end FormulaReason

/-- A fault of a formula at a position. -/
structure FormulaFault where
  expression : String
  position : Nat
  reason : FormulaReason
deriving DecidableEq, Repr

namespace FormulaFault

def message (fault : FormulaFault) : String :=
  fault.reason.message ++ " at position " ++ toString fault.position ++ " in '" ++
    fault.expression ++ "'"

end FormulaFault

/-- The tokens of the rest of a formula that has `total` characters in all; a character that starts
no symbol is a fault. -/
def formulaTokens (total : Nat) (text : List Char) :
    Except (Nat × FormulaReason) (List FormulaToken) :=
  match text with
  | [] => .ok []
  | c :: rest =>
      if Text.isBlank c then formulaTokens total rest
      else
        match h : FormulaSymbol.next? (c :: rest) with
        | none => .error (total - (c :: rest).length, .unexpectedCharacter c)
        | some (symbol, after) =>
            have := FormulaSymbol.next?_length h
            (formulaTokens total after).map
              (⟨symbol, total - (c :: rest).length⟩ :: ·)
termination_by text.length
decreasing_by
  · exact Nat.lt_succ_self rest.length
  · exact this

end StarCube
