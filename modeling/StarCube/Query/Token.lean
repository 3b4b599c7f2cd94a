import StarCube.Number.Binary64
import StarCube.Sql.Identifier
import StarCube.Text.Character
import StarCube.Text.Quoted
import StarCube.Value.Conversion

/-!
The tokens of query text, each with its line and column. Bracketed names, quoted strings, numbers,
words and marks are tokens; blanks and line ends only separate them. The last token of a text is its
end.
-/

namespace StarCube

/-- A word that the query language reserves, in any letter case. -/
inductive Keyword where
  | select
  | from
  | where
  | and
  | in
  | true
  | false
deriving DecidableEq, Repr

namespace Keyword

/-- The spelling in capitals. -/
def spelling : Keyword → String
  | .select => "SELECT"
  | .from => "FROM"
  | .where => "WHERE"
  | .and => "AND"
  | .in => "IN"
  | .true => "TRUE"
  | .false => "FALSE"

def all : List Keyword :=
  [.select, .from, .where, .and, .in, .true, .false]

/-- The keyword that a word spells. -/
def ofWord? (word : List Char) : Option Keyword :=
  all.find? fun keyword => keyword.spelling.toList == word.map Char.toUpper

end Keyword

/-- A mark of the query language. -/
inductive Mark where
  | point
  | comma
  | openParenthesis
  | closeParenthesis
  | equals
  | semicolon
deriving DecidableEq, Repr

namespace Mark

def symbol : Mark → Char
  | .point => '.'
  | .comma => ','
  | .openParenthesis => '('
  | .closeParenthesis => ')'
  | .equals => '='
  | .semicolon => ';'

def all : List Mark :=
  [.point, .comma, .openParenthesis, .closeParenthesis, .equals, .semicolon]

def ofChar? (c : Char) : Option Mark :=
  all.find? fun mark => mark.symbol == c

end Mark

/-- What a token is. -/
inductive TokenKind where
  /-- A bracketed name, trimmed. -/
  | name (name : String)
  | string (content : String)
  | integer (n : Int)
  | real (x : Binary64)
  | keyword (keyword : Keyword)
  | word (word : String)
  | mark (mark : Mark)
  | finish
deriving DecidableEq, Repr

/-- A token with the place where it starts, counted from one, and its text. -/
structure Token where
  kind : TokenKind
  line : Nat
  column : Nat
  text : String
deriving DecidableEq, Repr

/-- What a syntax error found in place of what it expected. -/
inductive Found where
  | token (text : String)
  | finish
deriving DecidableEq, Repr

namespace Found

def describe : Found → String
  | .token text => "'" ++ text ++ "'"
  | .finish => "end of query"

end Found

namespace Token

/-- How a message speaks of a token. -/
def found (token : Token) : Found :=
  if token.kind = .finish then .finish else .token token.text

end Token

/-- What is wrong with query text. -/
inductive SyntaxReason where
  | unterminatedName
  | unterminatedString
  | unexpectedCharacter (c : Char)
  | emptyName
  | expectedKeyword (keyword : Keyword) (found : Found)
  | expectedMark (mark : Mark) (found : Found)
  | expectedName (role : String) (found : Found)
  | expectedCube (found : Found)
  | expectedComparison (found : Found)
  | expectedLiteral (found : Found)
  | measureParts
  | measurePredicate
  | trailing (found : Found)
  /-- A reason that is given as text. -/
  | stated (reason : String)
deriving DecidableEq, Repr

namespace SyntaxReason

def message : SyntaxReason → String
  | .unterminatedName => "Unterminated '[' in identifier"
  | .unterminatedString => "Unterminated string literal"
  | .unexpectedCharacter c => "Unexpected character '" ++ String.singleton c ++ "'"
  | .emptyName => "Empty identifier '[]'"
  | .expectedKeyword keyword found =>
      "Expected " ++ keyword.spelling ++ ", found " ++ found.describe
  | .expectedMark mark found =>
      "Expected '" ++ String.singleton mark.symbol ++ "', found " ++ found.describe
  | .expectedName role found => "Expected bracketed " ++ role ++ ", found " ++ found.describe
  | .expectedCube found => "Expected cube name, found " ++ found.describe
  | .expectedComparison found => "Expected '=' or IN, found " ++ found.describe
  | .expectedLiteral found => "Expected literal value, found " ++ found.describe
  | .measureParts => "Measure references take the form [Measures].[Name]"
  | .measurePredicate => "Predicates must reference a dimension level"
  | .trailing found => "Unexpected " ++ found.describe ++ " after query"
  | .stated reason => reason

end SyntaxReason

/-- Why query text cannot be read. -/
inductive QueryTextFault where
  | misread (line column : Nat) (reason : SyntaxReason)
  /-- A whole number with more digits than are read. -/
  | numeral (fault : ConversionFault)
deriving DecidableEq, Repr

/-- What stands at the front of query text. -/
inductive LexemeKind where
  | lineEnd
  | blank
  | token (kind : TokenKind)
deriving DecidableEq, Repr

/-- A piece at the front of query text: its characters and those that follow. -/
structure Lexeme where
  kind : LexemeKind
  raw : List Char
  rest : List Char
deriving Repr

/-- Why no piece can be read. -/
inductive LexemeFault where
  | reason (reason : SyntaxReason)
  | numeral (fault : ConversionFault)
deriving DecidableEq, Repr

namespace Lexeme

/-- A blank within a line. -/
def isLineBlank (c : Char) : Bool :=
  c == ' ' || c == '\t' || c == '\r' || c == '\x0c' || c == '\x0b'

/-- A bracketed name, after its opening bracket. -/
def name (inner : List Char) : Except LexemeFault Lexeme :=
  let within := inner.takeWhile fun c => c != ']' && c != '\n'
  match inner.dropWhile fun c => c != ']' && c != '\n' with
  | ']' :: rest =>
      let trimmed := Text.trimmed within
      if trimmed.isEmpty then .error (.reason .emptyName)
      else .ok ⟨.token (.name (String.ofList trimmed)), '[' :: within ++ [']'], rest⟩
  | _ => .error (.reason .unterminatedName)

/-- A quoted string, after its opening quote. -/
def string (quote : Char) (inner : List Char) : Except LexemeFault Lexeme :=
  match Text.closeQuoted quote (· == '\n') inner with
  | some (body, rest) =>
      .ok ⟨.token (.string (String.ofList (Text.undouble quote body))),
        quote :: body ++ [quote], rest⟩
  | none => .error (.reason .unterminatedString)

/-- The digits after a point that a digit follows; none if there is no such point. -/
def fraction : List Char → List Char
  | '.' :: tail => tail.takeWhile Text.isDigit
  | _ => []

/-- A number without its sign: digits, and a point and further digits if a digit follows it. -/
def number (negative : Bool) (sign text : List Char) : Except LexemeFault Lexeme :=
  let whole := text.takeWhile Text.isDigit
  let after := text.dropWhile Text.isDigit
  let places := fraction after
  if places.isEmpty then
    if ConversionFault.digitLimit < whole.length then
      .error (.numeral (.tooManyDigits whole.length))
    else
      let n : Int := Text.digitsValue whole
      .ok ⟨.token (.integer (if negative then -n else n)), sign ++ whole, after⟩
  else
    .ok ⟨.token (.real (Binary64.ofScientific negative (Text.digitsValue (whole ++ places))
        (-places.length))),
      sign ++ whole ++ '.' :: places, after.drop (1 + places.length)⟩

/-- A word or a keyword. -/
def word (text : List Char) : Lexeme :=
  let letters := text.takeWhile isIdentifierRest
  ⟨.token (match Keyword.ofWord? letters with
    | some keyword => .keyword keyword
    | none => .word (String.ofList letters)), letters, text.dropWhile isIdentifierRest⟩

/-- The piece at the front of a text that starts with `c`. -/
def next (c : Char) (rest : List Char) : Except LexemeFault Lexeme :=
  if c = '\n' then .ok ⟨.lineEnd, [c], rest⟩
  else if isLineBlank c then
    .ok ⟨.blank, c :: rest.takeWhile isLineBlank, rest.dropWhile isLineBlank⟩
  else if c = '[' then name rest
  else if c = '\'' || c = '"' then string c rest
  else if Text.isDigit c then number false [] (c :: rest)
  else if c = '-' && rest.head?.any Text.isDigit then number true ['-'] rest
  else if isIdentifierStart c then .ok (word (c :: rest))
  else
    match Mark.ofChar? c with
    | some mark => .ok ⟨.token (.mark mark), [c], rest⟩
    | none => .error (.reason (.unexpectedCharacter c))

theorem isIdentifierRest_of_start {c : Char} (h : isIdentifierStart c = true) :
    isIdentifierRest c = true := by
  simp only [isIdentifierStart, isIdentifierRest, Char.isAlphanum, Bool.or_eq_true] at *
  rcases h with h | h
  · exact .inl (.inl h)
  · exact .inr h

/-- A bracketed name is cut off the front of the text. -/
theorem name_raw {inner : List Char} {lexeme : Lexeme} (h : name inner = .ok lexeme) :
    lexeme.raw ≠ [] ∧ '[' :: inner = lexeme.raw ++ lexeme.rest := by
  have hsplit := List.takeWhile_append_dropWhile (p := fun c => c != ']' && c != '\n') (l := inner)
  simp only [name] at h
  split at h
  · rename_i rest hdrop
    split at h
    · simp at h
    · obtain rfl := Except.ok.inj h
      refine ⟨by simp, ?_⟩
      rw [hdrop] at hsplit
      simp [hsplit]
  · simp at h

theorem string_raw {quote : Char} {inner : List Char} {lexeme : Lexeme}
    (h : string quote inner = .ok lexeme) :
    lexeme.raw ≠ [] ∧ quote :: inner = lexeme.raw ++ lexeme.rest := by
  simp only [string] at h
  split at h
  · rename_i body rest hclose
    obtain rfl := Except.ok.inj h
    exact ⟨by simp, by simp [Text.closeQuoted_append hclose]⟩
  · simp at h

/-- A fraction is cut off the front of the text with its point. -/
theorem fraction_append {text : List Char} (h : fraction text ≠ []) :
    '.' :: fraction text ++ text.drop (1 + (fraction text).length) = text := by
  unfold fraction at *
  split at h
  · rename_i tail
    have htail := List.takeWhile_append_dropWhile (p := Text.isDigit) (l := tail)
    rw [Nat.add_comm 1, List.drop_succ_cons, List.cons_append]
    refine congrArg ('.' :: ·) ?_
    generalize tail.takeWhile Text.isDigit = digits at *
    rw [← htail]
    simp
  · simp at h

theorem number_raw {negative : Bool} {sign text : List Char} {lexeme : Lexeme}
    (h : number negative sign text = .ok lexeme)
    (hdigit : (text.takeWhile Text.isDigit) ≠ []) :
    lexeme.raw ≠ [] ∧ sign ++ text = lexeme.raw ++ lexeme.rest := by
  have hsplit := List.takeWhile_append_dropWhile (p := Text.isDigit) (l := text)
  simp only [number] at h
  split at h
  · split at h
    · simp at h
    · obtain rfl := Except.ok.inj h
      exact ⟨by simp [hdigit], by simp [hsplit]⟩
  · rename_i hplaces
    obtain rfl := Except.ok.inj h
    have happend := fraction_append (by simpa using hplaces)
    refine ⟨by simp, ?_⟩
    simp only [List.append_assoc, List.cons_append] at happend ⊢
    rw [happend, hsplit]

/-- Every piece has characters, and they are the front of the text. -/
theorem next_raw {c : Char} {rest : List Char} {lexeme : Lexeme} (h : next c rest = .ok lexeme) :
    lexeme.raw ≠ [] ∧ c :: rest = lexeme.raw ++ lexeme.rest := by
  simp only [next] at h
  split at h
  · obtain rfl := Except.ok.inj h
    simp
  split at h
  · obtain rfl := Except.ok.inj h
    simp
  split at h
  · rename_i hc
    exact hc ▸ name_raw h
  split at h
  · exact string_raw h
  split at h
  · rename_i hc
    exact number_raw h (by simp [hc])
  split at h
  · rename_i hc
    simp only [Bool.and_eq_true, decide_eq_true_eq] at hc
    obtain ⟨rfl, hdigit⟩ := hc
    refine number_raw h ?_
    cases rest with
    | nil => simp at hdigit
    | cons d tail => simp_all
  split at h
  · rename_i hc
    obtain rfl := Except.ok.inj h
    refine ⟨by simp [word, isIdentifierRest_of_start hc], ?_⟩
    simp [word]
  split at h
  · obtain rfl := Except.ok.inj h
    simp
  · simp at h

theorem next_length {c : Char} {rest : List Char} {lexeme : Lexeme}
    (h : next c rest = .ok lexeme) : lexeme.rest.length < (c :: rest).length := by
  obtain ⟨hne, heq⟩ := next_raw h
  rw [heq, List.length_append]
  have := List.length_pos_iff.2 hne
  omega

end Lexeme

namespace Token

/-- The tokens of the rest of a text that starts at a line and column. -/
def scanFrom (line column : Nat) (text : List Char) : Except QueryTextFault (List Token) :=
  match text with
  | [] => .ok [⟨.finish, line, column, ""⟩]
  | c :: rest =>
      match h : Lexeme.next c rest with
      | .error (.reason reason) => .error (.misread line column reason)
      | .error (.numeral fault) => .error (.numeral fault)
      | .ok lexeme =>
          have := Lexeme.next_length h
          match lexeme.kind with
          | .lineEnd => scanFrom (line + 1) 1 lexeme.rest
          | .blank => scanFrom line (column + lexeme.raw.length) lexeme.rest
          | .token kind =>
              (scanFrom line (column + lexeme.raw.length) lexeme.rest).map
                (⟨kind, line, column, String.ofList lexeme.raw⟩ :: ·)
termination_by text.length
decreasing_by all_goals exact this

/-- The tokens of a query text, its end included. -/
def scan (text : String) : Except QueryTextFault (List Token) :=
  scanFrom 1 1 text.toList

end Token

end StarCube
