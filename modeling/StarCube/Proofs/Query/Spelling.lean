import Mathlib.Data.List.Forall2
import Mathlib.Data.Nat.Digits.Defs
import StarCube.Proofs.Outcome
import StarCube.Proofs.Text.Quoted
import StarCube.Query.Token

/-!
Tokens as they are written, and the scanner that reads them back. A name stands between brackets, a
string between quotes with its own quote doubled, a keyword in any letter case, and a gap of spaces,
tabs and line ends stands between each two tokens. Of all that is written so, the scanner refuses
whole numbers with too many digits and nothing else.
-/

namespace StarCube

/-- A character that separates tokens. -/
def Separating (c : Char) : Prop :=
  c = ' ' ∨ c = '\t' ∨ c = '\n'

/-- What stands between two tokens. -/
structure Gap (text : List Char) : Prop where
  nonempty : text ≠ []
  separating : ∀ c ∈ text, Separating c

/-- Nothing follows a token, or what follows it is separated from it. -/
def Apart (after : List Char) : Prop :=
  ∀ c, after.head? = some c → Separating c

/-- A name that can stand between brackets. -/
structure Enclosable (name : String) : Prop where
  nonempty : name ≠ ""
  trimmed : Text.trim name = name
  unclosed : ']' ∉ name.toList
  unbroken : '\n' ∉ name.toList

instance : DecidablePred Enclosable := fun name =>
  decidable_of_iff (name ≠ "" ∧ Text.trim name = name ∧ ']' ∉ name.toList ∧ '\n' ∉ name.toList)
    ⟨fun ⟨h1, h2, h3, h4⟩ => ⟨h1, h2, h3, h4⟩, fun ⟨h1, h2, h3, h4⟩ => ⟨h1, h2, h3, h4⟩⟩

/-- A decimal as it is written without an exponent: a sign or none, digits, a point and digits. -/
structure PlainDecimal where
  negative : Bool
  whole : List (Fin 10)
  places : List (Fin 10)
  whole_ne_nil : whole ≠ []
  places_ne_nil : places ≠ []

namespace PlainDecimal

/-- Digits as characters. -/
def digitChars (digits : List (Fin 10)) : List Char :=
  digits.map fun digit => digit.val.digitChar

def signChars (negative : Bool) : List Char :=
  if negative then ['-'] else []

def chars (decimal : PlainDecimal) : List Char :=
  signChars decimal.negative ++ digitChars decimal.whole ++ '.' :: digitChars decimal.places

/-- The number without its point and sign. -/
def coefficient (decimal : PlainDecimal) : Nat :=
  Numeral.valueOf ((decimal.whole ++ decimal.places).map Fin.val)

/-- The nearest double. -/
def toBinary64 (decimal : PlainDecimal) : Binary64 :=
  Binary64.ofScientific decimal.negative decimal.coefficient (-decimal.places.length)

end PlainDecimal

/-- A text with every quote doubled. -/
def doubled (quote : Char) (content : List Char) : List Char :=
  content.flatMap fun c => if c = quote then [c, c] else [c]

/-- A keyword in any letter case. -/
def Keyword.Spells (keyword : Keyword) (word : List Char) : Prop :=
  List.Forall₂ (fun c letter => c = letter ∨ c = letter.toLower) word keyword.spelling.toList

namespace TokenKind

/-- How a token may be written. -/
inductive SpelledBy : TokenKind → List Char → Prop where
  | name {name : String} (h : Enclosable name) :
      SpelledBy (.name name) ('[' :: name.toList ++ [']'])
  | string {content : String} {quote : Char} (hquote : quote = '\'' ∨ quote = '"')
      (hline : '\n' ∉ content.toList) :
      SpelledBy (.string content) (quote :: doubled quote content.toList ++ [quote])
  | integer (n : Int) : SpelledBy (.integer n) (toString n).toList
  | real (decimal : PlainDecimal) : SpelledBy (.real decimal.toBinary64) decimal.chars
  | keyword {keyword : Keyword} {word : List Char} (h : keyword.Spells word) :
      SpelledBy (.keyword keyword) word
  | mark (mark : Mark) : SpelledBy (.mark mark) [mark.symbol]

/-- The digits with which a whole number is written. -/
def digits : TokenKind → Nat
  | .integer n => (Nat.toDigits 10 n.natAbs).length
  | _ => 0

end TokenKind

/-- Tokens are written in order, with a gap between each two. -/
inductive WrittenBy : List TokenKind → List Char → Prop where
  | last {kind : TokenKind} {spelling : List Char} (h : kind.SpelledBy spelling) :
      WrittenBy [kind] spelling
  | more {kind : TokenKind} {kinds : List TokenKind} {spelling gap text : List Char}
      (h : kind.SpelledBy spelling) (hgap : Gap gap) (hrest : WrittenBy kinds text) :
      WrittenBy (kind :: kinds) (spelling ++ (gap ++ text))

theorem Gap.apart {gap : List Char} (hgap : Gap gap) (text : List Char) : Apart (gap ++ text) := by
  intro c hc
  cases gap with
  | nil => exact absurd rfl hgap.nonempty
  | cons first others =>
      obtain rfl : first = c := by simpa using hc
      exact hgap.separating first List.mem_cons_self

theorem apart_nil : Apart [] := by
  intro c hc
  simp at hc

theorem Apart.head_eq {c : Char} {rest : List Char} (h : Apart (c :: rest)) : Separating c :=
  h c rfl

/-- A run of characters is taken whole if what follows does not go on with one of them. -/
theorem span_of_apart {p : Char → Bool} {front : List Char} (after : List Char)
    (hfront : ∀ c ∈ front, p c = true) (hafter : ∀ c, after.head? = some c → p c = false) :
    (front ++ after).takeWhile p = front ∧ (front ++ after).dropWhile p = after := by
  rw [List.takeWhile_append_of_pos hfront, List.dropWhile_append_of_pos hfront]
  cases after with
  | nil => simp
  | cons c rest => simp [hafter c rfl]

theorem Apart.stops {after : List Char} (h : Apart after) {p : Char → Bool}
    (hp : p ' ' = false ∧ p '\t' = false ∧ p '\n' = false) :
    ∀ c, after.head? = some c → p c = false := by
  intro c hc
  rcases h c hc with rfl | rfl | rfl
  · exact hp.1
  · exact hp.2.1
  · exact hp.2.2

namespace Lexeme

theorem next_name {name : String} (h : Enclosable name) (after : List Char) :
    next '[' (name.toList ++ [']'] ++ after) =
      .ok ⟨.token (.name name), '[' :: name.toList ++ [']'], after⟩ := by
  have hinner : ∀ c ∈ name.toList, (c != ']' && c != '\n') = true := by
    intro c hc
    simp only [Bool.and_eq_true, bne_iff_ne]
    constructor
    · rintro rfl
      exact h.unclosed hc
    · rintro rfl
      exact h.unbroken hc
  obtain ⟨hwithin, hclose⟩ := span_of_apart (']' :: after) hinner (by simp)
  have htrimmed : Text.trimmed name.toList = name.toList := by
    simpa [Text.trim] using congrArg String.toList h.trimmed
  have hnonempty : name.toList.isEmpty = false := by simpa using h.nonempty
  have hnext : next '[' (name.toList ++ [']'] ++ after) =
      Lexeme.name (name.toList ++ ']' :: after) := by
    simp [next, isLineBlank]
  rw [hnext, Lexeme.name, hclose, hwithin]
  simp [htrimmed, hnonempty]

theorem closeQuoted_doubled {quote : Char} {content after : List Char}
    (hquote : quote ≠ '\n') (hline : '\n' ∉ content) (hafter : after.head? ≠ some quote) :
    Text.closeQuoted quote (· == '\n') (doubled quote content ++ quote :: after) =
      some (doubled quote content, after) := by
  induction content with
  | nil =>
      cases after with
      | nil => simp [doubled, Text.closeQuoted]
      | cons c rest =>
          have hc : c ≠ quote := by simpa using hafter
          simp [doubled, Text.closeQuoted, hc]
  | cons c content ih =>
      rw [List.mem_cons, not_or] at hline
      have ih := ih hline.2
      by_cases hc : c = quote
      · subst hc
        simp only [doubled, List.flatMap_cons, if_pos, List.cons_append, List.nil_append] at ih ⊢
        simp [Text.closeQuoted, ih]
      · simp only [doubled, List.flatMap_cons, if_neg hc, List.cons_append, List.nil_append] at ih ⊢
        rw [Text.closeQuoted_cons hc (by simpa using Ne.symm hline.1), ih]
        rfl

theorem undouble_cons {quote c : Char} (hc : c ≠ quote) (text : List Char) :
    Text.undouble quote (c :: text) = c :: Text.undouble quote text := by
  cases text <;> simp [Text.undouble, hc]

theorem undouble_doubled (quote : Char) (content : List Char) :
    Text.undouble quote (doubled quote content) = content := by
  induction content with
  | nil => rfl
  | cons c content ih =>
      simp only [doubled, List.flatMap_cons] at ih ⊢
      by_cases hc : c = quote
      · subst hc
        simp [Text.undouble, ih]
      · simp [hc, undouble_cons, ih]

theorem next_string {content : String} {quote : Char} {after : List Char}
    (hquote : quote = '\'' ∨ quote = '"') (hline : '\n' ∉ content.toList) (hafter : Apart after) :
    next quote (doubled quote content.toList ++ [quote] ++ after) =
      .ok ⟨.token (.string content), quote :: doubled quote content.toList ++ [quote], after⟩ := by
  have hunquoted : after.head? ≠ some quote := by
    intro hhead
    rcases hquote with rfl | rfl <;> simpa [Separating] using hafter _ hhead
  have hbreak : quote ≠ '\n' := by rcases hquote with rfl | rfl <;> decide
  have hnext : next quote (doubled quote content.toList ++ [quote] ++ after) =
      Lexeme.string quote (doubled quote content.toList ++ quote :: after) := by
    rcases hquote with rfl | rfl <;> simp [next, isLineBlank]
  rw [hnext, Lexeme.string, closeQuoted_doubled hbreak hline hunquoted]
  simp [undouble_doubled]

theorem next_mark (mark : Mark) (after : List Char) :
    next mark.symbol after = .ok ⟨.token (.mark mark), [mark.symbol], after⟩ := by
  cases mark <;> rfl

/-- What the scanner sees in the letters of keywords. -/
theorem letter_facts (keyword : Keyword) :
    ∀ letter ∈ keyword.spelling.toList, ∀ c ∈ [letter, letter.toLower],
      c.toUpper = letter ∧ isIdentifierStart c = true ∧ Text.isDigit c = false ∧
        c ∉ ['\n', ' ', '\t', '\r', '\x0c', '\x0b', '[', '\'', '"', '-'] := by
  -- The lists are searched: deciding about every character there is would not end.
  have hall : (keyword.spelling.toList.all fun letter => [letter, letter.toLower].all fun c =>
      decide (c.toUpper = letter ∧ isIdentifierStart c = true ∧ Text.isDigit c = false ∧
        c ∉ ['\n', ' ', '\t', '\r', '\x0c', '\x0b', '[', '\'', '"', '-'])) = true := by
    cases keyword <;> decide
  simpa only [List.all_eq_true, decide_eq_true_eq] using hall

theorem ofWord?_spelling (keyword : Keyword) {word : List Char}
    (h : word.map Char.toUpper = keyword.spelling.toList) :
    Keyword.ofWord? word = some keyword := by
  rw [Keyword.ofWord?, h]
  cases keyword <;> decide

theorem map_toUpper_of_spells (keyword : Keyword) {word letters : List Char}
    (h : List.Forall₂ (fun c letter => c = letter ∨ c = letter.toLower) word letters)
    (hletters : ∀ letter ∈ letters, letter ∈ keyword.spelling.toList) :
    word.map Char.toUpper = letters ∧ ∀ c ∈ word, isIdentifierStart c = true := by
  induction h with
  | nil => simp
  | @cons c letter word letters hc _ ih =>
      obtain ⟨hupper, hstart, -⟩ := letter_facts keyword letter (hletters letter List.mem_cons_self)
        c (by simpa using hc)
      obtain ⟨ihupper, ihstart⟩ :=
        ih fun other hother => hletters other (List.mem_cons_of_mem _ hother)
      exact ⟨by rw [List.map_cons, hupper, ihupper], List.forall_mem_cons.2 ⟨hstart, ihstart⟩⟩

theorem next_letter {c : Char} (hstart : isIdentifierStart c = true)
    (hdigit : Text.isDigit c = false)
    (hplain : c ∉ ['\n', ' ', '\t', '\r', '\x0c', '\x0b', '[', '\'', '"', '-']) (rest : List Char) :
    next c rest = .ok (word (c :: rest)) := by
  simp only [List.mem_cons, List.not_mem_nil, or_false, not_or] at hplain
  simp [next, isLineBlank, hplain, hdigit, hstart]

theorem word_keyword {keyword : Keyword} {spelled after : List Char} (h : keyword.Spells spelled)
    (hafter : Apart after) :
    word (spelled ++ after) = ⟨.token (.keyword keyword), spelled, after⟩ := by
  obtain ⟨hupper, hstart⟩ := map_toUpper_of_spells keyword h fun _ hletter => hletter
  obtain ⟨htake, hdrop⟩ := span_of_apart after
    (fun c hc => isIdentifierRest_of_start (hstart c hc)) (hafter.stops (by decide))
  simp [word, htake, hdrop, ofWord?_spelling keyword hupper]

theorem digitValue?_of_isDigit {c : Char} (h : c.isDigit = true) :
    Text.digitValue? c = some (c.toNat - '0'.toNat) := by
  have hrange : 48 ≤ c.toNat ∧ c.toNat < 48 + 10 := by
    simp only [Char.isDigit, Bool.and_eq_true, decide_eq_true_eq, UInt32.le_iff_toNat_le] at h
    have hbounds : 48 ≤ c.toNat ∧ c.toNat ≤ 57 := h
    omega
  rw [Text.digitValue?, Text.zeroCodes, List.find?_cons_of_pos (by simpa using hrange)]
  rfl

theorem isDigit_of_isDigit {c : Char} (h : c.isDigit = true) : Text.isDigit c = true := by
  rw [Text.isDigit, digitValue?_of_isDigit h]
  rfl

theorem digitsValue_eq {digits : List Char} (h : ∀ c ∈ digits, c.isDigit = true) :
    Text.digitsValue digits = Nat.ofDigitChars 10 digits 0 := by
  rw [Text.digitsValue, Nat.ofDigitChars_eq_foldl]
  apply List.foldl_ext
  intro total c hc
  rw [digitValue?_of_isDigit (h c hc), Option.getD_some]

theorem next_digit {c : Char} (h : c.isDigit = true) (rest : List Char) :
    next c rest = number false [] (c :: rest) := by
  have hplain : c ∉ ['\n', ' ', '\t', '\r', '\x0c', '\x0b', '[', '\'', '"'] := by
    intro hc
    have hnone : ∀ c ∈ ['\n', ' ', '\t', '\r', '\x0c', '\x0b', '[', '\'', '"'],
        c.isDigit = false := by simp
    simp [hnone c hc] at h
  simp only [List.mem_cons, List.not_mem_nil, or_false, not_or] at hplain
  simp [next, isLineBlank, hplain, isDigit_of_isDigit h]

theorem next_minus {d : Char} (h : d.isDigit = true) (rest : List Char) :
    next '-' (d :: rest) = number true ['-'] (d :: rest) := by
  have hminus : Text.isDigit '-' = false := by decide
  simp [next, isLineBlank, hminus, isDigit_of_isDigit h]

theorem fraction_of_apart {after : List Char} (h : Apart after) : fraction after = [] := by
  cases after with
  | nil => rfl
  | cons c rest => rcases h.head_eq with rfl | rfl | rfl <;> rfl

variable {negative : Bool} {sign digits after : List Char}

theorem number_integer (hdigits : ∀ c ∈ digits, c.isDigit = true) (hafter : Apart after) :
    number negative sign (digits ++ after) =
      if ConversionFault.digitLimit < digits.length then
        .error (.numeral (.tooManyDigits digits.length))
      else
        .ok ⟨.token (.integer (if negative then -(Nat.ofDigitChars 10 digits 0 : Int)
          else Nat.ofDigitChars 10 digits 0)), sign ++ digits, after⟩ := by
  obtain ⟨hwhole, hrest⟩ := span_of_apart after (fun c hc => isDigit_of_isDigit (hdigits c hc))
    (hafter.stops (p := Text.isDigit) (by decide))
  simp only [number, hwhole, hrest, fraction_of_apart hafter, digitsValue_eq hdigits,
    List.isEmpty_nil, if_true]

theorem number_real {whole places : List Char} (hwhole : ∀ c ∈ whole, c.isDigit = true)
    (hplaces : ∀ c ∈ places, c.isDigit = true) (hnonempty : places ≠ []) (hafter : Apart after) :
    number negative sign (whole ++ '.' :: places ++ after) =
      .ok ⟨.token (.real (Binary64.ofScientific negative (Nat.ofDigitChars 10 (whole ++ places) 0)
        (-places.length))), sign ++ whole ++ '.' :: places, after⟩ := by
  have hpoint : Text.isDigit '.' = false := by decide
  obtain ⟨htake, hdrop⟩ := span_of_apart ('.' :: (places ++ after))
    (fun c hc => isDigit_of_isDigit (hwhole c hc)) (by simpa using hpoint)
  obtain ⟨hfraction, -⟩ := span_of_apart after (fun c hc => isDigit_of_isDigit (hplaces c hc))
    (hafter.stops (p := Text.isDigit) (by decide))
  have hvalue : Text.digitsValue (whole ++ places) = Nat.ofDigitChars 10 (whole ++ places) 0 :=
    digitsValue_eq (List.forall_mem_append.2 ⟨hwhole, hplaces⟩)
  have hsome : places.isEmpty = false := by simpa using hnonempty
  rw [List.append_assoc, List.cons_append]
  simp only [number, htake, hdrop, fraction, hfraction, hsome, hvalue]
  simp [Nat.add_comm 1]

end Lexeme

namespace PlainDecimal

theorem isDigit_of_mem_digitChars {digits : List (Fin 10)} {c : Char} (h : c ∈ digitChars digits) :
    c.isDigit = true := by
  have hall : ∀ digit : Fin 10, digit.val.digitChar.isDigit = true := by decide
  obtain ⟨digit, -, rfl⟩ := List.mem_map.1 h
  exact hall digit

theorem ofDigitChars_digitChars (digits : List (Fin 10)) (total : Nat) :
    Nat.ofDigitChars 10 (digitChars digits) total =
      (digits.map Fin.val).foldl (fun total digit => 10 * total + digit) total := by
  induction digits generalizing total with
  | nil => rfl
  | cons digit digits ih =>
      rw [digitChars, List.map_cons, Nat.ofDigitChars_cons_digitChar_of_lt_ten digit.isLt]
      exact ih _

theorem coefficient_eq (decimal : PlainDecimal) :
    Nat.ofDigitChars 10 (digitChars decimal.whole ++ digitChars decimal.places) 0 =
      decimal.coefficient := by
  have happend : digitChars decimal.whole ++ digitChars decimal.places =
      digitChars (decimal.whole ++ decimal.places) := by simp [digitChars]
  rw [happend, ofDigitChars_digitChars]
  rfl

end PlainDecimal

/-- A whole number is written as its sign and its digits. -/
theorem toString_int_toList (n : Int) :
    ∃ negative, (toString n).toList = PlainDecimal.signChars negative ++ Nat.toDigits 10 n.natAbs ∧
      (if negative then -(n.natAbs : Int) else n.natAbs) = n := by
  cases n with
  | ofNat m =>
      refine ⟨false, ?_, rfl⟩
      change m.repr.toList = _
      rw [Nat.repr_eq_ofList_toDigits, String.toList_ofList]
      rfl
  | negSucc m =>
      refine ⟨true, ?_, rfl⟩
      change ("-" ++ (m + 1).repr).toList = _
      rw [String.toList_append, Nat.repr_eq_ofList_toDigits]
      exact congrArg ('-' :: ·) String.toList_ofList

namespace Lexeme

/-- A number is told by its sign or else by its first digit. -/
theorem next_signed (negative : Bool) {front : List Char} (hdigits : ∀ c ∈ front, c.isDigit = true)
    (hfront : front ≠ []) (body : List Char) :
    ∃ c rest, PlainDecimal.signChars negative ++ front ++ body = c :: rest ∧ ∀ after,
      next c (rest ++ after) =
        number negative (PlainDecimal.signChars negative) (front ++ body ++ after) := by
  obtain ⟨c, rest, rfl⟩ := List.exists_cons_of_ne_nil hfront
  have hc := hdigits c List.mem_cons_self
  cases negative with
  | false => exact ⟨c, rest ++ body, rfl, fun after => next_digit hc (rest ++ body ++ after)⟩
  | true => exact ⟨'-', c :: rest ++ body, rfl, fun after => next_minus hc (rest ++ body ++ after)⟩

end Lexeme

theorem Keyword.spelling_ne_nil (keyword : Keyword) : keyword.spelling.toList ≠ [] := by
  cases keyword <;> decide

namespace TokenKind

open PlainDecimal in
/-- What is read of a written token: the token itself, unless it is a whole number with too many
digits. -/
theorem SpelledBy.next {kind : TokenKind} {spelling : List Char} (h : kind.SpelledBy spelling) :
    ∃ c rest, spelling = c :: rest ∧ ∀ after, Apart after →
      Lexeme.next c (rest ++ after) =
        if ConversionFault.digitLimit < kind.digits then
          .error (.numeral (.tooManyDigits kind.digits))
        else .ok ⟨.token kind, spelling, after⟩ := by
  cases h with
  | name h => exact ⟨_, _, rfl, fun after _ => Lexeme.next_name h after⟩
  | string hquote hline =>
      exact ⟨_, _, rfl, fun after hafter => Lexeme.next_string hquote hline hafter⟩
  | mark mark => exact ⟨_, _, rfl, fun after _ => Lexeme.next_mark mark after⟩
  | @keyword keyword word hspells =>
      obtain ⟨letter, letters, hletters⟩ := List.exists_cons_of_ne_nil keyword.spelling_ne_nil
      have hspelled := hspells
      rw [Keyword.Spells, hletters, List.forall₂_cons_right_iff] at hspelled
      obtain ⟨c, rest, hc, -, rfl⟩ := hspelled
      obtain ⟨-, hstart, hdigit, hplain⟩ :=
        Lexeme.letter_facts keyword letter (by simp [hletters]) c (by simpa using hc)
      refine ⟨c, rest, rfl, fun after hafter => ?_⟩
      rw [Lexeme.next_letter hstart hdigit hplain, ← List.cons_append,
        Lexeme.word_keyword hspells hafter]
      rfl
  | integer n =>
      obtain ⟨negative, hchars, hn⟩ := toString_int_toList n
      have hdigits : ∀ c ∈ Nat.toDigits 10 n.natAbs, c.isDigit = true :=
        fun c hc => Nat.isDigit_of_mem_toDigits (by decide) (by decide) hc
      obtain ⟨c, rest, hsplit, hnext⟩ :=
        Lexeme.next_signed negative hdigits Nat.toDigits_ne_nil []
      rw [List.append_nil, ← hchars] at hsplit
      refine ⟨c, rest, hsplit, fun after hafter => ?_⟩
      rw [hnext after, List.append_nil, Lexeme.number_integer hdigits hafter,
        Nat.ofDigitChars_ten_toDigits, hn, hchars]
      rfl
  | real decimal =>
      have hwhole : ∀ c ∈ digitChars decimal.whole, c.isDigit = true :=
        fun c hc => PlainDecimal.isDigit_of_mem_digitChars hc
      have hplaces : ∀ c ∈ digitChars decimal.places, c.isDigit = true :=
        fun c hc => PlainDecimal.isDigit_of_mem_digitChars hc
      obtain ⟨c, rest, hsplit, hnext⟩ := Lexeme.next_signed decimal.negative hwhole
        (by simpa [digitChars] using decimal.whole_ne_nil) ('.' :: digitChars decimal.places)
      refine ⟨c, rest, hsplit, fun after hafter => ?_⟩
      rw [hnext after, Lexeme.number_real hwhole hplaces
        (by simpa [digitChars] using decimal.places_ne_nil) hafter, decimal.coefficient_eq]
      simp [digits, PlainDecimal.toBinary64, PlainDecimal.chars, digitChars]

end TokenKind

namespace Token

variable {line column : Nat}

theorem scanFrom_lineEnd (text : List Char) :
    scanFrom line column ('\n' :: text) = scanFrom (line + 1) 1 text := by
  rw [scanFrom]
  rfl

theorem scanFrom_blanks {c : Char} (hc : Lexeme.isLineBlank c = true) (text : List Char) :
    scanFrom line column (c :: text) =
      scanFrom line (column + (1 + (text.takeWhile Lexeme.isLineBlank).length))
        (text.dropWhile Lexeme.isLineBlank) := by
  have hline : c ≠ '\n' := by
    rintro rfl
    exact absurd hc (by decide)
  have hnext : Lexeme.next c text =
      .ok ⟨.blank, c :: text.takeWhile Lexeme.isLineBlank, text.dropWhile Lexeme.isLineBlank⟩ := by
    rw [Lexeme.next, if_neg hline, if_pos hc]
  rw [scanFrom]
  split <;> simp_all [Nat.add_comm 1]

/-- Blanks are taken one by one as they are taken in a run. -/
theorem scanFrom_blank {c : Char} (hc : Lexeme.isLineBlank c = true) (text : List Char) :
    scanFrom line column (c :: text) = scanFrom line (column + 1) text := by
  rw [scanFrom_blanks hc]
  cases text with
  | nil => rfl
  | cons d text =>
      by_cases hd : Lexeme.isLineBlank d = true
      · rw [scanFrom_blanks hd, List.takeWhile_cons_of_pos hd, List.dropWhile_cons_of_pos hd,
          List.length_cons, Nat.add_comm _ 1, Nat.add_assoc column]
      · rw [List.takeWhile_cons_of_neg hd, List.dropWhile_cons_of_neg hd]
        rfl

/-- A gap moves the place at which the scanner goes on, and that is all. -/
theorem scanFrom_gap (line column : Nat) {gap : List Char} (hgap : ∀ c ∈ gap, Separating c)
    (text : List Char) :
    ∃ line' column', scanFrom line column (gap ++ text) = scanFrom line' column' text := by
  induction gap generalizing line column with
  | nil => exact ⟨line, column, rfl⟩
  | cons c gap ih =>
      have ih (line column : Nat) := ih line column
        fun other hother => hgap other (List.mem_cons_of_mem c hother)
      rw [List.cons_append]
      rcases hgap c List.mem_cons_self with rfl | rfl | rfl
      · rw [scanFrom_blank (by decide)]
        exact ih line (column + 1)
      · rw [scanFrom_blank (by decide)]
        exact ih line (column + 1)
      · rw [scanFrom_lineEnd]
        exact ih (line + 1) 1

theorem scanFrom_spelled (line column : Nat) {kind : TokenKind} {spelling after : List Char}
    (h : kind.SpelledBy spelling) (hafter : Apart after) :
    scanFrom line column (spelling ++ after) =
      if ConversionFault.digitLimit < kind.digits then
        .error (.numeral (.tooManyDigits kind.digits))
      else
        (scanFrom line (column + spelling.length) after).map
          (⟨kind, line, column, String.ofList spelling⟩ :: ·) := by
  obtain ⟨c, rest, rfl, hnext⟩ := h.next
  have hnext := hnext after hafter
  rw [List.cons_append, scanFrom]
  by_cases hlong : ConversionFault.digitLimit < kind.digits
  · rw [if_pos hlong] at hnext ⊢
    split <;> simp_all
  · rw [if_neg hlong] at hnext ⊢
    split <;> simp_all

/-- Written tokens are read back, if no whole number among them is too long. -/
theorem scanFrom_written {kinds : List TokenKind} {text : List Char} (h : WrittenBy kinds text)
    (hshort : ∀ kind ∈ kinds, kind.digits ≤ ConversionFault.digitLimit) :
    ∃ tokens, scanFrom line column text = .ok tokens ∧
      tokens.map Token.kind = kinds ++ [.finish] := by
  induction h generalizing line column with
  | @last kind spelling h =>
      have hkind := Nat.not_lt.2 (hshort kind List.mem_cons_self)
      have hscan := scanFrom_spelled line column h apart_nil
      rw [List.append_nil, if_neg hkind, scanFrom] at hscan
      exact ⟨_, hscan, rfl⟩
  | @more kind kinds spelling gap text h hgap hrest ih =>
      rw [List.forall_mem_cons] at hshort
      obtain ⟨line', column', hscan⟩ := scanFrom_gap line
        (column + spelling.length) hgap.separating text
      obtain ⟨tokens, htokens, hkinds⟩ := @ih line' column' hshort.2
      rw [scanFrom_spelled line column h (hgap.apart text), if_neg (Nat.not_lt.2 hshort.1), hscan,
        htokens]
      exact ⟨_, rfl, by rw [List.map_cons, hkinds, List.cons_append]⟩

/-- Written tokens are refused at the first whole number that is too long. -/
theorem scanFrom_overlong {kinds : List TokenKind} {text : List Char} (h : WrittenBy kinds text)
    {kind : TokenKind}
    (hfind : (kinds.find? fun kind => ConversionFault.digitLimit < kind.digits) = some kind) :
    scanFrom line column text = .error (.numeral (.tooManyDigits kind.digits)) := by
  induction h generalizing line column with
  | @last first spelling h =>
      obtain ⟨hlong, rfl⟩ : ConversionFault.digitLimit < first.digits ∧ first = kind := by
        simpa using hfind
      have hscan := scanFrom_spelled line column h apart_nil
      rwa [List.append_nil, if_pos hlong] at hscan
  | @more first kinds spelling gap text h hgap hrest ih =>
      rw [scanFrom_spelled line column h (hgap.apart text)]
      by_cases hlong : ConversionFault.digitLimit < first.digits
      · obtain rfl : first = kind := by simpa [hlong] using hfind
        rw [if_pos hlong]
      · obtain ⟨line', column', hscan⟩ := scanFrom_gap line
          (column + spelling.length) hgap.separating text
        rw [if_neg hlong, hscan, ih (by simpa [hlong] using hfind)]
        rfl

end Token

end StarCube
