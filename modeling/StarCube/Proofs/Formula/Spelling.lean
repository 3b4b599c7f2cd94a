import Mathlib.Data.List.Chain
import StarCube.Proofs.Formula.Grammar
import StarCube.Proofs.Query.Reading
import StarCube.Proofs.Query.Spelling
import StarCube.Proofs.Text.Blank
import StarCube.Proofs.Text.Bracketed

/-!
The symbols of formulas as they are written, and the scanner that reads them back. White space may
stand before and after each symbol and around the point of a measure reference, and none has to: no
symbol runs into the next unless both are numbers.
-/

namespace StarCube

open Text

/-- A number as it is written: digits, and a point before, among or behind them or none at all. -/
structure NumberLiteral where
  whole : List (Fin 10)
  /-- The digits behind the point; none if there is no point. -/
  places : Option (List (Fin 10))
  digits_ne_nil : whole ++ places.getD [] ≠ []

namespace NumberLiteral

open PlainDecimal

/-- The point and the digits behind it. -/
def placesChars : Option (List (Fin 10)) → List Char
  | none => []
  | some places => '.' :: digitChars places

def chars (literal : NumberLiteral) : List Char :=
  digitChars literal.whole ++ placesChars literal.places

/-- The nearest double. -/
def value (literal : NumberLiteral) : Binary64 :=
  Binary64.ofScientific false
    (Numeral.valueOf ((literal.whole ++ literal.places.getD []).map Fin.val))
    (-(literal.places.getD []).length)

end NumberLiteral

/-! ### The keyword of measures -/

/-- A word that formulas know as the keyword of measures, in any letter case. -/
def SpellsMeasures (word : List Char) : Prop :=
  List.Forall₂ (fun c small => isLetterForm small c = true) word "measures".toList

namespace SpellsMeasures

variable {word : List Char}

theorem of_reserved (h : Reserved (String.ofList word)) : SpellsMeasures word := by
  have hlower := (reserved_iff _).2 h
  rw [String.toList_ofList] at hlower
  rw [SpellsMeasures, ← hlower, List.forall₂_map_right_iff, List.forall₂_same]
  intro c _
  simp [isLetterForm]

theorem exists_letter (h : SpellsMeasures word) :
    ∀ c ∈ word, ∃ small ∈ "measures".toList, isLetterForm small c = true := by
  rw [SpellsMeasures] at h
  generalize "measures".toList = letters at h
  induction h with
  | nil => simp
  | @cons c small rest smalls hc _ ih =>
      intro d hd
      rcases List.mem_cons.1 hd with rfl | hd
      · exact ⟨small, List.mem_cons_self, hc⟩
      · obtain ⟨other, hother, hd⟩ := ih d hd
        exact ⟨other, List.mem_cons_of_mem small hother, hd⟩

theorem unclosed (h : SpellsMeasures word) : ']' ∉ word := by
  -- The letters are searched: deciding about every character there is would not end.
  have hnone : ("measures".toList.any fun small => isLetterForm small ']') = false := by decide
  intro hmem
  obtain ⟨small, hsmall, hform⟩ := h.exists_letter _ hmem
  exact List.any_eq_false.1 hnone small hsmall hform

theorem not_isBlank (h : SpellsMeasures word) : ∀ c ∈ word, isBlank c = false := by
  intro c hc
  obtain ⟨small, hsmall, hform⟩ := h.exists_letter c hc
  rw [← Bool.not_eq_true]
  intro hblank
  have hnone : ("measures".toList.any fun small => isLetterForm small c) = false :=
    holds_of_isBlank hblank (by decide +kernel)
  exact List.any_eq_false.1 hnone small hsmall hform

end SpellsMeasures

namespace FormulaSymbol

/-- How a symbol may be written. -/
inductive SpelledBy : FormulaSymbol → List Char → Prop where
  | measure {name : String} {word gap gap' : List Char} (hword : Reserved (String.ofList word))
      (hgap : Blanks gap) (hgap' : Blanks gap') (hne : name ≠ "") (hopen : ']' ∉ name.toList) :
      SpelledBy (.measure name)
        ('[' :: (word ++ ']' :: (gap ++ '.' :: (gap' ++ '[' :: (name.toList ++ [']'])))))
  | number (literal : NumberLiteral) :
      SpelledBy (.number (String.ofList literal.chars) literal.value) literal.chars
  | mark {c : Char} (h : isMark c = true) : SpelledBy (.mark c) [c]

/-- Symbols are written in order, with white space before, between and after them or without. -/
inductive WrittenBy : List FormulaSymbol → List Char → Prop where
  | none {gap : List Char} (hgap : Blanks gap) : WrittenBy [] gap
  | more {symbol : FormulaSymbol} {symbols : List FormulaSymbol} {gap spelling text : List Char}
      (hgap : Blanks gap) (h : symbol.SpelledBy spelling) (hrest : WrittenBy symbols text) :
      WrittenBy (symbol :: symbols) (gap ++ (spelling ++ text))

/-- An operator or a parenthesis. -/
def IsMark : FormulaSymbol → Prop
  | .mark _ => True
  | _ => False

/-- Of two neighbours one is a mark. -/
def Separate (left right : FormulaSymbol) : Prop :=
  left.IsMark ∨ right.IsMark

/-- What follows goes on with no number. -/
def Ends (after : List Char) : Prop :=
  ∀ c, after.head? = some c → isDigit c = false ∧ c ≠ '.'

/-! ### Measure references -/

theorem isLetterForm_bracket_iff {bracket c : Char} (h : bracket = '[' ∨ bracket = ']') :
    isLetterForm bracket c = true ↔ c = bracket := by
  -- The small letters begin at 97, so no capital comes to be a bracket.
  have hcode : bracket.val.toNat = 91 ∨ bracket.val.toNat = 93 := by
    rcases h with rfl | rfl
    · exact .inl rfl
    · exact .inr rfl
  have hlower : c.toLower = bracket ↔ c = bracket := by
    have hcapital : 'A'.val.toNat = 65 ∧ 'Z'.val.toNat = 90 := ⟨rfl, rfl⟩
    have hdown : ('a'.val - 'A'.val).toNat = 32 := rfl
    delta Char.toLower
    split
    · rename_i hc
      simp only [ge_iff_le, UInt32.le_iff_toNat_le] at hc
      simp only [Char.ext_iff, ← UInt32.toNat_inj, UInt32.toNat_add]
      omega
    · rfl
  rcases h with rfl | rfl <;> simpa [isLetterForm] using hlower

/-- The keyword of a measure reference is the word with its brackets. -/
theorem afterKeyword_measures_iff {text after : List Char} :
    afterKeyword "[measures]".toList text = some after ↔
      ∃ word, text = '[' :: (word ++ ']' :: after) ∧ SpellsMeasures word := by
  have hkeyword : "[measures]".toList = '[' :: ("measures".toList ++ [']']) := by decide
  rw [afterKeyword_eq_some_iff, hkeyword]
  constructor
  · rintro ⟨front, rfl, hfront⟩
    obtain ⟨c, rest, hc, hrest, rfl⟩ := List.forall₂_cons_right_iff.1 hfront
    have hword := List.forall₂_take_append _ _ _ hrest
    obtain ⟨d, last, hd, hlast, hdrop⟩ :=
      List.forall₂_cons_right_iff.1 (List.forall₂_drop_append _ _ _ hrest)
    obtain rfl := (isLetterForm_bracket_iff (.inl rfl)).1 hc
    obtain rfl := (isLetterForm_bracket_iff (.inr rfl)).1 hd
    cases hlast
    have hsplit := List.take_append_drop "measures".toList.length rest
    rw [hdrop] at hsplit
    generalize rest.take "measures".toList.length = word at hword hsplit
    subst hsplit
    exact ⟨word, by simp, hword⟩
  · rintro ⟨word, rfl, hword⟩
    refine ⟨'[' :: (word ++ [']']), by simp, .cons ?_ (List.rel_append hword (.cons ?_ .nil))⟩
    · exact (isLetterForm_bracket_iff (.inl rfl)).2 rfl
    · exact (isLetterForm_bracket_iff (.inr rfl)).2 rfl

/-- A measure reference is at the front of a text that is put together as one. -/
theorem measure?_eq_some_iff {text rest : List Char} {symbol : FormulaSymbol} :
    measure? text = some (symbol, rest) ↔
      ∃ word gap gap' name, text =
          '[' :: (word ++ ']' :: (gap ++ '.' :: (gap' ++ '[' :: (name ++ ']' :: rest)))) ∧
        SpellsMeasures word ∧ Blanks gap ∧ Blanks gap' ∧ name ≠ [] ∧ ']' ∉ name ∧
        symbol = .measure (String.ofList name) := by
  constructor
  · intro h
    obtain ⟨afterWord, hword, h⟩ := Option.bind_eq_some_iff.1 h
    obtain ⟨afterPoint, hpoint, h⟩ := Option.bind_eq_some_iff.1 h
    obtain ⟨⟨name, after⟩, hname, heq⟩ := Option.map_eq_some_iff.1 h
    obtain ⟨rfl, rfl⟩ := Prod.mk.inj heq
    obtain ⟨word, rfl, hforms⟩ := afterKeyword_measures_iff.1 hword
    obtain ⟨gap, hgap, rfl⟩ := exists_blanks_of_dropWhile (afterCharacter_eq_some_iff.1 hpoint)
    obtain ⟨htext, hne, hopen⟩ := bracketed?_eq_some_iff.1 hname
    obtain ⟨gap', hgap', rfl⟩ := exists_blanks_of_dropWhile htext
    exact ⟨word, gap, gap', name, rfl, hforms, hgap, hgap', hne, hopen, rfl⟩
  · rintro ⟨word, gap, gap', name, rfl, hword, hgap, hgap', hne, hopen, rfl⟩
    rw [measure?, afterKeyword_measures_iff.2 ⟨word, rfl, hword⟩, Option.bind_some,
      hgap.dropWhile_append (by decide), afterCharacter_eq_some_iff.2 rfl, Option.bind_some,
      hgap'.dropWhile_append (by decide), bracketed?_eq_some_iff.2 ⟨rfl, hne, hopen⟩]
    rfl

theorem measure?_eq_none_of_ne {c : Char} (h : c ≠ '[') (rest : List Char) :
    measure? (c :: rest) = none := by
  cases hmeasure : measure? (c :: rest) with
  | none => rfl
  | some found =>
      obtain ⟨_, _, _, _, htext, -⟩ := measure?_eq_some_iff.1 hmeasure
      exact absurd (List.cons.inj htext).1 h

/-! ### Numbers -/

section Number

open PlainDecimal

theorem isDigit_digitChars (digits : List (Fin 10)) : ∀ c ∈ digitChars digits, isDigit c = true :=
  fun _ hc => Lexeme.isDigit_of_isDigit (isDigit_of_mem_digitChars hc)

theorem digitsValue_digitChars (digits : List (Fin 10)) :
    digitsValue (digitChars digits) = Numeral.valueOf (digits.map Fin.val) := by
  rw [Lexeme.digitsValue_eq fun _ hc => isDigit_of_mem_digitChars hc, ofDigitChars_digitChars]
  rfl

theorem ofDigits_digitChars (written : List Char) (whole places : List (Fin 10)) :
    ofDigits written (digitChars whole) (digitChars places) =
      .number (String.ofList written) (Binary64.ofScientific false
        (Numeral.valueOf ((whole ++ places).map Fin.val)) (-places.length)) := by
  have happend : digitChars whole ++ digitChars places = digitChars (whole ++ places) := by
    simp [digitChars]
  rw [ofDigits, happend, digitsValue_digitChars]
  simp [digitChars]

/-- A number is read up to what goes on neither with a digit nor with a point. -/
theorem number?_chars (literal : NumberLiteral) {after : List Char}
    (hafter : Ends after) :
    number? (literal.chars ++ after) =
      some (.number (String.ofList literal.chars) literal.value, after) := by
  obtain ⟨whole, places, hne⟩ := literal
  have hdigit : ∀ c, after.head? = some c → isDigit c = false := fun c hc => (hafter c hc).1
  cases places with
  | none =>
      have hwhole : (digitChars whole).isEmpty = false := by simpa [digitChars] using hne
      obtain ⟨htake, hdrop⟩ := span_of_apart after (isDigit_digitChars whole) hdigit
      have hread : number? (digitChars whole ++ after) =
          some (ofDigits (digitChars whole) (digitChars whole) (digitChars []), after) := by
        have hempty : digitChars [] = [] := rfl
        cases after with
        | nil => simp only [number?, htake, hdrop, hwhole, hempty, Bool.false_eq_true, if_false]
        | cons c rest => simp [number?, htake, hdrop, hwhole, (hafter c rfl).2, hempty]
      simpa [NumberLiteral.chars, NumberLiteral.placesChars, NumberLiteral.value,
        ofDigits_digitChars] using hread
  | some places =>
      have hsome : ((digitChars whole).isEmpty && (digitChars places).isEmpty) = false := by
        cases whole <;> simp_all [digitChars]
      have hpoint : isDigit '.' = false := by decide
      obtain ⟨htake, hdrop⟩ := span_of_apart ('.' :: (digitChars places ++ after))
        (isDigit_digitChars whole) (by simpa using hpoint)
      obtain ⟨hfraction, hrest⟩ := span_of_apart after (isDigit_digitChars places) hdigit
      have hread : number? (digitChars whole ++ '.' :: (digitChars places ++ after)) =
          some (ofDigits (digitChars whole ++ '.' :: digitChars places) (digitChars whole)
            (digitChars places), after) := by
        simp [number?, htake, hdrop, hfraction, hrest, hsome]
      simpa [NumberLiteral.chars, NumberLiteral.placesChars, NumberLiteral.value,
        ofDigits_digitChars] using hread

theorem exists_cons_of_literal (literal : NumberLiteral) :
    ∃ c rest, literal.chars = c :: rest ∧ (isDigit c = true ∨ c = '.') := by
  obtain ⟨whole, places, hne⟩ := literal
  cases whole with
  | cons digit whole =>
      exact ⟨_, _, rfl, .inl (isDigit_digitChars (digit :: whole) _ List.mem_cons_self)⟩
  | nil =>
      cases places with
      | none => exact absurd rfl hne
      | some places => exact ⟨'.', _, rfl, .inr rfl⟩

end Number

/-! ### The scanner -/

/-- White space starts no symbol and goes on with none. -/
theorem blank_facts {c : Char} (h : isBlank c = true) : isDigit c = false ∧ c ≠ '.' :=
  holds_of_isBlank h (by decide +kernel)

theorem mark_facts {c : Char} (h : isMark c = true) :
    isDigit c = false ∧ c ≠ '.' ∧ c ≠ '[' ∧ isBlank c = false := by
  have hcases : c = '+' ∨ c = '-' ∨ c = '*' ∨ c = '/' ∨ c = '(' ∨ c = ')' := by
    simpa [isMark, or_assoc] using h
  rcases hcases with rfl | rfl | rfl | rfl | rfl | rfl <;> decide

theorem number?_eq_none {c : Char} (h : isDigit c = false ∧ c ≠ '.') (rest : List Char) :
    number? (c :: rest) = none := by
  simp [number?, h]

/-- A written symbol is read from the front, as long as what follows a number does not go on
with it. -/
theorem SpelledBy.next? {symbol : FormulaSymbol} {spelling : List Char}
    (h : symbol.SpelledBy spelling) :
    ∃ c rest, spelling = c :: rest ∧ isBlank c = false ∧
      ∀ after, symbol.IsMark ∨ Ends after →
        FormulaSymbol.next? (c :: (rest ++ after)) = some (symbol, after) := by
  cases h with
  | @measure name word gap gap' hword hgap hgap' hne hopen =>
      refine ⟨_, _, rfl, by decide, fun after _ => ?_⟩
      have hmeasure : measure? ('[' :: (word ++ ']' :: (gap ++ '.' ::
          (gap' ++ '[' :: (name.toList ++ ']' :: after))))) = some (.measure name, after) :=
        measure?_eq_some_iff.2 ⟨word, gap, gap', name.toList, rfl, .of_reserved hword,
          hgap, hgap', by simpa using hne, hopen, by simp⟩
      simp [FormulaSymbol.next?.eq_def, hmeasure]
  | number literal =>
      obtain ⟨c, rest, hchars, hc⟩ := exists_cons_of_literal literal
      have hblank : isBlank c = false := by
        rw [← Bool.not_eq_true]
        intro hblank
        have hfacts := blank_facts hblank
        simp_all
      have hopen : c ≠ '[' := by
        rintro rfl
        revert hc
        decide
      refine ⟨c, rest, hchars, hblank, fun after hafter => ?_⟩
      have hnumber := number?_chars literal (hafter.resolve_left id)
      rw [hchars, List.cons_append] at hnumber
      rw [hchars, FormulaSymbol.next?.eq_def, measure?_eq_none_of_ne hopen, hnumber]
  | @mark c h =>
      obtain ⟨hdigit, hpoint, hopen, hblank⟩ := mark_facts h
      refine ⟨c, [], rfl, hblank, fun after _ => ?_⟩
      rw [FormulaSymbol.next?.eq_def, measure?_eq_none_of_ne hopen,
        number?_eq_none ⟨hdigit, hpoint⟩]
      simp [h]

/-- Where a mark or nothing follows, no number goes on. -/
theorem WrittenBy.ends {symbols : List FormulaSymbol} {text : List Char}
    (h : WrittenBy symbols text)
    (hfirst : ∀ symbol, symbols.head? = some symbol → symbol.IsMark) : Ends text := by
  intro c hc
  cases h with
  | none hgap => exact blank_facts (hgap c (List.mem_of_head? hc))
  | @more symbol symbols gap spelling text hgap h hrest =>
      cases gap with
      | cons d gap =>
          obtain rfl : d = c := by simpa using hc
          exact blank_facts (hgap d List.mem_cons_self)
      | nil =>
          have hmark := hfirst symbol rfl
          cases h with
          | mark h =>
              obtain rfl := Option.some.inj hc
              obtain ⟨hdigit, hpoint, -⟩ := mark_facts h
              exact ⟨hdigit, hpoint⟩
          | _ => exact hmark.elim

end FormulaSymbol

open FormulaSymbol

variable (total : Nat)

theorem formulaTokens_blanks {gap : List Char} (hgap : Blanks gap) (text : List Char) :
    formulaTokens total (gap ++ text) = formulaTokens total text := by
  induction gap with
  | nil => rfl
  | cons c gap ih =>
      rw [List.cons_append, formulaTokens.eq_def]
      simp only [hgap c List.mem_cons_self, if_true]
      exact ih fun d hd => hgap d (List.mem_cons_of_mem c hd)

theorem formulaTokens_of_blanks {gap : List Char} (hgap : Blanks gap) :
    formulaTokens total gap = .ok [] := by
  have hscan := formulaTokens_blanks total hgap []
  rw [List.append_nil] at hscan
  rw [hscan, formulaTokens.eq_def]

theorem formulaTokens_symbol {c : Char} {rest after : List Char} {symbol : FormulaSymbol}
    (hblank : isBlank c = false) (h : FormulaSymbol.next? (c :: rest) = some (symbol, after)) :
    formulaTokens total (c :: rest) =
      (formulaTokens total after).map (⟨symbol, total - (c :: rest).length⟩ :: ·) := by
  rw [formulaTokens.eq_def]
  simp only [hblank, Bool.false_eq_true, if_false]
  split <;> simp_all

theorem formulaTokens_unexpected {c : Char} {rest : List Char}
    (hblank : isBlank c = false) (h : FormulaSymbol.next? (c :: rest) = none) :
    formulaTokens total (c :: rest) =
      .error (total - (c :: rest).length, .unexpectedCharacter c) := by
  rw [formulaTokens.eq_def]
  simp only [hblank, Bool.false_eq_true, if_false]
  split <;> simp_all

/-- Written symbols are read back, as long as no two numbers are neighbours. -/
theorem formulaTokens_written {symbols : List FormulaSymbol} {text : List Char}
    (h : FormulaSymbol.WrittenBy symbols text) (hseparate : symbols.IsChain Separate) :
    ∃ tokens, formulaTokens total text = .ok tokens ∧
      tokens.map FormulaToken.symbol = symbols := by
  induction h with
  | @none gap hgap => exact ⟨[], formulaTokens_of_blanks total hgap, rfl⟩
  | @more symbol symbols gap spelling text hgap h hrest ih =>
      obtain ⟨tokens, htokens, hsymbols⟩ := ih hseparate.tail
      -- Behind an operand there is a mark or the end, so a number stops where it was written to.
      have hends : symbol.IsMark ∨ Ends text := by
        by_cases hmark : symbol.IsMark
        · exact .inl hmark
        · refine .inr (hrest.ends fun next hnext => ?_)
          cases symbols with
          | nil => cases hnext
          | cons other symbols =>
              obtain rfl := Option.some.inj hnext
              exact (List.isChain_cons_cons.1 hseparate).1.resolve_left hmark
      obtain ⟨c, rest, rfl, hblank, hnext⟩ := h.next?
      rw [formulaTokens_blanks total hgap, List.cons_append,
        formulaTokens_symbol total hblank (hnext text hends), htokens]
      exact ⟨_, rfl, by rw [List.map_cons, hsymbols]⟩

end StarCube
