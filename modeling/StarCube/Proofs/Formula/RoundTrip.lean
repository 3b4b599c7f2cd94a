import StarCube.Proofs.Formula.Reading
import StarCube.Proofs.Formula.Spelling

/-!
Formulas as they are printed, and read back. A formula may be printed with the parentheses that
precedence and the grouping from the left ask for and no others, or with spare ones around any part
of it; each printing is derived by the grammar, and its derivation stands for the formula printed.
-/

namespace StarCube

/-- A tighter phrase may stand in the place of a looser one. -/
def Phrase.Admits : Phrase → Phrase → Prop
  | .sum, _ => True
  | .product, phrase => phrase ≠ .sum
  | .factor, phrase => phrase = .factor

instance Phrase.decidableAdmits (place phrase : Phrase) : Decidable (place.Admits phrase) :=
  match place with
  | .sum => isTrue trivial
  | .product => inferInstanceAs (Decidable (phrase ≠ .sum))
  | .factor => inferInstanceAs (Decidable (phrase = .factor))

/-- The operands of a chain, after the first. -/
def Phrase.tighter : Phrase → Phrase
  | .sum => .product
  | .product => .factor
  | .factor => .factor

namespace Formula

/-- The phrase that a formula is without parentheses. -/
def phrase : Formula → Phrase
  | .measure _ => .factor
  | .number _ => .factor
  | .signed _ _ => .factor
  | .binary operation _ _ => operation.phrase

/-- How a formula may be printed in a place. Unless there may be spare ones, parentheses stand only
around what the place does not admit. -/
inductive PrintedIn (spare : Bool) : Phrase → Formula → List FormulaSymbol → Prop where
  | measure {place : Phrase} (name : String) :
      PrintedIn spare place (.measure name) [.measure name]
  | number {place : Phrase} (literal : NumberLiteral) :
      PrintedIn spare place (.number literal.value)
        [.number (String.ofList literal.chars) literal.value]
  | signed {place : Phrase} {sign : Sign} {operand : Formula} {symbols : List FormulaSymbol}
      (h : PrintedIn spare .factor operand symbols) :
      PrintedIn spare place (.signed sign operand) (.mark sign.symbol :: symbols)
  | binary {place : Phrase} {operation : Operation} {left right : Formula}
      {before behind : List FormulaSymbol} (hadmits : place.Admits operation.phrase)
      (hleft : PrintedIn spare operation.phrase left before)
      (hright : PrintedIn spare operation.phrase.tighter right behind) :
      PrintedIn spare place (.binary operation left right)
        (before ++ .mark operation.symbol :: behind)
  | parenthesised {place : Phrase} {formula : Formula} {symbols : List FormulaSymbol}
      (hneeded : spare = true ∨ ¬ place.Admits formula.phrase)
      (h : PrintedIn spare .sum formula symbols) :
      PrintedIn spare place formula (.mark '(' :: (symbols ++ [.mark ')']))

/-- A text that prints a formula, with any white space between its symbols. -/
def PrintedAs (spare : Bool) (formula : Formula) (text : String) : Prop :=
  ∃ symbols, PrintedIn spare .sum formula symbols ∧ FormulaSymbol.WrittenBy symbols text.toList

/-- Names that brackets can hold, and numbers that digits can write. -/
def Writable : Formula → Prop
  | .measure name => name ≠ "" ∧ ']' ∉ name.toList
  | .number value => ∃ literal : NumberLiteral, literal.value = value
  | .signed _ operand => operand.Writable
  | .binary _ left right => left.Writable ∧ right.Writable

end Formula

/-! ### Derivations of printed formulas -/

namespace FormulaTree

theorem exists_of_admits {place phrase : Phrase} (h : place.Admits phrase)
    (tree : FormulaTree phrase) :
    ∃ tree' : FormulaTree place, tree'.symbols = tree.symbols ∧ tree'.formula = tree.formula := by
  cases place with
  | sum =>
      cases phrase with
      | sum => exact ⟨tree, rfl, rfl⟩
      | product => exact ⟨.term tree, rfl, rfl⟩
      | factor => exact ⟨.term (.factor tree), rfl, rfl⟩
  | product =>
      cases phrase with
      | sum => exact absurd rfl h
      | product => exact ⟨tree, rfl, rfl⟩
      | factor => exact ⟨.factor tree, rfl, rfl⟩
  | factor =>
      obtain rfl : phrase = .factor := h
      exact ⟨tree, rfl, rfl⟩

theorem exists_binary (operation : Operation) (front : FormulaTree operation.phrase)
    (last : FormulaTree operation.phrase.tighter) :
    ∃ tree : FormulaTree operation.phrase,
      tree.symbols = front.symbols ++ .mark operation.symbol :: last.symbols ∧
        tree.formula = .binary operation front.formula last.formula := by
  cases operation with
  | add => exact ⟨.sum front .add rfl last, rfl, rfl⟩
  | subtract => exact ⟨.sum front .subtract rfl last, rfl, rfl⟩
  | multiply => exact ⟨.product front .multiply rfl last, rfl, rfl⟩
  | divide => exact ⟨.product front .divide rfl last, rfl, rfl⟩

/-- Two operands are never neighbours. -/
theorem isChain_symbols {phrase : Phrase} (tree : FormulaTree phrase) :
    tree.symbols.IsChain FormulaSymbol.Separate := by
  have hmark {c : Char} {symbols : List FormulaSymbol}
      (h : symbols.IsChain FormulaSymbol.Separate) :
      (FormulaSymbol.mark c :: symbols).IsChain FormulaSymbol.Separate :=
    List.isChain_cons.2 ⟨fun _ _ => .inl trivial, h⟩
  have hbetween {c : Char} {before behind : List FormulaSymbol}
      (hbefore : before.IsChain FormulaSymbol.Separate)
      (hbehind : behind.IsChain FormulaSymbol.Separate) :
      (before ++ FormulaSymbol.mark c :: behind).IsChain FormulaSymbol.Separate := by
    refine hbefore.append (hmark hbehind) fun _ _ next hnext => ?_
    obtain rfl := Option.mem_some.1 hnext
    exact .inr trivial
  induction tree with
  | measure name => exact .singleton _
  | number written value => exact .singleton _
  | signed sign operand ih => exact hmark ih
  | parenthesised inner ih => exact hmark (hbetween ih .nil)
  | factor only ih => exact ih
  | product front operation chains last ihfront ihlast => exact hbetween ihfront ihlast
  | term only ih => exact ih
  | sum front operation chains last ihfront ihlast => exact hbetween ihfront ihlast

end FormulaTree

namespace Formula

variable {spare : Bool} {place : Phrase} {formula : Formula} {symbols : List FormulaSymbol}

theorem PrintedIn.exists_tree (h : PrintedIn spare place formula symbols) :
    ∃ tree : FormulaTree place, tree.symbols = symbols ∧ tree.formula = formula := by
  have hfactor {place : Phrase} : place.Admits .factor := by
    cases place <;> simp [Phrase.Admits]
  induction h with
  | measure name => exact FormulaTree.exists_of_admits hfactor (.measure name)
  | number literal =>
      exact FormulaTree.exists_of_admits hfactor
        (.number (String.ofList literal.chars) literal.value)
  | @signed place sign operand symbols _ ih =>
      obtain ⟨tree, rfl, rfl⟩ := ih
      exact FormulaTree.exists_of_admits hfactor (.signed sign tree)
  | @binary place operation left right before behind hadmits _ _ ihleft ihright =>
      obtain ⟨front, rfl, rfl⟩ := ihleft
      obtain ⟨last, rfl, rfl⟩ := ihright
      obtain ⟨tree, hsymbols, hformula⟩ := FormulaTree.exists_binary operation front last
      rw [← hsymbols, ← hformula]
      exact FormulaTree.exists_of_admits hadmits tree
  | parenthesised _ _ ih =>
      obtain ⟨tree, rfl, rfl⟩ := ih
      exact FormulaTree.exists_of_admits hfactor (.parenthesised tree)

/-! ### Every writable formula is printed -/

/-- A formula is printed in each place, in parentheses where the place does not admit it. -/
theorem Writable.exists_printedIn (spare : Bool) (h : formula.Writable) (place : Phrase) :
    ∃ symbols, PrintedIn spare place formula symbols := by
  induction formula generalizing place with
  | measure name => exact ⟨_, .measure name⟩
  | number value =>
      obtain ⟨literal, rfl⟩ := h
      exact ⟨_, .number literal⟩
  | signed sign operand ih =>
      obtain ⟨symbols, hsymbols⟩ := ih h .factor
      exact ⟨_, .signed hsymbols⟩
  | binary operation left right ihleft ihright =>
      obtain ⟨before, hbefore⟩ := ihleft h.1 operation.phrase
      obtain ⟨behind, hbehind⟩ := ihright h.2 operation.phrase.tighter
      by_cases hadmits : place.Admits operation.phrase
      · exact ⟨_, .binary hadmits hbefore hbehind⟩
      · exact ⟨_, .parenthesised (.inr hadmits) (.binary trivial hbefore hbehind)⟩

theorem isMark_symbol (sign : Sign) : FormulaSymbol.isMark sign.symbol = true := by
  cases sign <;> rfl

theorem isMark_operation (operation : Operation) :
    FormulaSymbol.isMark operation.symbol = true := by
  cases operation <;> rfl

theorem PrintedIn.exists_spelling (h : PrintedIn spare place formula symbols)
    (hwritable : formula.Writable) : ∀ symbol ∈ symbols, ∃ spelling, symbol.SpelledBy spelling := by
  induction h with
  | measure name =>
      have hreserved : Reserved (String.ofList "Measures".toList) := (reserved_iff _).1 (by decide)
      simpa using ⟨_, .measure hreserved .nil .nil hwritable.1 hwritable.2⟩
  | number literal => simpa using ⟨_, .number literal⟩
  | @signed _ sign _ _ _ ih =>
      simpa using ⟨⟨_, .mark (isMark_symbol sign)⟩, ih hwritable⟩
  | @binary _ operation _ _ _ _ _ _ _ ihleft ihright =>
      intro symbol hsymbol
      rcases List.mem_append.1 hsymbol with hbefore | hbehind
      · exact ihleft hwritable.1 symbol hbefore
      · rcases List.mem_cons.1 hbehind with rfl | hbehind
        · exact ⟨_, .mark (isMark_operation operation)⟩
        · exact ihright hwritable.2 symbol hbehind
  | parenthesised _ _ ih =>
      intro symbol hsymbol
      simp only [List.mem_cons, List.mem_append, List.not_mem_nil, or_false] at hsymbol
      rcases hsymbol with rfl | hsymbol | rfl
      · exact ⟨_, .mark rfl⟩
      · exact ih hwritable symbol hsymbol
      · exact ⟨_, .mark rfl⟩

end Formula

theorem FormulaSymbol.exists_writing {symbols : List FormulaSymbol}
    (h : ∀ symbol ∈ symbols, ∃ spelling, symbol.SpelledBy spelling) :
    ∃ text, FormulaSymbol.WrittenBy symbols text := by
  induction symbols with
  | nil => exact ⟨[], .none .nil⟩
  | cons symbol symbols ih =>
      obtain ⟨spelling, hspelling⟩ := h symbol List.mem_cons_self
      obtain ⟨text, htext⟩ := ih fun other hother => h other (List.mem_cons_of_mem symbol hother)
      exact ⟨_, .more .nil hspelling htext⟩

namespace Formula

theorem Writable.exists_printedAs (spare : Bool) {formula : Formula} (h : formula.Writable) :
    ∃ text, formula.PrintedAs spare text := by
  obtain ⟨symbols, hsymbols⟩ := h.exists_printedIn spare .sum
  obtain ⟨text, htext⟩ := FormulaSymbol.exists_writing (hsymbols.exists_spelling h)
  exact ⟨String.ofList text, symbols, hsymbols, by rwa [String.toList_ofList]⟩

/-- A printed formula is read back. -/
theorem PrintedAs.parse {spare : Bool} {formula : Formula} {text : String}
    (h : formula.PrintedAs spare text) : parse text = .ok formula := by
  obtain ⟨symbols, hprinted, hwritten⟩ := h
  obtain ⟨tree, rfl, hformula⟩ := hprinted.exists_tree
  obtain ⟨tokens, hscan, hsymbols⟩ := formulaTokens_written text.length hwritten
    tree.isChain_symbols
  exact parse_eq_ok_iff_derived.2 ⟨tokens, hscan, tree, hsymbols.symm, hformula⟩

/-- Formulas are read by the grammar, which groups each chain from the left: a text is a formula
just if its symbols are derived, and it is the formula of the derivation. And reading undoes
printing: a formula that can be written has a printing without spare parentheses and one with them,
and each printing of it, with any white space between the symbols, is read as that formula. -/
theorem parse_inverts_printing :
    (∀ text formula, parse text = .ok formula ↔
      ∃ tokens, formulaTokens text.length text.toList = .ok tokens ∧
        ∃ tree : FormulaTree .sum, tree.symbols = tokens.map FormulaToken.symbol ∧
          tree.formula = formula) ∧
    ∀ formula, Writable formula → ∀ spare,
      (∃ text, formula.PrintedAs spare text) ∧
        ∀ text, formula.PrintedAs spare text → parse text = .ok formula :=
  ⟨fun _ _ => parse_eq_ok_iff_derived, fun _ hwritable spare =>
    ⟨hwritable.exists_printedAs spare, fun _ hprinted => hprinted.parse⟩⟩

theorem parse_inverts_printing_nested :
    let formula := signed .minus (.binary .subtract (.measure "Tax") (.binary .subtract
      (.number (NumberLiteral.value ⟨[1], some [], by simp⟩))
      (.number (NumberLiteral.value ⟨[], some [5], by simp⟩))))
    formula.Writable ∧ formula.PrintedAs false "- ([measures] .[Tax]-(1.-.5))" ∧
      parse "- ([measures] .[Tax]-(1.-.5))" = .ok formula := by
  intro formula
  have hwritable : formula.Writable := ⟨⟨by decide, by decide⟩, ⟨_, rfl⟩, ⟨_, rfl⟩⟩
  have hprinted : PrintedIn false .sum formula _ :=
    .signed (.parenthesised (.inr (by decide +revert)) (.binary trivial (.measure "Tax")
      (.parenthesised (.inr (by decide +revert)) (.binary trivial (.number _) (.number _)))))
  have hspace : Text.Blanks [' '] := by simp [Text.Blanks]; decide
  have hmeasure := @FormulaSymbol.SpelledBy.measure "Tax" "measures".toList [' '] []
    ((reserved_iff _).1 (by decide)) hspace .nil (by decide) (by decide)
  have hwritten := FormulaSymbol.WrittenBy.more .nil (.mark (c := '-') rfl) <|
    .more hspace (.mark (c := '(') rfl) <| .more .nil hmeasure <|
    .more .nil (.mark (c := '-') rfl) <| .more .nil (.mark (c := '(') rfl) <|
    .more .nil (.number ⟨[1], some [], by simp⟩) <| .more .nil (.mark (c := '-') rfl) <|
    .more .nil (.number ⟨[], some [5], by simp⟩) <| .more .nil (.mark (c := ')') rfl) <|
    .more .nil (.mark (c := ')') rfl) <| .none .nil
  have hchars : "- ([measures] .[Tax]-(1.-.5))".toList = _ := String.toList_ofList
  have htext : formula.PrintedAs false "- ([measures] .[Tax]-(1.-.5))" :=
    ⟨_, hprinted, by rw [hchars]; exact hwritten⟩
  exact ⟨hwritable, htext, (parse_inverts_printing.2 formula hwritable false).2 _ htext⟩

end Formula

end StarCube
