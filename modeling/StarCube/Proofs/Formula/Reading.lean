import StarCube.Formula.Parser
import StarCube.Proofs.Formula.Grammar
import StarCube.Proofs.Outcome

/-!
Formulas are read exactly as the grammar derives them. What the reader has taken is told by its
frames: each of them stands for symbols in front, and together with the value at hand they make up
all that has been taken. The other way round, the reader takes a tree from the front and is left
with its formula.
-/

namespace StarCube

namespace FormulaFrame

/-- No factor is waited for: a product may begin. -/
def ProductMayBegin : List FormulaFrame → Prop
  | [] => True
  | .sum .. :: _ => True
  | .parenthesis :: _ => True
  | _ => False

/-- Neither a factor nor a product is waited for: a sum may begin. -/
def SumMayBegin : List FormulaFrame → Prop
  | [] => True
  | .parenthesis :: _ => True
  | _ => False

theorem SumMayBegin.productMayBegin {frames : List FormulaFrame} (h : SumMayBegin frames) :
    ProductMayBegin frames := by
  rcases frames with _ | ⟨_ | _ | _ | _, frames⟩ <;> first | exact h | trivial

theorem finishFactor_of_productMayBegin {frames : List FormulaFrame} (h : ProductMayBegin frames)
    (value : Formula) : finishFactor value frames = (value, frames) := by
  rcases frames with _ | ⟨_ | _ | _ | _, frames⟩ <;> first | exact h.elim | rfl

theorem finishTerm_of_sumMayBegin {frames : List FormulaFrame} (h : SumMayBegin frames)
    (value : Formula) : finishTerm value frames = (value, frames) := by
  rcases frames with _ | ⟨_ | _ | _ | _, frames⟩ <;> first | exact h.elim | rfl

/-- Frames stand for the symbols from which they came. -/
inductive Stand : List FormulaFrame → List FormulaSymbol → Prop where
  | none : Stand [] []
  | sign {frames : List FormulaFrame} {symbols : List FormulaSymbol} (mark : Sign)
      (h : Stand frames symbols) : Stand (.sign mark :: frames) (symbols ++ [.mark mark.symbol])
  | product {frames : List FormulaFrame} {symbols : List FormulaSymbol}
      (front : FormulaTree .product) {operation : Operation} (chains : operation.phrase = .product)
      (begins : ProductMayBegin frames) (h : Stand frames symbols) :
      Stand (.product front.formula operation :: frames)
        (symbols ++ front.symbols ++ [.mark operation.symbol])
  | sum {frames : List FormulaFrame} {symbols : List FormulaSymbol} (front : FormulaTree .sum)
      {operation : Operation} (chains : operation.phrase = .sum) (begins : SumMayBegin frames)
      (h : Stand frames symbols) :
      Stand (.sum front.formula operation :: frames)
        (symbols ++ front.symbols ++ [.mark operation.symbol])
  | parenthesis {frames : List FormulaFrame} {symbols : List FormulaSymbol}
      (h : Stand frames symbols) : Stand (.parenthesis :: frames) (symbols ++ [.mark '('])

/-- A value and frames make up symbols: the frames stand for the front of them, and the value comes
from a product behind it. -/
def MakeUp (value : Formula) (frames : List FormulaFrame) (symbols : List FormulaSymbol) : Prop :=
  ∃ (front : List FormulaSymbol) (tree : FormulaTree .product), Stand frames front ∧
    ProductMayBegin frames ∧ tree.formula = value ∧ front ++ tree.symbols = symbols

/-- The same with a sum behind the front. -/
def MakeUpSum (value : Formula) (frames : List FormulaFrame) (symbols : List FormulaSymbol) :
    Prop :=
  ∃ (front : List FormulaSymbol) (tree : FormulaTree .sum), Stand frames front ∧
    SumMayBegin frames ∧ tree.formula = value ∧ front ++ tree.symbols = symbols

/-- A factor behind what frames stand for is finished with them. -/
theorem Stand.makeUp {frames : List FormulaFrame} {front : List FormulaSymbol}
    (h : Stand frames front) (tree : FormulaTree .factor) :
    MakeUp (finishFactor tree.formula frames).1 (finishFactor tree.formula frames).2
      (front ++ tree.symbols) := by
  induction h generalizing tree with
  | none => exact ⟨_, .factor tree, .none, trivial, rfl, rfl⟩
  | sign mark h ih =>
      simpa [FormulaTree.symbols, FormulaTree.formula, finishFactor] using ih (.signed mark tree)
  | product front chains begins h ih =>
      exact ⟨_, .product front _ chains tree, h, begins, rfl, by simp [FormulaTree.symbols]⟩
  | sum front chains begins h ih =>
      exact ⟨_, .factor tree, .sum front chains begins h, trivial, rfl, rfl⟩
  | parenthesis h ih => exact ⟨_, .factor tree, .parenthesis h, trivial, rfl, rfl⟩

/-- A product behind what frames stand for is finished with them. -/
theorem MakeUp.makeUpSum {value : Formula} {frames : List FormulaFrame}
    {symbols : List FormulaSymbol} (h : MakeUp value frames symbols) :
    MakeUpSum (finishTerm value frames).1 (finishTerm value frames).2 symbols := by
  obtain ⟨front, tree, hstand, hbegins, rfl, rfl⟩ := h
  cases hstand with
  | none => exact ⟨_, .term tree, .none, trivial, rfl, rfl⟩
  | sign mark h => exact hbegins.elim
  | product => exact hbegins.elim
  | sum front chains begins h =>
      exact ⟨_, .sum front _ chains tree, h, begins, rfl, by simp [FormulaTree.symbols]⟩
  | parenthesis h => exact ⟨_, .term tree, .parenthesis h, trivial, rfl, rfl⟩

section Operations

variable {value : Formula} {frames : List FormulaFrame} {symbols : List FormulaSymbol}
  {operation : Operation}

/-- An operation that chains factors goes behind what makes up a product. -/
theorem MakeUp.stand (h : MakeUp value frames symbols) (chains : operation.phrase = .product) :
    Stand (.product value operation :: frames) (symbols ++ [.mark operation.symbol]) := by
  obtain ⟨front, tree, hstand, hbegins, rfl, rfl⟩ := h
  exact .product tree chains hbegins hstand

/-- An operation that chains products goes behind what makes up a sum. -/
theorem MakeUpSum.stand (h : MakeUpSum value frames symbols) (chains : operation.phrase = .sum) :
    Stand (.sum value operation :: frames) (symbols ++ [.mark operation.symbol]) := by
  obtain ⟨front, tree, hstand, hbegins, rfl, rfl⟩ := h
  exact .sum tree chains hbegins hstand

end Operations

end FormulaFrame

open FormulaFrame

/-- What the reader holds makes up the symbols that it has taken. -/
def FormulaPhase.Holds : FormulaPhase → List FormulaFrame → List FormulaSymbol → Prop
  | .operand, frames, taken => Stand frames taken
  | .operator value, frames, taken => MakeUp value frames taken

variable {finish : Nat}

/-- What is read from the rest is derived from all that is taken with the rest. -/
theorem exists_tree_of_readFormula {phase : FormulaPhase} {frames : List FormulaFrame}
    {taken : List FormulaSymbol} {tokens : List FormulaToken} {formula : Formula}
    (hholds : phase.Holds frames taken)
    (h : readFormula finish phase frames tokens = .ok formula) :
    ∃ tree : FormulaTree .sum, tree.symbols = taken ++ tokens.map FormulaToken.symbol ∧
      tree.formula = formula := by
  -- Each step takes one symbol and holds what makes up one symbol more; an end leaves a sum only.
  fun_induction readFormula finish phase frames tokens generalizing taken with
  | case2 frames token rest name hsymbol value frames' hfinish ih =>
      have hmade := hholds.makeUp (.measure name)
      rw [FormulaTree.formula, hfinish] at hmade
      simpa [hsymbol, FormulaTree.symbols] using ih hmade h
  | case3 frames token rest written x hsymbol value frames' hfinish ih =>
      have hmade := hholds.makeUp (.number written x)
      rw [FormulaTree.formula, hfinish] at hmade
      simpa [hsymbol, FormulaTree.symbols] using ih hmade h
  | case4 frames token rest hsymbol ih =>
      simpa [hsymbol, Sign.symbol] using ih (.sign .plus hholds) h
  | case5 frames token rest hsymbol ih =>
      simpa [hsymbol, Sign.symbol] using ih (.sign .minus hholds) h
  | case6 frames token rest hsymbol ih => simpa [hsymbol] using ih (.parenthesis hholds) h
  | case8 value frames value' hfinish =>
      obtain ⟨front, tree, hstand, -, hformula, hsymbols⟩ := hholds.makeUpSum
      rw [hfinish] at hstand hformula
      cases hstand
      exact ⟨tree, by simpa using hsymbols, hformula.trans (Except.ok.inj h)⟩
  | case10 value frames token rest hsymbol ih =>
      simpa [hsymbol, Operation.symbol] using ih (hholds.stand rfl) h
  | case11 value frames token rest hsymbol ih =>
      simpa [hsymbol, Operation.symbol] using ih (hholds.stand rfl) h
  | case12 value frames token rest hsymbol value' frames' hfinish ih =>
      have hmade := hholds.makeUpSum
      rw [hfinish] at hmade
      simpa [hsymbol, Operation.symbol] using ih (hmade.stand rfl) h
  | case13 value frames token rest hsymbol value' frames' hfinish ih =>
      have hmade := hholds.makeUpSum
      rw [hfinish] at hmade
      simpa [hsymbol, Operation.symbol] using ih (hmade.stand rfl) h
  | case14 value frames token rest value' frames' hterm value'' frames'' hfactor _ _ _ _ hsymbol
      ih =>
      obtain ⟨front, tree, hstand, -, hformula, rfl⟩ := hholds.makeUpSum
      rw [hterm] at hstand hformula
      subst hformula
      cases hstand with
      | parenthesis hstand =>
          have hmade := hstand.makeUp (.parenthesised tree)
          rw [FormulaTree.formula, hfactor] at hmade
          simpa [hsymbol, FormulaTree.symbols] using ih hmade h
  | case1 | case7 | case9 | case15 | case16 => cases h

/-! ### Steps of the reader -/

section Steps

variable {frames : List FormulaFrame} {token : FormulaToken} {value : Formula}
  {operation : Operation} (rest : List FormulaToken)

attribute [local simp] readFormula

theorem readFormula_sign {sign : Sign} (h : token.symbol = .mark sign.symbol) :
    readFormula finish .operand frames (token :: rest) =
      readFormula finish .operand (.sign sign :: frames) rest := by
  cases sign <;> simp [h, Sign.symbol]

theorem readFormula_product (hchains : operation.phrase = .product)
    (h : token.symbol = .mark operation.symbol) :
    readFormula finish (.operator value) frames (token :: rest) =
      readFormula finish .operand (.product value operation :: frames) rest := by
  cases operation <;> simp_all [Operation.symbol, Operation.phrase]

theorem readFormula_sum (hchains : operation.phrase = .sum)
    (h : token.symbol = .mark operation.symbol) :
    readFormula finish (.operator value) frames (token :: rest) =
      readFormula finish .operand
        (.sum (finishTerm value frames).1 operation :: (finishTerm value frames).2) rest := by
  cases operation <;> simp_all [Operation.symbol, Operation.phrase]

theorem readFormula_close {inner : Formula} {frames' : List FormulaFrame}
    (hterm : finishTerm value frames = (inner, .parenthesis :: frames'))
    (h : token.symbol = .mark ')') :
    readFormula finish (.operator value) frames (token :: rest) =
      readFormula finish (.operator (finishFactor inner frames').1) (finishFactor inner frames').2
        rest := by
  simp [h, hterm]

end Steps

/-- The reader takes the symbols of a tree from the front, and then holds what the tree stands for:
a factor is finished with the frames before it, and a sum up to its last product. -/
def Takes (finish : Nat) : {phrase : Phrase} → FormulaTree phrase → Prop
  | .factor, tree => ∀ frames front rest, front.map FormulaToken.symbol = tree.symbols →
      readFormula finish .operand frames (front ++ rest) =
        readFormula finish (.operator (finishFactor tree.formula frames).1)
          (finishFactor tree.formula frames).2 rest
  | .product, tree => ∀ frames front rest, ProductMayBegin frames →
      front.map FormulaToken.symbol = tree.symbols →
      readFormula finish .operand frames (front ++ rest) =
        readFormula finish (.operator tree.formula) frames rest
  | .sum, tree => ∀ frames front rest, SumMayBegin frames →
      front.map FormulaToken.symbol = tree.symbols →
      ∃ value frames', finishTerm value frames' = (tree.formula, frames) ∧
        readFormula finish .operand frames (front ++ rest) =
          readFormula finish (.operator value) frames' rest

/-- A sum in parentheses is taken behind their opening, and finished at their closing. -/
theorem Takes.parenthesised {inner : FormulaTree .sum} (h : Takes finish inner) :
    Takes finish (.parenthesised inner) := by
  intro frames tokens rest htokens
  obtain ⟨opening, tokens, rfl, hopening, htokens⟩ := List.map_eq_cons_iff.1 htokens
  obtain ⟨front, last, rfl, hfront, hlast⟩ := List.map_eq_append_iff.1 htokens
  obtain ⟨closing, rfl, hclosing⟩ := List.map_eq_singleton_iff.1 hlast
  obtain ⟨value, frames', hterm, hread⟩ :=
    h (.parenthesis :: frames) front (closing :: rest) trivial hfront
  have hopened : readFormula finish .operand frames (opening :: (front ++ (closing :: rest))) =
      readFormula finish .operand (.parenthesis :: frames) (front ++ (closing :: rest)) := by
    rw [readFormula]
    simp [hopening]
  simp only [List.cons_append, List.append_assoc, List.nil_append]
  rw [hopened, hread, readFormula_close rest hterm hclosing]
  rfl

/-- A chain is taken by its front first; its last operand is then finished by the frame of the
chain. -/
theorem Takes.sum {front : FormulaTree .sum} {last : FormulaTree .product} (h : Takes finish front)
    {operation : Operation} (chains : operation.phrase = .sum) (hlast : Takes finish last) :
    Takes finish (.sum front operation chains last) := by
  intro frames tokens rest hbegins htokens
  obtain ⟨first, tokens, rfl, hfirst, htokens⟩ := List.map_eq_append_iff.1 htokens
  obtain ⟨token, tokens, rfl, hsymbol, htokens⟩ := List.map_eq_cons_iff.1 htokens
  obtain ⟨value, frames', hterm, hread⟩ :=
    h frames first (token :: tokens ++ rest) hbegins hfirst
  refine ⟨last.formula, .sum front.formula operation :: frames, rfl, ?_⟩
  rw [List.append_assoc, hread, List.cons_append, readFormula_sum _ chains hsymbol, hterm]
  exact hlast _ _ _ trivial htokens

theorem FormulaTree.takes (finish : Nat) {phrase : Phrase} (tree : FormulaTree phrase) :
    Takes finish tree := by
  induction tree with
  | measure name =>
      intro frames front rest hfront
      obtain ⟨token, rfl, hsymbol⟩ := List.map_eq_singleton_iff.1 hfront
      simp [readFormula, hsymbol, formula]
  | number written value =>
      intro frames front rest hfront
      obtain ⟨token, rfl, hsymbol⟩ := List.map_eq_singleton_iff.1 hfront
      simp [readFormula, hsymbol, formula]
  | signed sign operand ih =>
      intro frames front rest hfront
      obtain ⟨token, front, rfl, hsymbol, hfront⟩ := List.map_eq_cons_iff.1 hfront
      rw [List.cons_append, readFormula_sign _ hsymbol, ih _ _ _ hfront]
      rfl
  | parenthesised inner ih => exact ih.parenthesised
  | factor only ih =>
      intro frames front rest hbegins hfront
      rw [ih frames front rest hfront, finishFactor_of_productMayBegin hbegins]
      rfl
  | product front operation chains last ihfront ihlast =>
      intro frames tokens rest hbegins htokens
      obtain ⟨first, tokens, rfl, hfirst, htokens⟩ := List.map_eq_append_iff.1 htokens
      obtain ⟨token, tokens, rfl, hsymbol, htokens⟩ := List.map_eq_cons_iff.1 htokens
      rw [List.append_assoc, ihfront _ _ _ hbegins hfirst, List.cons_append,
        readFormula_product _ chains hsymbol, ihlast _ _ _ htokens]
      rfl
  | term only ih =>
      intro frames front rest hbegins hfront
      refine ⟨_, _, finishTerm_of_sumMayBegin hbegins only.formula, ?_⟩
      exact ih frames front rest hbegins.productMayBegin hfront
  | sum front operation chains last ihfront ihlast => exact ihfront.sum chains ihlast

/-- Symbols are read just if they are derived, and then as the formula of their derivation. -/
theorem readFormula_eq_ok_iff {tokens : List FormulaToken} {formula : Formula} :
    readFormula finish .operand [] tokens = .ok formula ↔
      ∃ tree : FormulaTree .sum, tree.symbols = tokens.map FormulaToken.symbol ∧
        tree.formula = formula := by
  constructor
  · have hstart : FormulaPhase.operand.Holds [] [] := .none
    exact exists_tree_of_readFormula hstart
  · rintro ⟨tree, hsymbols, rfl⟩
    obtain ⟨value, frames, hterm, hread⟩ :=
      tree.takes finish [] tokens [] trivial hsymbols.symm
    rw [List.append_nil] at hread
    rw [hread, readFormula, hterm]

namespace Formula

/-- A text is read as a formula just if its symbols are derived by a tree that stands for it. -/
theorem parse_eq_ok_iff_derived {text : String} {formula : Formula} :
    parse text = .ok formula ↔
      ∃ tokens, formulaTokens text.length text.toList = .ok tokens ∧
        ∃ tree : FormulaTree .sum, tree.symbols = tokens.map FormulaToken.symbol ∧
          tree.formula = formula := by
  have hparse : parse text = .ok formula ↔ (formulaTokens text.length text.toList).bind
      (readFormula text.length .operand []) = .ok formula := by
    simp only [parse]
    split <;> simp_all
  rw [hparse]
  exact Except.bind_eq_ok_iff.trans (exists_congr fun tokens =>
    and_congr_right fun _ => readFormula_eq_ok_iff)

end Formula

end StarCube
