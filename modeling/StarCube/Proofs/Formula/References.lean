import StarCube.Proofs.Cube.Consistent
import StarCube.Proofs.Formula.Reading
import StarCube.Proofs.Formula.Spelling
import StarCube.Proofs.Query.Scanning

/-!
References to measures, in queries and in formulas. Queries cut the white space within brackets off,
formulas take names with it. So the two read a reference alike just if its names fill their
brackets: otherwise a formula does not know the keyword, or has a name that no measure of a
consistent cube has.
-/

namespace StarCube

open Text

/-! ### Formulas that are one reference -/

/-- A reference of two names as it is written, with white space before, between and behind its
brackets. -/
structure BracketPair where
  before : List Char
  first : List Char
  between : List Char
  between' : List Char
  second : List Char
  behind : List Char
  blank_before : Blanks before
  blank_between : Blanks between
  blank_between' : Blanks between'
  blank_behind : Blanks behind
  first_unclosed : ']' ∉ first
  second_unclosed : ']' ∉ second
  second_ne_nil : second ≠ []

namespace BracketPair

variable (pair : BracketPair) (total : Nat)

/-- The reference without the white space before it. -/
def reference : List Char :=
  '[' :: (pair.first ++ ']' :: (pair.between ++ '.' ::
    (pair.between' ++ '[' :: (pair.second ++ ']' :: pair.behind))))

def chars : List Char :=
  pair.before ++ pair.reference

theorem formulaTokens_of_spells (h : SpellsMeasures pair.first) :
    ∃ position, formulaTokens total pair.chars =
      .ok [⟨.measure (String.ofList pair.second), position⟩] := by
  have hmeasure : FormulaSymbol.measure? pair.reference =
      some (.measure (String.ofList pair.second), pair.behind) :=
    FormulaSymbol.measure?_eq_some_iff.2 ⟨pair.first, pair.between, pair.between', pair.second, rfl,
      h, pair.blank_between, pair.blank_between', pair.second_ne_nil, pair.second_unclosed, rfl⟩
  have hnext : FormulaSymbol.next? pair.reference =
      some (.measure (String.ofList pair.second), pair.behind) := by
    simp [FormulaSymbol.next?.eq_def, hmeasure]
  rw [chars, formulaTokens_blanks total pair.blank_before, reference,
    formulaTokens_symbol total (by decide) hnext, formulaTokens_of_blanks total pair.blank_behind]
  exact ⟨_, rfl⟩

/-- A bracket that is not the one of the keyword starts no symbol. -/
theorem formulaTokens_of_not_spells (h : ¬ SpellsMeasures pair.first) :
    ∃ fault, formulaTokens total pair.chars = .error fault := by
  have hmeasure : FormulaSymbol.measure? pair.reference = none := by
    cases hfound : FormulaSymbol.measure? pair.reference with
    | none => rfl
    | some found =>
        obtain ⟨word, _, _, _, htext, hword, -⟩ := FormulaSymbol.measure?_eq_some_iff.1 hfound
        have hsame := name_inj pair.first_unclosed hword.unclosed (List.cons.inj htext).2
        exact absurd (hsame.1 ▸ hword) h
  have hnext : FormulaSymbol.next? pair.reference = none := by
    rw [FormulaSymbol.next?.eq_def, hmeasure, reference,
      FormulaSymbol.number?_eq_none (by decide)]
    rfl
  rw [chars, formulaTokens_blanks total pair.blank_before, reference,
    formulaTokens_unexpected total (by decide) hnext]
  exact ⟨_, rfl⟩

/-- Two brackets are a formula just if the first ones hold the keyword and nothing else. -/
theorem parse_eq_ok_iff_spells {text : String} (htext : text.toList = pair.chars)
    {formula : Formula} :
    Formula.parse text = .ok formula ↔
      SpellsMeasures pair.first ∧ formula = .measure (String.ofList pair.second) := by
  by_cases hspells : SpellsMeasures pair.first
  · obtain ⟨position, htokens⟩ := pair.formulaTokens_of_spells text.length hspells
    have hparse : Formula.parse text = .ok (.measure (String.ofList pair.second)) := by
      simp [Formula.parse, htext, htokens, Except.bind, readFormula, FormulaFrame.finishFactor,
        FormulaFrame.finishTerm]
    simp [hparse, hspells, eq_comm]
  · obtain ⟨fault, hfault⟩ := pair.formulaTokens_of_not_spells text.length hspells
    simp [Formula.parse, htext, hfault, hspells, Except.bind]

end BracketPair

/-! ### References that queries read -/

/-- A name fills its brackets. -/
def Token.Tight (token : Token) : Prop :=
  ∀ name, token.kind = .name name → token.text = "[" ++ name ++ "]"

theorem Token.tight_of_not_name {token : Token} (h : ∀ name, token.kind ≠ .name name) :
    token.Tight :=
  fun name hname => absurd hname (h name)

theorem Token.tight_iff {token : Token} {within : List Char}
    (hkind : token.kind = .name (String.ofList (trimmed within)))
    (htext : token.text = String.ofList ('[' :: within ++ [']'])) :
    token.Tight ↔ trimmed within = within := by
  have hbrackets : "[" ++ String.ofList (trimmed within) ++ "]" =
      String.ofList ('[' :: trimmed within ++ [']']) := by
    rw [← String.toList_inj]
    simp
  simp only [Tight, hkind, TokenKind.name.injEq, forall_eq', htext, hbrackets, String.ofList_inj]
  simp [eq_comm]

/-- A text that is read as a measure is a pair of brackets, the names without the white space in
them. -/
theorem exists_bracketPair {text name : String} {tokens rest : List Token}
    (hscan : Token.scan text = .ok tokens)
    (hread : SelectItem.read.run tokens = .ok (.measure name, rest))
    (hfinish : (Token.front rest).kind = .finish) :
    ∃ pair : BracketPair, text.toList = pair.chars ∧
      Reserved (String.ofList (trimmed pair.first)) ∧
      name = String.ofList (trimmed pair.second) ∧ '\n' ∉ pair.second ∧
      ((∀ token ∈ tokens, token.Tight) ↔
        trimmed pair.first = pair.first ∧ trimmed pair.second = pair.second) := by
  obtain ⟨tree, hitem, hsplits⟩ := SelectItem.read_reads.sound hread
  cases tree with
  | member tree free => cases hitem
  | measure word name reserved =>
      obtain rfl := SelectItem.measure.inj hitem
      obtain ⟨_, htaken, hafter⟩ := hsplits.exists_of_cons
      obtain ⟨_, htaken', hafter'⟩ := hafter.exists_of_cons
      obtain ⟨first, rfl, hfirst⟩ := htaken.exists_of_singleton
      obtain ⟨point, rfl, hpoint⟩ := htaken'.exists_of_singleton
      obtain ⟨second, rfl, hsecond⟩ := hafter'.exists_of_singleton
      obtain ⟨before, within, afterFirst, htext, hbefore, hopen, -, -, rfl, hraw, hrest⟩ :=
        (Token.laidOut_of_scanFrom hscan).exists_name hfirst
      obtain ⟨between, afterPoint, rfl, hbetween, hrest⟩ := hrest.exists_mark hpoint
      obtain ⟨between', within', behind, rfl, hbetween', hopen', hunbroken, hne, rfl, hraw',
          hrest⟩ :=
        hrest.exists_name hsecond
      obtain ⟨hbehind, last, rfl, hlast⟩ := hrest.exists_finish hfinish
      have hne' : within' ≠ [] := by
        rintro rfl
        exact hne rfl
      refine ⟨⟨before, within, between, between', within', behind, hbefore, hbetween, hbetween',
        hbehind, hopen, hopen', hne'⟩, htext, reserved, rfl, hunbroken, ?_⟩
      simp only [List.forall_mem_cons, Token.tight_iff hfirst hraw, Token.tight_iff hsecond hraw']
      have hpoint : point.Tight := Token.tight_of_not_name (by simp [hpoint])
      have hlast : last.Tight := Token.tight_of_not_name (by simp [hlast])
      simp [hpoint, hlast]

theorem SpellsMeasures.iff_trimmed {word : List Char}
    (h : Reserved (String.ofList (trimmed word))) : SpellsMeasures word ↔ trimmed word = word := by
  constructor
  · exact fun hspells => trimmed_eq_self hspells.not_isBlank
  · intro htrimmed
    rw [htrimmed] at h
    exact .of_reserved h

/-- The only white space that an identifier may have is a line end. -/
theorem Acceptable.trimmed_eq_self {text : List Char} (h : Acceptable (String.ofList text))
    (hunbroken : '\n' ∉ text) : trimmed text = text := by
  refine Text.trimmed_eq_self fun c hc => ?_
  rw [← Bool.not_eq_true]
  intro hblank
  have hnone : isIdentifierRest c = false ∧ c ≠ '.' := holds_of_isBlank hblank (by decide +kernel)
  rcases h.identifier.chars c (by simpa using hc) with hrest | rfl | rfl
  · simp [hnone] at hrest
  · exact hnone.2 rfl
  · exact hunbroken hc

namespace Cube

/-- A cube with one more calculated member. -/
def withMember (cube : Cube) (member : CalculatedMember) : Cube :=
  { cube with calculatedMembers := cube.calculatedMembers ++ [member] }

/-- The names that no further calculated member may have. -/
def memberNames (cube : Cube) : List String :=
  cube.measures.map Measure.name ++ cube.calculatedMembers.map CalculatedMember.name

theorem check_withMember_eq_ok_iff {cube : Cube} {member : CalculatedMember}
    (hcheck : cube.check = .ok ()) (hfresh : member.name ∉ cube.memberNames) :
    (cube.withMember member).check = .ok () ↔
      member.Consistent (cube.measures.map Measure.name) := by
  rw [check_eq_ok_iff] at hcheck ⊢
  constructor
  · exact fun h => h.members member (by simp [withMember])
  · intro hmember
    have hnames : (cube.memberNames ++ [member.name]).Nodup :=
      List.nodup_append.2 ⟨hcheck.nodup_members, List.nodup_singleton _, by
        simpa using fun name hname => ne_of_mem_of_not_mem hname hfresh⟩
    refine ⟨hcheck.name_ne, hcheck.nodup_dimensions, hcheck.nodup_measures, ?_, hcheck.factTable,
      hcheck.measures, hcheck.dimensions, ?_⟩
    · simpa [withMember, memberNames] using hnames
    · intro other hother
      rcases List.mem_append.1 hother with hother | hother
      · exact hcheck.members other hother
      · exact List.mem_singleton.1 hother ▸ hmember

end Cube

/-- Queries and formulas read a reference to a measure alike just if its names fill their brackets.
Just then may a calculated member of a consistent cube be that reference. -/
theorem parse_reference_iff_tight {text name : String} {tokens rest : List Token}
    (hscan : Token.scan text = .ok tokens)
    (hread : SelectItem.read.run tokens = .ok (.measure name, rest))
    (hfinish : (Token.front rest).kind = .finish) :
    (Formula.parse text = .ok (.measure name) ↔ ∀ token ∈ tokens, token.Tight) ∧
      ∀ (cube : Cube) (member : CalculatedMember), cube.check = .ok () →
        name ∈ cube.measures.map Measure.name → member.name ∉ cube.memberNames →
          member.expression = text →
            ((cube.withMember member).check = .ok () ↔ ∀ token ∈ tokens, token.Tight) := by
  obtain ⟨pair, htext, hreserved, rfl, hunbroken, htight⟩ := exists_bracketPair hscan hread hfinish
  rw [htight, ← SpellsMeasures.iff_trimmed hreserved]
  constructor
  · rw [pair.parse_eq_ok_iff_spells htext]
    simp [String.ofList_inj]
  · rintro cube member hcheck hname hfresh rfl
    rw [Cube.check_withMember_eq_ok_iff hcheck hfresh]
    have hconsistent := Cube.check_eq_ok_iff.1 hcheck
    constructor
    · -- A measure that is known has an identifier as its name, which no white space can surround.
      rintro ⟨measures, hmeasures, hknown⟩
      obtain ⟨formula, hformula, rfl⟩ := Except.map_eq_ok_iff.1 hmeasures
      obtain ⟨hspells, rfl⟩ := (pair.parse_eq_ok_iff_spells htext).1 hformula
      obtain ⟨measure, hmeasure, hsame⟩ := List.mem_map.1 (hknown _ List.mem_cons_self)
      refine ⟨hspells, Acceptable.trimmed_eq_self ?_ hunbroken⟩
      exact hsame ▸ (hconsistent.measures measure hmeasure).name
    · rintro ⟨hspells, hsecond⟩
      have hformula := (pair.parse_eq_ok_iff_spells htext).2 ⟨hspells, rfl⟩
      refine ⟨_, Except.map_eq_ok_iff.2 ⟨_, hformula, rfl⟩, fun measure hmeasure => ?_⟩
      obtain rfl := List.mem_singleton.1 hmeasure
      exact hsecond ▸ hname

/-- Visits with their guests. -/
def guestVisits : Cube :=
  ⟨"Visits", "", "visits", [], [⟨"Guests", "guests", .sum, .number, none⟩], []⟩

theorem check_guestVisits : guestVisits.check = .ok () := by decide +kernel

theorem parse_reference_guests :
    (Formula.parse "[measures] . [Guests]" = .ok (.measure "Guests")) ∧
      (guestVisits.withMember ⟨"All", "[measures] . [Guests]", .number, none⟩).check = .ok () := by
  have hscan : Token.scan "[measures] . [Guests]" =
      .ok [⟨.name "measures", 1, 1, "[measures]"⟩, ⟨.mark .point, 1, 12, "."⟩,
        ⟨.name "Guests", 1, 14, "[Guests]"⟩, ⟨.finish, 1, 22, ""⟩] := by cbv
  obtain ⟨hparse, hmember⟩ := parse_reference_iff_tight hscan (by rfl) (by rfl)
  have htight : ∀ token ∈ [Token.mk (.name "measures") 1 1 "[measures]", ⟨.mark .point, 1, 12, "."⟩,
      ⟨.name "Guests", 1, 14, "[Guests]"⟩, ⟨.finish, 1, 22, ""⟩], token.Tight := by
    simp [Token.Tight]
  exact ⟨hparse.2 htight, (hmember guestVisits ⟨"All", "[measures] . [Guests]", .number, none⟩
    check_guestVisits (by decide) (by decide) rfl).2 htight⟩

/-- A reference that queries resolve and formulas do not know. -/
theorem spaced_reference_refused :
    ∃ tokens rest, Token.scan "[ Measures ].[Guests]" = .ok tokens ∧
      SelectItem.read.run tokens = .ok (.measure "Guests", rest) ∧
      (Token.front rest).kind = .finish ∧
      (∀ formula, Formula.parse "[ Measures ].[Guests]" ≠ .ok formula) ∧
      guestVisits.check = .ok () ∧ "Guests" ∈ guestVisits.measures.map Measure.name ∧
      (guestVisits.withMember ⟨"All", "[ Measures ].[Guests]", .number, none⟩).check ≠ .ok () := by
  have hscan : Token.scan "[ Measures ].[Guests]" =
      .ok [⟨.name "Measures", 1, 1, "[ Measures ]"⟩, ⟨.mark .point, 1, 13, "."⟩,
        ⟨.name "Guests", 1, 14, "[Guests]"⟩, ⟨.finish, 1, 22, ""⟩] := by cbv
  let pair : BracketPair := ⟨[], " Measures ".toList, [], [], "Guests".toList, [], .nil, .nil, .nil,
    .nil, by decide, by decide, by decide⟩
  have hparse (formula : Formula) : Formula.parse "[ Measures ].[Guests]" ≠ .ok formula := by
    intro hparse
    have hspells := ((pair.parse_eq_ok_iff_spells (by decide)).1 hparse).1
    exact absurd hspells.length_eq (by decide)
  refine ⟨_, _, hscan, rfl, rfl, hparse, check_guestVisits, by decide, ?_⟩
  rw [ne_eq, Cube.check_withMember_eq_ok_iff check_guestVisits (by decide)]
  rintro ⟨measures, hmeasures, -⟩
  obtain ⟨formula, hformula, -⟩ := Except.map_eq_ok_iff.1 hmeasures
  exact hparse formula hformula

end StarCube
