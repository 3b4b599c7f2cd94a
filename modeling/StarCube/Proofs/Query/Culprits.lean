import StarCube.Proofs.Query.Openings

/-!
The culprit of a text that is no query: the first token with which no query starts any more, or the
place behind all tokens where none can be read. The parser refuses a text at its culprit, with
exceptions that are told in full: all tokens are read before the first is looked at, and a measure
is seen to be out of place only behind its reference.
-/

namespace StarCube

open Token Expectation

namespace Query

open Scanned

variable {text : String} {front back : List Token}

/-- What a text outside the language fails at: the first token with which no query starts any more,
or the place where reading stops, if a query might go on there. -/
inductive Culprit (text : String) : Position → Prop where
  | token {front back : List Token} {token : Token}
      (htokens : (ofText text).tokens = front ++ token :: back) (hopens : Opens front)
      (h : ¬ Opens (front ++ [token])) : Culprit text token.position
  | place {c : Char} {rest : List Char} (hrest : (ofText text).rest = c :: rest)
      (hopens : Opens (ofText text).tokens) : Culprit text (Position.after (ofText text).taken)

/-- What opens a query goes no further than to the first token with which none starts any more. -/
theorem length_le_of_opens {front' back' : List Token} {token : Token}
    (h : front ++ token :: back = front' ++ back') (hopens : Opens front')
    (hdead : ¬ Opens (front ++ [token])) : front'.length ≤ front.length := by
  by_contra hless
  rw [List.append_cons] at h
  have hprefix : front ++ [token] <+: front' :=
    List.prefix_of_prefix_length_le (List.prefix_append _ back) (h ▸ List.prefix_append _ _)
      (by rw [List.length_append, List.length_singleton]; omega)
  obtain ⟨more, rfl⟩ := hprefix
  exact hdead hopens.of_append

/-- There is but one first token with which no query starts any more. -/
theorem eq_of_first {front' back' : List Token} {token token' : Token}
    (h : front ++ token :: back = front' ++ token' :: back') (hopens : Opens front)
    (hdead : ¬ Opens (front ++ [token])) (hopens' : Opens front')
    (hdead' : ¬ Opens (front' ++ [token'])) : front = front' ∧ token = token' ∧ back = back' := by
  have hlength := Nat.le_antisymm (length_le_of_opens h.symm hopens hdead')
    (length_le_of_opens h hopens' hdead)
  obtain ⟨hfront, htail⟩ := List.append_inj h hlength
  exact ⟨hfront, List.cons.inj htail⟩

/-- A text has one culprit at most. -/
theorem Culprit.eq {position other : Position} (h : Culprit text position)
    (h' : Culprit text other) : position = other := by
  cases h with
  | token htokens hopens hdead =>
      cases h' with
      | token htokens' hopens' hdead' =>
          rw [(eq_of_first (htokens.symm.trans htokens') hopens hdead hopens' hdead').2.1]
      | place hrest hopens' =>
          rw [htokens, List.append_cons] at hopens'
          exact absurd hopens'.of_append hdead
  | place hrest hopens =>
      cases h' with
      | token htokens hopens' hdead =>
          rw [htokens, List.append_cons] at hopens
          exact absurd hopens.of_append hdead
      | place => rfl

/-- Among tokens that open no query there is a first with which none starts any more. -/
theorem exists_first {tokens : List Token} (h : ¬ Opens tokens) :
    ∃ front token back, tokens = front ++ token :: back ∧ Opens front ∧
      ¬ Opens (front ++ [token]) := by
  induction tokens using List.reverseRecOn with
  | nil => exact absurd opens_nil h
  | append_singleton tokens token ih =>
      by_cases hopens : Opens tokens
      · exact ⟨tokens, token, [], rfl, hopens, h⟩
      · obtain ⟨front, first, back, rfl, hfront⟩ := ih hopens
        exact ⟨front, first, back ++ [token], by simp, hfront⟩

/-- The text is refused with a syntax error at the place. -/
def Refused (text : String) (position : Position) : Prop :=
  ∃ reason, parse text = .error (.misread position.line position.column reason)

/-- Reading stops at a whole number with more digits than are read. -/
def Overlong (text : String) : Prop :=
  ∃ c rest fault, (ofText text).rest = c :: rest ∧ Lexeme.next c rest = .error (.numeral fault)

/-- A bracket or a quote that is not closed on its line, and what is said of it. -/
inductive Unterminated : Char → List Char → SyntaxReason → Prop where
  | name {rest : List Char} (h : ']' ∉ rest.takeWhile (· != '\n')) :
      Unterminated '[' rest .unterminatedName
  | string {quote : Char} {rest : List Char} (hquote : quote = '\'' ∨ quote = '"')
      (h : quote ∉ rest.takeWhile (· != '\n')) : Unterminated quote rest .unterminatedString

/-- The text is not refused at its culprit. -/
inductive Strays (text : String) : Prop where
  | overlong (h : Overlong text)
  /-- The tokens are read up to a place that is none before it is seen that they open no query. -/
  | overtaken {c : Char} {rest : List Char} (hrest : (ofText text).rest = c :: rest)
      (h : ¬ Opens (ofText text).tokens)
  /-- A measure of the select list goes on like a level. -/
  | measure {front back : List Token} {point : Token} {before : List TokenKind}
      {opening : TokenKind} {word name : String} (hrest : (ofText text).rest = [])
      (htokens : (ofText text).tokens = front ++ point :: back) (hopens : Opens front)
      (hopening : opening ∈ [.keyword .select, .mark .comma]) (hreserved : Reserved word)
      (hfront : front.map Token.kind =
        before ++ [opening, .name word, .mark .point, .name name])
      (hpoint : point.kind = .mark .point)
  /-- A condition on a measure has no whole reference. -/
  | condition {front more back : List Token} {token : Token} {before : List TokenKind}
      {opening : TokenKind} {word : String} (hrest : (ofText text).rest = [])
      (htokens : (ofText text).tokens = front ++ token :: more) (hopens : Opens front)
      (hopening : opening ∈ [.keyword .where, .keyword .and])
      (hfront : front.map Token.kind = before ++ [opening]) (htoken : token.kind = .name word)
      (hreserved : Reserved word) (hbroken : BrokenOff more back)

theorem parse_of_stuck {c : Char} {rest : List Char} (hrest : (ofText text).rest = c :: rest)
    {fault : LexemeFault} (hfault : Lexeme.next c rest = .error fault) :
    parse text = .error (match fault with
      | .reason reason => .misread (Position.after (ofText text).taken).line
          (Position.after (ofText text).taken).column reason
      | .numeral fault => .numeral fault) := by
  rw [parse, scan_eq, Scanned.outcome, show (readPieces [] [] text.toList).rest = _ from hrest]
  simp only [hfault]
  cases fault <;> rfl

theorem refused_iff (place : Position) {reason : SyntaxReason}
    (h : parse text = .error (.misread place.line place.column reason)) (position : Position) :
    Refused text position ↔ position = place := by
  rw [Refused, h]
  constructor
  · rintro ⟨_, heq⟩
    have heq := Except.error.inj heq
    simp only [QueryTextFault.misread.injEq] at heq
    cases position
    cases place
    simp_all
  · rintro rfl
    exact ⟨reason, rfl⟩

theorem not_refused_of_numeral {fault : ConversionFault} (h : parse text = .error (.numeral fault))
    (position : Position) : ¬ Refused text position := by
  rintro ⟨reason, heq⟩
  cases h.symm.trans heq

theorem not_overlong_of_reason {c : Char} {rest : List Char} {reason : SyntaxReason}
    (hrest : (ofText text).rest = c :: rest)
    (hreason : Lexeme.next c rest = .error (.reason reason)) : ¬ Overlong text := by
  rintro ⟨d, other, fault, hother, hlong⟩
  obtain ⟨rfl, rfl⟩ := List.cons.inj (hrest.symm.trans hother)
  cases hreason.symm.trans hlong

/-- A token stands where another does just if as many are before it. -/
theorem position_eq_iff {front more : List Token} {token other : Token} {count : Nat}
    (htokens : (ofText text).tokens = front ++ token :: more)
    (hother : (ofText text).tokens[count]? = some other) :
    token.position = other.position ↔ front.length = count := by
  have hlength : front.length < ((ofText text).tokens.map position).length := by simp [htokens]
  have htoken : (ofText text).tokens[front.length]? = some token := by simp [htokens]
  rw [← List.getElem?_inj hlength (readPieces_nodup [] [] text.toList), List.getElem?_map,
    List.getElem?_map, htoken, hother, Option.map_some, Option.map_some, Option.some.injEq]

/-- A text that has tokens is refused at the first that is not expected, unless the parser reads on
over it. -/
theorem exists_halt (hrest : (ofText text).rest = []) (h : ∀ query, parse text ≠ .ok query) :
    ∃ taken token back last, (ofText text).tokens = taken ++ token :: back ∧
      start.run (taken.map Token.kind) = some last ∧ last.step token.kind = none ∧
      (∀ token ∈ taken, token.kind ≠ .finish) ∧ (∃ position, Refused text position) ∧
      (Refused text token.position ↔ ¬ last.Overlooks (token :: back)) := by
  have hscan : scan text = .ok (ofText text).tokens := scan_eq_ok_iff.2 ⟨hrest, rfl⟩
  have hparse : parse text = ofTokens (ofText text).tokens := by rw [parse, hscan]; rfl
  obtain ⟨front, final, hclosed, hfinal, -⟩ := closed_of_scanFrom hscan
  have hmem : final ∈ (ofText text).tokens := by simp [hclosed]
  cases hread : ofTokens (ofText text).tokens with
  | ok query => exact absurd (hparse.trans hread) (h query)
  | error fault =>
      obtain ⟨taken, rest, last, count, htokens, hrun, hlast, hstep, ⟨hcount, reason, rfl⟩,
        hcounted⟩ := ofTokens_halts hread
      -- The end is neither among what is as expected nor in front of what the fault is laid on.
      cases rest with
      | nil =>
          rw [htokens, List.append_nil] at hmem
          exact absurd (List.mem_map.2 ⟨final, hmem, hfinal⟩) (finish_not_mem hrun hlast)
      | cons token back =>
          cases hdrop : (ofText text).tokens.drop count with
          | nil =>
              rw [List.take_of_length_le (List.drop_eq_nil_iff.1 hdrop)] at hcount
              exact absurd hfinal (hcount final hmem)
          | cons blamed others =>
              rw [hdrop] at hread
              have hblamed : (ofText text).tokens[count]? = some blamed := by
                rw [← List.head?_drop, hdrop, List.head?_cons]
              have hrefused := refused_iff blamed.position (hparse.trans hread)
              have hkinds : ∀ token ∈ taken, token.kind ≠ .finish := fun token htoken heq =>
                finish_not_mem hrun hlast (heq ▸ List.mem_map_of_mem htoken)
              refine ⟨taken, token, back, last, htokens, hrun, hstep, hkinds,
                ⟨_, (hrefused _).2 rfl⟩, ?_⟩
              rw [hrefused, position_eq_iff htokens hblamed, ← hcounted, eq_comm]

theorem not_opens_concat {front : List Token} {token : Token} {last : Expectation}
    (hrun : start.run (front.map Token.kind) = some last) (hstep : last.step token.kind = none) :
    ¬ Opens (front ++ [token]) := by
  intro h
  obtain ⟨next, hnext⟩ := h.exists_run
  rw [List.map_append, List.map_singleton, run_concat_eq_some_iff] at hnext
  obtain ⟨middle, hmiddle, hstep'⟩ := hnext
  obtain rfl := Option.some.inj (hrun.symm.trans hmiddle)
  rw [hstep] at hstep'
  cases hstep'

/-- A text that has tokens strays just if the parser reads on over its culprit. -/
theorem strays_iff_overlooks {front back : List Token} {token : Token} {last : Expectation}
    (hrest : (ofText text).rest = []) (htokens : (ofText text).tokens = front ++ token :: back)
    (hopens : Opens front) (hrun : start.run (front.map Token.kind) = some last)
    (hstep : last.step token.kind = none) : Strays text ↔ last.Overlooks (token :: back) := by
  have hdead := not_opens_concat hrun hstep
  have hfirst {front' back' : List Token} {token' : Token} {last' : Expectation}
      (htokens' : (ofText text).tokens = front' ++ token' :: back') (hopens' : Opens front')
      (hlast : ∀ last, start.run (front'.map Token.kind) = some last → last = last')
      (hstep' : last'.step token'.kind = none) : last = last' ∧ token = token' ∧ back = back' := by
    obtain ⟨last', hrun'⟩ := hopens'.exists_run
    obtain rfl := hlast _ hrun'
    obtain ⟨rfl, htail⟩ := eq_of_first (htokens.symm.trans htokens') hopens hdead hopens'
      (not_opens_concat hrun' hstep')
    exact ⟨Option.some.inj (hrun.symm.trans hrun'), htail⟩
  constructor
  · rintro (⟨c, rest, fault, hrest', -⟩ | ⟨hrest', -⟩ |
      ⟨-, htokens', hopens', hopening, hreserved, hfront, hpoint⟩ |
      ⟨-, htokens', hopens', hopening, hfront, htoken, hreserved, hbroken⟩)
    · simp [hrest] at hrest'
    · simp [hrest] at hrest'
    · obtain ⟨rfl, rfl, -⟩ := hfirst htokens' hopens'
        (fun last hlast =>
          (eq_second_measure_iff hlast).2 ⟨_, _, _, _, hopening, hreserved, hfront⟩)
        (by simp [step, leave, hpoint])
      exact .inl ⟨rfl, hpoint⟩
    · obtain ⟨rfl, rfl, rfl⟩ := hfirst htokens' hopens'
        (fun last hlast => (eq_condition_iff hlast).2 ⟨_, _, hopening, hfront⟩)
        (by simp [step, htoken, hreserved, TokenKind.name?])
      exact .inr ⟨rfl, _, _, _, rfl, ⟨_, htoken, hreserved⟩, hbroken⟩
  · rintro (⟨rfl, hpoint⟩ | ⟨rfl, _, more, rest, htokens', ⟨word, hword, hreserved⟩, hbroken⟩)
    · obtain ⟨before, opening, word, name, hopening, hreserved, hfront⟩ :=
        (eq_second_measure_iff hrun).1 rfl
      exact .measure hrest htokens hopens hopening hreserved hfront hpoint
    · obtain ⟨rfl, rfl⟩ := List.cons.inj htokens'
      obtain ⟨before, opening, hopening, hfront⟩ := (eq_condition_iff hrun).1 rfl
      exact .condition hrest htokens hopens hopening hfront hword hreserved hbroken

theorem exists_culprit_of_read (hrest : (ofText text).rest = [])
    (h : ∀ query, parse text ≠ .ok query) :
    ∃ position, Culprit text position ∧ (Refused text position ↔ ¬ Strays text) := by
  obtain ⟨taken, token, back, last, htokens, hrun, hstep, hkinds, -, hrefused⟩ :=
    exists_halt hrest h
  have hopens : Opens taken := (opens_iff_run htokens hkinds).2 ⟨last, hrun⟩
  refine ⟨_, .token htokens hopens (not_opens_concat hrun hstep), ?_⟩
  rw [hrefused, strays_iff_overlooks hrest htokens hopens hrun hstep]

theorem exists_culprit_of_stuck {c : Char} {rest : List Char}
    (hrest : (ofText text).rest = c :: rest) :
    ∃ position, Culprit text position ∧ (Refused text position ↔ ¬ Strays text) := by
  have hne : (ofText text).rest ≠ [] := by simp [hrest]
  obtain ⟨fault, hfault⟩ := readPieces_stuck [] [] text.toList hrest
  have hparse := parse_of_stuck hrest hfault
  by_cases hopens : Opens (ofText text).tokens
  · refine ⟨_, .place hrest hopens, ?_⟩
    cases fault with
    | reason reason =>
        rw [refused_iff _ hparse]
        refine iff_of_true rfl ?_
        rintro (hlong | ⟨-, hnot⟩ | h | h)
        · exact not_overlong_of_reason hrest hfault hlong
        · exact hnot hopens
        · exact hne h
        · exact hne h
    | numeral fault =>
        exact iff_of_false (not_refused_of_numeral hparse _)
          (not_not_intro (.overlong ⟨c, rest, fault, hrest, hfault⟩))
  · obtain ⟨front, token, back, htokens, hfront, hdead⟩ := exists_first hopens
    refine ⟨_, .token htokens hfront hdead, ?_⟩
    refine iff_of_false ?_ (not_not_intro (.overtaken hrest hopens))
    have hmem : token ∈ (ofText text).tokens := by simp [htokens]
    have hplace := (readPieces_stuck_position [] [] text.toList hne token hmem).2
    cases fault with
    | reason reason =>
        rw [refused_iff _ hparse]
        exact hplace
    | numeral fault => exact not_refused_of_numeral hparse _

theorem next_of_unterminated {c : Char} {rest : List Char} {reason : SyntaxReason}
    (h : Unterminated c rest reason) : Lexeme.next c rest = .error (.reason reason) := by
  cases h with
  | name hopen =>
      have hnext : Lexeme.next '[' rest = Lexeme.name rest := by
        simp [Lexeme.next, Lexeme.isLineBlank]
      rw [hnext, Lexeme.name]
      split
      · rename_i after hdrop
        -- A bracket behind what is neither a bracket nor a line end is on the line.
        have hsplit := List.takeWhile_append_dropWhile (p := fun d => d != ']' && d != '\n')
          (l := rest)
        have hline : ∀ d ∈ rest.takeWhile fun d => d != ']' && d != '\n', (d != '\n') = true := by
          intro d hd
          have hinner : d ≠ ']' ∧ d ≠ '\n' := by simpa using List.mem_takeWhile_imp hd
          simpa using hinner.2
        rw [hdrop] at hsplit
        rw [← hsplit, List.takeWhile_append_of_pos hline] at hopen
        simp at hopen
      · rfl
  | string hquote hopen =>
      have hnext : Lexeme.next c rest = Lexeme.string c rest := by
        rcases hquote with rfl | rfl <;> simp [Lexeme.next, Lexeme.isLineBlank]
      have hnone : Text.closeQuoted c (· == '\n') rest = none := by
        refine (Text.closeQuoted_eq_none_iff ?_).2 hopen
        rcases hquote with rfl | rfl <;> rfl
      rw [hnext, Lexeme.string, hnone]

/-- A text outside the language is refused with a syntax error, unless reading stops at a number
with too many digits. -/
theorem exists_refused_iff (h : ∀ query, parse text ≠ .ok query) :
    (∃ position, Refused text position) ↔ ¬ Overlong text := by
  cases hrest : (ofText text).rest with
  | nil =>
      obtain ⟨_, _, _, _, -, -, -, -, hrefused, -⟩ := exists_halt hrest h
      refine iff_of_true hrefused ?_
      rintro ⟨c, rest, fault, hother, -⟩
      simp [hrest] at hother
  | cons c rest =>
      obtain ⟨fault, hfault⟩ := readPieces_stuck [] [] text.toList hrest
      have hparse := parse_of_stuck hrest hfault
      cases fault with
      | reason reason =>
          exact iff_of_true ⟨_, reason, hparse⟩ (not_overlong_of_reason hrest hfault)
      | numeral fault =>
          refine iff_of_false ?_ (not_not_intro ⟨c, rest, fault, hrest, hfault⟩)
          exact fun ⟨position, hrefused⟩ => not_refused_of_numeral hparse position hrefused

/-- Every text outside the language has one culprit, and is refused at it unless it strays. -/
theorem existsUnique_culprit (h : ∀ query, parse text ≠ .ok query) :
    (∃! position, Culprit text position) ∧
      (∀ position, Culprit text position → (Refused text position ↔ ¬ Strays text)) ∧
      ((∃ position, Refused text position) ↔ ¬ Overlong text) ∧
      ∀ c rest reason, (ofText text).rest = c :: rest → Unterminated c rest reason →
        parse text = .error (.misread (Position.after (ofText text).taken).line
          (Position.after (ofText text).taken).column reason) := by
  have hculprit : ∃ position, Culprit text position ∧ (Refused text position ↔ ¬ Strays text) := by
    cases hrest : (ofText text).rest with
    | nil => exact exists_culprit_of_read hrest h
    | cons c rest => exact exists_culprit_of_stuck hrest
  obtain ⟨position, hposition, hrefused⟩ := hculprit
  refine ⟨⟨position, hposition, fun other hother => hother.eq hposition⟩, fun other hother => ?_,
    exists_refused_iff h, fun c rest reason hrest hopen => ?_⟩
  · rw [hother.eq hposition]
    exact hrefused
  · exact parse_of_stuck hrest (next_of_unterminated hopen)

/-- A select list without a cube. -/
def cubeless : String :=
  "SELECT [Measures].[POAmount]\nWHERE [A].[B] = 1"

/-- It does not stray: it is refused at its second line, where the cube should be named. -/
theorem existsUnique_culprit_cubeless :
    (∀ query, parse cubeless ≠ .ok query) ∧
      Culprit cubeless ⟨2, 1⟩ ∧ ¬ Strays cubeless ∧ Refused cubeless ⟨2, 1⟩ ∧
      (∃! position, Culprit cubeless position) ∧
      (∀ position, Culprit cubeless position → (Refused cubeless position ↔ ¬ Strays cubeless)) ∧
      ((∃ position, Refused cubeless position) ↔ ¬ Overlong cubeless) ∧
      ∀ c rest reason, (ofText cubeless).rest = c :: rest → Unterminated c rest reason →
        parse cubeless = .error (.misread (Position.after (ofText cubeless).taken).line
          (Position.after (ofText cubeless).taken).column reason) := by
  have hnot : ∀ query, parse cubeless ≠ .ok query := fun query hquery =>
    absurd (Except.isOk_iff.2 ⟨query, hquery⟩) (by decide +kernel)
  let front := (ofText cubeless).tokens.take 4
  let token : Token := ⟨.keyword .where, 2, 1, "WHERE"⟩
  have hrest : (ofText cubeless).rest = [] := by decide +kernel
  have htokens : (ofText cubeless).tokens = front ++ token :: (ofText cubeless).tokens.drop 5 := by
    decide +kernel
  -- Behind a measure of the select list another item or the cube is expected.
  have hrun : start.run (front.map Token.kind) = some (second .measure) := by decide +kernel
  have hstep : (second .measure).step token.kind = none := rfl
  have hkinds : ∀ token ∈ front, token.kind ≠ .finish := by decide +kernel
  have hopens : Opens front := (opens_iff_run htokens hkinds).2 ⟨_, hrun⟩
  have hculprit : Culprit cubeless ⟨2, 1⟩ := .token htokens hopens (not_opens_concat hrun hstep)
  have hstays : ¬ Strays cubeless := by
    rw [strays_iff_overlooks hrest htokens hopens hrun hstep]
    rintro (⟨-, hpoint⟩ | ⟨hcondition, -⟩)
    · cases hpoint
    · cases hcondition
  have hunique := existsUnique_culprit hnot
  exact ⟨hnot, hculprit, hstays, (hunique.2.1 _ hculprit).2 hstays, hunique⟩

/-- A word that starts no query, and then a character that is in no token. -/
def misplaced : String :=
  "FROM $"

/-- The text is refused at the character although no query starts with the word. -/
theorem misplaced_not_refused :
    (∀ query, parse misplaced ≠ .ok query) ∧ Culprit misplaced ⟨1, 1⟩ ∧
      ¬ Refused misplaced ⟨1, 1⟩ ∧ Refused misplaced ⟨1, 6⟩ := by
  have hrest : (ofText misplaced).rest = ['$'] := by decide +kernel
  have htokens : (ofText misplaced).tokens = [⟨.keyword .from, 1, 1, "FROM"⟩] := by decide +kernel
  have htaken : Position.after (ofText misplaced).taken = ⟨1, 6⟩ := by decide +kernel
  have hfault : Lexeme.next '$' [] = .error (.reason (.unexpectedCharacter '$')) := by rfl
  have hparse := parse_of_stuck hrest hfault
  have hrefused := refused_iff _ hparse
  rw [htaken] at hrefused
  refine ⟨fun query hquery => ?_, ?_, ?_, (hrefused _).2 rfl⟩
  · cases hparse.symm.trans hquery
  · have hrun : start.run (([] : List Token).map Token.kind) = some start := rfl
    exact .token htokens opens_nil (not_opens_concat hrun rfl)
  · rw [hrefused]
    decide

end Query

end StarCube
