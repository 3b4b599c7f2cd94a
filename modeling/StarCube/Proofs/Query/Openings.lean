import StarCube.Proofs.Query.Following
import StarCube.Proofs.Query.Positions

/-!
The openings of queries: tokens with which a query text starts, wherever they stand in it. What a
text has been read to is an opening just if it is as expected. Then it can be written anew, with a
blank behind each token, and completed by the least that is still expected.
-/

namespace StarCube

/-- The characters are read as a token of the kind wherever nothing follows that is not separated
from them. -/
def TokenKind.ReadFrom (kind : TokenKind) (raw : List Char) : Prop :=
  ∃ c rest, raw = c :: rest ∧ ∀ after, Apart after →
    Lexeme.next c (rest ++ after) = .ok ⟨.token kind, raw, after⟩

theorem TokenKind.SpelledBy.readFrom {kind : TokenKind} {spelling : List Char}
    (h : kind.SpelledBy spelling) (hshort : kind.digits ≤ ConversionFault.digitLimit) :
    kind.ReadFrom spelling := by
  obtain ⟨c, rest, hraw, hnext⟩ := h.next
  exact ⟨c, rest, hraw, fun after hafter => by rw [hnext after hafter, if_neg (by omega)]⟩

theorem Apart.head?_ne {after : List Char} (h : Apart after) {c : Char} (hc : ¬ Separating c) :
    after.head? ≠ some c :=
  fun hhead => hc (h c hhead)

namespace Lexeme

variable {kind : TokenKind} {lexeme : Lexeme}

/-- A bracketed name is read again, whatever follows it. -/
theorem name_again {inner : List Char} (h : name inner = .ok lexeme) :
    ∃ within, lexeme.raw = '[' :: (within ++ [']']) ∧ ∀ after,
      name (within ++ ']' :: after) = .ok { lexeme with rest := after } := by
  simp only [name] at h
  split at h
  · split at h
    · simp at h
    · rename_i hne
      obtain rfl := Except.ok.inj h
      refine ⟨_, rfl, fun after => ?_⟩
      have hinner : ∀ c ∈ inner.takeWhile fun c => c != ']' && c != '\n',
          (c != ']' && c != '\n') = true := fun c hc => by simpa using List.mem_takeWhile_imp hc
      obtain ⟨hwithin, hclose⟩ := span_of_apart (']' :: after) hinner (by simp)
      simp only [name, hwithin, hclose, if_neg hne]
  · simp at h

/-- A quoted string is read again where its quote does not follow it. -/
theorem string_again {quote : Char} {inner : List Char} (h : string quote inner = .ok lexeme) :
    ∃ body, lexeme.raw = quote :: (body ++ [quote]) ∧ ∀ after : List Char,
      after.head? ≠ some quote →
        string quote (body ++ quote :: after) = .ok { lexeme with rest := after } := by
  simp only [string] at h
  split at h
  · rename_i body rest hclose
    obtain rfl := Except.ok.inj h
    refine ⟨body, rfl, fun after hafter => ?_⟩
    simp only [string, Text.closeQuoted_of_body hclose hafter]
  · simp at h

theorem number_again {negative : Bool} {sign : List Char} {c : Char} {rest : List Char}
    (hc : Text.isDigit c = true) (h : number negative sign (c :: rest) = .ok lexeme) :
    ∃ tail, lexeme.raw = sign ++ c :: tail ∧ ∀ after, Apart after →
      number negative sign (c :: (tail ++ after)) = .ok { lexeme with rest := after } := by
  have hwhole : ∀ d ∈ c :: rest.takeWhile Text.isDigit, Text.isDigit d = true := by
    simpa [hc] using fun d hd => List.mem_takeWhile_imp hd
  simp only [number, List.takeWhile_cons_of_pos hc, List.dropWhile_cons_of_pos hc] at h
  split at h
  · split at h
    · simp at h
    · rename_i hshort
      obtain rfl := Except.ok.inj h
      refine ⟨_, rfl, fun after hafter => ?_⟩
      obtain ⟨htake, hdrop⟩ := span_of_apart after hwhole (hafter.stops (by decide))
      rw [← List.cons_append]
      simp only [number, htake, hdrop, fraction_of_apart hafter, List.isEmpty_nil, if_true,
        if_neg hshort]
  · rename_i hplaces
    obtain rfl := Except.ok.inj h
    refine ⟨_, by simp only [List.append_assoc, List.cons_append]; rfl, fun after hafter => ?_⟩
    have hpoint : Text.isDigit '.' = false := by decide
    obtain ⟨htake, hdrop⟩ := span_of_apart
      ('.' :: (fraction (rest.dropWhile Text.isDigit) ++ after)) hwhole (by simpa using hpoint)
    have hdigits : ∀ d ∈ fraction (rest.dropWhile Text.isDigit), Text.isDigit d = true := by
      unfold fraction
      split
      · exact fun d hd => List.mem_takeWhile_imp hd
      · simp
    obtain ⟨hfraction, -⟩ := span_of_apart after hdigits (hafter.stops (by decide))
    rw [List.append_assoc, List.cons_append, ← List.cons_append]
    simp only [number, htake, hdrop]
    rw [show fraction ('.' :: (fraction (rest.dropWhile Text.isDigit) ++ after)) =
      fraction (rest.dropWhile Text.isDigit) from hfraction, if_neg hplaces]
    simp [Nat.add_comm 1]

theorem word_again {c : Char} (hc : isIdentifierRest c = true) (rest : List Char) :
    ∃ tail, (word (c :: rest)).raw = c :: tail ∧ ∀ after, Apart after →
      word (c :: (tail ++ after)) = { word (c :: rest) with rest := after } := by
  have hletters : ∀ d ∈ c :: rest.takeWhile isIdentifierRest, isIdentifierRest d = true := by
    simpa [hc] using fun d hd => List.mem_takeWhile_imp hd
  refine ⟨rest.takeWhile isIdentifierRest, by simp [word, hc], fun after hafter => ?_⟩
  obtain ⟨htake, hdrop⟩ := span_of_apart after hletters (hafter.stops (by decide))
  rw [← List.cons_append]
  simp only [word, htake, hdrop, List.takeWhile_cons_of_pos hc]

/-- A piece that starts with a character is read again where it is separated from what follows. -/
def Again (c : Char) (lexeme : Lexeme) : Prop :=
  ∃ tail, lexeme.raw = c :: tail ∧ ∀ after, Apart after →
    next c (tail ++ after) = .ok { lexeme with rest := after }

theorem Again.readFrom {c : Char} (h : Again c lexeme) (hkind : lexeme.kind = .token kind) :
    kind.ReadFrom lexeme.raw := by
  obtain ⟨tail, hraw, hnext⟩ := h
  exact ⟨c, tail, hraw, fun after hafter => by rw [hnext after hafter, hkind]⟩

theorem again_name {rest : List Char} (h : name rest = .ok lexeme) : Again '[' lexeme := by
  obtain ⟨within, hraw, hname⟩ := name_again h
  refine ⟨_, hraw, fun after _ => ?_⟩
  rw [← hname after]
  simp [next, isLineBlank]

section Next

variable {c : Char} {rest : List Char} (hline : c ≠ '\n') (hblank : ¬ isLineBlank c = true)
  (hbracket : c ≠ '[')

include hline hblank hbracket

theorem again_string (hc : (c = '\'' || c = '"') = true) (h : string c rest = .ok lexeme) :
    Again c lexeme := by
  obtain ⟨body, hraw, hstring⟩ := string_again h
  refine ⟨_, hraw, fun after hafter => ?_⟩
  rw [← hstring after ?_]
  · simp [next, hline, hblank, hbracket, hc]
  · simp only [Bool.or_eq_true, decide_eq_true_eq] at hc
    rcases hc with rfl | rfl <;> exact hafter.head?_ne (by simp [Separating])

variable (hquote : ¬ (c = '\'' || c = '"') = true)

include hquote

theorem again_number (hc : Text.isDigit c = true) (h : number false [] (c :: rest) = .ok lexeme) :
    Again c lexeme := by
  obtain ⟨tail, hraw, hnumber⟩ := number_again hc h
  refine ⟨tail, hraw, fun after hafter => ?_⟩
  rw [← hnumber after hafter]
  simp [next, hline, hblank, hbracket, hquote, hc]

variable (hdigit : ¬ Text.isDigit c = true)

include hdigit

theorem again_negative (hc : (c = '-' && rest.head?.any Text.isDigit) = true)
    (h : number true ['-'] rest = .ok lexeme) : Again c lexeme := by
  simp only [Bool.and_eq_true, decide_eq_true_eq] at hc
  obtain ⟨rfl, hhead⟩ := hc
  cases rest with
  | nil => simp at hhead
  | cons d rest =>
      have hd : Text.isDigit d = true := by simpa using hhead
      obtain ⟨tail, hraw, hnumber⟩ := number_again hd h
      refine ⟨_, hraw, fun after hafter => ?_⟩
      rw [← hnumber after hafter]
      simp [next, hline, hblank, hbracket, hdigit, hd]

theorem again_word (hc : isIdentifierStart c = true) : Again c (word (c :: rest)) := by
  obtain ⟨tail, hraw, hword⟩ := word_again (isIdentifierRest_of_start hc) rest
  refine ⟨tail, hraw, fun after hafter => ?_⟩
  have hsign : c ≠ '-' := by
    rintro rfl
    exact absurd hc (by decide)
  rw [← hword after hafter]
  simp [next, hline, hblank, hbracket, hquote, hdigit, hsign, hc]

end Next

/-- What has been read as a token is read as it again where it is separated from what follows. -/
theorem readFrom_of_next {c : Char} {rest : List Char} (h : next c rest = .ok lexeme)
    (hkind : lexeme.kind = .token kind) : kind.ReadFrom lexeme.raw := by
  simp only [next] at h
  split at h
  · obtain rfl := Except.ok.inj h
    cases hkind
  rename_i hline
  split at h
  · obtain rfl := Except.ok.inj h
    cases hkind
  rename_i hblank
  split at h
  · rename_i hc
    exact (hc ▸ again_name h).readFrom hkind
  rename_i hbracket
  split at h
  · rename_i hc
    exact (again_string hline hblank hbracket hc h).readFrom hkind
  rename_i hquote
  split at h
  · rename_i hc
    exact (again_number hline hblank hbracket hquote hc h).readFrom hkind
  rename_i hdigit
  split at h
  · rename_i hc
    exact (again_negative hline hblank hbracket hquote hdigit hc h).readFrom hkind
  split at h
  · rename_i hc
    obtain rfl := Except.ok.inj h
    exact (again_word hline hblank hbracket hquote hdigit hc).readFrom hkind
  split at h
  · rename_i mark hmark
    obtain rfl := Except.ok.inj h
    obtain rfl : mark.symbol = c := by simpa using List.find?_some hmark
    have hagain : Again mark.symbol ⟨.token (.mark mark), [mark.symbol], rest⟩ :=
      ⟨[], rfl, fun after _ => next_mark mark after⟩
    exact hagain.readFrom hkind
  · simp at h

end Lexeme

namespace Token

/-- What a token is, wherever it stands. -/
def content (token : Token) : TokenKind × String :=
  (token.kind, token.text)

/-- What a text has been read to can be read so again. -/
theorem readFrom_of_readPieces (before gap text : List Char) :
    ∀ token ∈ (readPieces before gap text).tokens, token.kind ≠ .finish →
      token.kind.ReadFrom token.text.toList := by
  fun_induction readPieces before gap text with
  | case1 before gap => simp [Scanned.tokens, Spaced.tokenAt]
  | case2 before gap c rest fault hnext => simp [Scanned.tokens]
  | case3 before gap c rest lexeme hnext hless hkind ih => exact ih
  | case4 before gap c rest lexeme hnext hless hkind ih => exact ih
  | case5 before gap c rest lexeme hnext hless kind hkind ih =>
      refine List.forall_mem_cons.2 ⟨fun _ => ?_, ih⟩
      simpa [Spaced.tokenAt] using Lexeme.readFrom_of_next hnext hkind

/-- Tokens written with a blank behind each are read as what they are. -/
theorem scanFrom_blanked (line column : Nat) {contents : List (TokenKind × String)}
    (h : ∀ content ∈ contents, content.1.ReadFrom content.2.toList) :
    ∃ tokens, scanFrom line column (contents.flatMap fun content => content.2.toList ++ [' ']) =
      .ok tokens ∧ tokens.map content = contents ++ [(.finish, "")] := by
  induction contents generalizing line column with
  | nil => exact ⟨_, by rw [List.flatMap_nil, scanFrom], rfl⟩
  | cons first others ih =>
      obtain ⟨hfirst, hothers⟩ := List.forall_mem_cons.1 h
      obtain ⟨c, rest, hraw, hnext⟩ := hfirst
      set text := others.flatMap fun content => content.2.toList ++ [' ']
      have hafter : Apart (' ' :: text) := by simp [Apart, Separating]
      obtain ⟨tokens, htokens, hcontents⟩ :=
        ih line (column + first.2.toList.length + 1) hothers
      refine ⟨⟨first.1, line, column, first.2⟩ :: tokens, ?_, ?_⟩
      · rw [List.flatMap_cons, List.append_assoc, List.singleton_append]
        nth_rewrite 1 [hraw]
        rw [List.cons_append, scanFrom_of_ok (hnext _ hafter)]
        simp only [scanFrom_blank (show Lexeme.isLineBlank ' ' = true from rfl), htokens,
          String.ofList_toList]
        rfl
      · rw [List.map_cons, hcontents]
        rfl

end Token

namespace Expectation

open TokenKind

/-- The least that what is expected behind a reference may be. -/
def leaving (purpose : Purpose) : List TokenKind :=
  if purpose = .filter then [.mark .equals, .keyword .true] else [.keyword .from, .name "x"]

/-- The least that meets all expectations. -/
def completion : Expectation → List TokenKind
  | start => [.keyword .select, .name "x", .mark .point, .name "x", .keyword .from, .name "x"]
  | item => [.name "x", .mark .point, .name "x", .keyword .from, .name "x"]
  | named purpose => [.mark .point, .name "x"] ++ leaving purpose
  | pointed purpose => .name "x" :: leaving purpose
  | second purpose => leaving purpose
  | pointedAgain purpose => .name "x" :: leaving purpose
  | third purpose => leaving purpose
  | source => [.name "x"]
  | condition => [.name "x", .mark .point, .name "x", .mark .equals, .keyword .true]
  | value => [.keyword .true]
  | list => [.mark .openParenthesis, .keyword .true, .mark .closeParenthesis]
  | listValue => [.keyword .true, .mark .closeParenthesis]
  | listed => [.mark .closeParenthesis]
  | sourced | compared | ended | finished => []

theorem run_completion {expectation : Expectation} (h : expectation ≠ finished) :
    expectation.run (expectation.completion ++ [.finish]) = some finished := by
  have hfree : ¬ Reserved "x" := by decide
  cases expectation with
  | named purpose | pointed purpose | second purpose | pointedAgain purpose | third purpose =>
      cases purpose <;> rfl
  | finished => exact absurd rfl h
  | start | item | condition =>
      simp [completion, step, leave, close, hfree, TokenKind.name?, TokenKind.isLiteral,
        TokenKind.isCube]
  | _ => rfl

/-- Marks, keywords and one name are enough to meet all expectations. -/
theorem mem_completion {expectation : Expectation} {kind : TokenKind}
    (h : kind ∈ expectation.completion) :
    (∃ mark, kind = .mark mark) ∨ (∃ keyword, kind = .keyword keyword) ∨ kind = .name "x" := by
  cases expectation with
  | named purpose | pointed purpose | second purpose | pointedAgain purpose | third purpose =>
      cases purpose <;> simp [completion, leaving] at h <;> grind
  | _ => simp [completion] at h <;> grind

theorem exists_readFrom_of_mem_completion {expectation : Expectation} {kind : TokenKind}
    (h : kind ∈ expectation.completion) : ∃ text : String, kind.ReadFrom text.toList := by
  have hspelled : kind.Spellable ∧ kind.digits = 0 := by
    rcases mem_completion h with ⟨mark, rfl⟩ | ⟨keyword, rfl⟩ | rfl
    · exact ⟨spellable_mark mark, rfl⟩
    · exact ⟨spellable_keyword keyword, rfl⟩
    · exact ⟨spellable_name (by decide), rfl⟩
  obtain ⟨⟨spelling, hspelling⟩, hdigits⟩ := hspelled
  exact ⟨String.ofList spelling, by simpa using hspelling.readFrom (by simp [hdigits])⟩

end Expectation

/-- What is read of a text. -/
def Scanned.ofText (text : String) : Scanned :=
  Token.readPieces [] [] text.toList

open Token Expectation

namespace Query

open Scanned

/-- A query text starts with the tokens, wherever they stand in it. -/
def Opens (tokens : List Token) : Prop :=
  ∃ text whole query, scan text = .ok whole ∧ parse text = .ok query ∧
    tokens.map content <+: whole.map content

variable {text : String} {front back tokens : List Token}

theorem Opens.of_append (h : Opens (front ++ back)) : Opens front := by
  obtain ⟨text, whole, query, hscan, hparse, hopens⟩ := h
  rw [List.map_append] at hopens
  exact ⟨text, whole, query, hscan, hparse, (List.prefix_append _ _).trans hopens⟩

theorem ofTokens_of_parse {text : String} {whole : List Token} {query : Query}
    (hscan : scan text = .ok whole) (h : parse text = .ok query) : ofTokens whole = .ok query := by
  rwa [parse, hscan] at h

/-- What opens a query is as expected. -/
theorem Opens.exists_run (h : Opens tokens) :
    ∃ last, start.run (tokens.map Token.kind) = some last := by
  obtain ⟨text, whole, query, hscan, hparse, rest, hrest⟩ := h
  have hrun := ofTokens_passes (closed_of_scanFrom hscan) (ofTokens_of_parse hscan hparse)
  have hkinds : whole.map Token.kind = tokens.map Token.kind ++ rest.map Prod.fst := by
    simpa [content, Function.comp_def] using (congrArg (List.map Prod.fst) hrest).symm
  rw [hkinds, run_append] at hrun
  obtain ⟨last, hlast, -⟩ := Option.bind_eq_some_iff.1 hrun
  exact ⟨last, hlast⟩

/-- What is as expected opens a query: written with a blank behind each token, it is completed by
what is expected. -/
theorem opens_of_run {last : Expectation} (hrun : start.run (tokens.map Token.kind) = some last)
    (hlast : last ≠ finished)
    (hread : ∀ token ∈ tokens, token.kind.ReadFrom token.text.toList) : Opens tokens := by
  have hspellings : ∀ kind ∈ last.completion, ∃ text : String, kind.ReadFrom text.toList :=
    fun kind hkind => exists_readFrom_of_mem_completion hkind
  choose! spelling hspelling using hspellings
  set more := last.completion.map fun kind => (kind, spelling kind) with hmore
  have hcontents : ∀ told ∈ tokens.map content ++ more, told.1.ReadFrom told.2.toList :=
    List.forall_mem_append.2 ⟨List.forall_mem_map.2 hread, List.forall_mem_map.2 hspelling⟩
  obtain ⟨whole, hscan, hwhole⟩ := scanFrom_blanked 1 1 hcontents
  have hkinds : whole.map Token.kind =
      tokens.map Token.kind ++ (last.completion ++ [.finish]) := by
    simpa [content, hmore, Function.comp_def] using congrArg (List.map Prod.fst) hwhole
  have hfinished : start.run (whole.map Token.kind) = some finished := by
    rw [hkinds, run_append, hrun, Option.bind_some, run_completion hlast]
  obtain ⟨tree, htree⟩ := run_eq_finished_iff.1 hfinished
  set text := String.ofList ((tokens.map content ++ more).flatMap fun content =>
    content.2.toList ++ [' ']) with htext
  replace hscan : scan text = .ok whole := by simpa [scan, htext] using hscan
  refine ⟨text, whole, tree.query, hscan, ?_, ?_⟩
  · rw [parse, hscan]
    exact ofTokens_complete htree
  · rw [hwhole, List.append_assoc]
    exact List.prefix_append _ _

/-- What a text is read to, short of its end, opens a query just if it is as expected. -/
theorem opens_iff_run (htokens : (ofText text).tokens = front ++ back)
    (hfront : ∀ token ∈ front, token.kind ≠ .finish) :
    Opens front ↔ ∃ last, start.run (front.map Token.kind) = some last := by
  refine ⟨Opens.exists_run, fun ⟨last, hrun⟩ => ?_⟩
  have hlast : last ≠ finished := by
    rintro rfl
    obtain ⟨tree, hkinds⟩ := run_eq_finished_iff.1 hrun
    have hmem : TokenKind.finish ∈ front.map Token.kind := by simp [hkinds]
    obtain ⟨token, htoken, hkind⟩ := List.mem_map.1 hmem
    exact hfront token htoken hkind
  refine opens_of_run hrun hlast fun token htoken => ?_
  have hmem : token ∈ (ofText text).tokens := by simp [htokens, htoken]
  exact readFrom_of_readPieces _ _ _ token hmem (hfront token htoken)

theorem opens_nil : Opens [] :=
  opens_of_run rfl (by simp) (by simp)

end Query

end StarCube
