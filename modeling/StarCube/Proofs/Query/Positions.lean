import Mathlib.Data.List.DropRight
import StarCube.Proofs.Query.Reading
import StarCube.Proofs.Text.Quoted

/-!
Tokens and where they stand. A text is read as pieces, each a token with the blanks before it, and
the place of a token is told by what stands before it. The pieces of a text that has tokens are the
whole text: nothing is lost and no place is wrong.
-/

namespace StarCube

/-- A place in a text: a line and a column, both counted from one. -/
structure Position where
  line : Nat
  column : Nat
deriving DecidableEq, Repr

namespace Position

/-- The place behind a text: one line further for each line end, and one column for each character
since the last of them. -/
def after (before : List Char) : Position :=
  ⟨1 + before.count '\n', 1 + (before.rtakeWhile (· != '\n')).length⟩

theorem after_lineEnd (before : List Char) :
    after (before ++ ['\n']) = ⟨(after before).line + 1, 1⟩ := by
  rw [after, List.rtakeWhile_concat_neg _ _ _ (by decide)]
  simp [after, Nat.add_assoc]

theorem after_append {run : List Char} (hrun : '\n' ∉ run) (before : List Char) :
    after (before ++ run) = ⟨(after before).line, (after before).column + run.length⟩ := by
  have hkept : (before ++ run).rtakeWhile (· != '\n') = before.rtakeWhile (· != '\n') ++ run := by
    have hall : ∀ c ∈ run.reverse, (c != '\n') = true := by
      intro c hc
      rw [bne_iff_ne]
      rintro rfl
      exact hrun (List.mem_reverse.1 hc)
    rw [List.rtakeWhile, List.reverse_append, List.takeWhile_append_of_pos hall,
      List.reverse_append, List.reverse_reverse]
    rfl
  simp [after, hkept, List.count_eq_zero_of_not_mem hrun, Nat.add_assoc]

/-- No two places of a text are the same. -/
theorem after_ne_after_append (before : List Char) {run : List Char} (hrun : run ≠ []) :
    after before ≠ after (before ++ run) := by
  intro h
  by_cases hline : '\n' ∈ run
  · have hcount := congrArg Position.line h
    have hpos := List.count_pos_iff.2 hline
    simp only [after, List.count_append] at hcount
    omega
  · rw [after_append hline] at h
    have hcolumn := congrArg Position.column h
    have hpos := List.length_pos_iff.2 hrun
    simp only at hcolumn
    omega

end Position

/-- The place where a token starts. -/
def Token.position (token : Token) : Position :=
  ⟨token.line, token.column⟩

/-- A character that only separates tokens. -/
def Skipped (c : Char) : Prop :=
  c ∈ [' ', '\t', '\r', '\x0c', '\x0b', '\n']

/-- A token with the characters that are skipped before it. -/
structure Spaced where
  gap : List Char
  token : Token
deriving Repr

namespace Spaced

def chars (piece : Spaced) : List Char :=
  piece.gap ++ piece.token.text.toList

/-- The token of a kind that is written by `raw` behind `before`. -/
def tokenAt (before : List Char) (kind : TokenKind) (raw : List Char) : Token :=
  ⟨kind, (Position.after before).line, (Position.after before).column, String.ofList raw⟩

/-- Pieces are the whole of a text: what is skipped between tokens only separates them, each token
is where the text before it ends, and none goes over a line end. -/
structure Tiling (pieces : List Spaced) (text : List Char) : Prop where
  whole : pieces.flatMap chars = text
  skipped : ∀ piece ∈ pieces, ∀ c ∈ piece.gap, Skipped c
  position : ∀ front piece back, pieces = front ++ piece :: back →
    piece.token.position = Position.after (front.flatMap chars ++ piece.gap)
  unbroken : ∀ piece ∈ pieces, '\n' ∉ piece.token.text.toList

end Spaced

/-- What is read of a text: its pieces up to the first place where no token can be read, what is
skipped before that place, and what is left there. -/
structure Scanned where
  pieces : List Spaced
  gap : List Char
  rest : List Char
deriving Repr

namespace Scanned

def tokens (scanned : Scanned) : List Token :=
  scanned.pieces.map Spaced.token

/-- The part of the text that is read. -/
def taken (scanned : Scanned) : List Char :=
  scanned.pieces.flatMap Spaced.chars ++ scanned.gap

def behind (piece : Spaced) (scanned : Scanned) : Scanned :=
  { scanned with pieces := piece :: scanned.pieces }

/-- The answer for a text that stands behind `before`: its tokens if nothing is left, and otherwise
what is wrong at the place where reading stops. -/
def outcome (before : List Char) (scanned : Scanned) : Except QueryTextFault (List Token) :=
  match scanned.rest with
  | [] => .ok scanned.tokens
  | c :: rest =>
      match Lexeme.next c rest with
      | .error (.reason reason) =>
          let position := Position.after (before ++ scanned.taken)
          .error (.misread position.line position.column reason)
      | .error (.numeral fault) => .error (.numeral fault)
      | .ok _ => .ok scanned.tokens

theorem outcome_behind (before : List Char) (piece : Spaced) (scanned : Scanned) :
    (scanned.behind piece).outcome before =
      (scanned.outcome (before ++ piece.chars)).map (piece.token :: ·) := by
  simp only [outcome, behind, taken, tokens, List.flatMap_cons, List.append_assoc, List.map_cons]
  split
  · rfl
  · split <;> rfl

end Scanned

namespace Token

/-- Reads a text that stands behind `before` and the skipped `gap`. -/
def readPieces (before gap text : List Char) : Scanned :=
  match text with
  | [] => ⟨[⟨gap, Spaced.tokenAt (before ++ gap) .finish []⟩], [], []⟩
  | c :: rest =>
      match h : Lexeme.next c rest with
      | .error _ => ⟨[], gap, c :: rest⟩
      | .ok lexeme =>
          have := Lexeme.next_length h
          match lexeme.kind with
          | .lineEnd => readPieces before (gap ++ lexeme.raw) lexeme.rest
          | .blank => readPieces before (gap ++ lexeme.raw) lexeme.rest
          | .token kind =>
              .behind ⟨gap, Spaced.tokenAt (before ++ gap) kind lexeme.raw⟩
                (readPieces (before ++ gap ++ lexeme.raw) [] lexeme.rest)
termination_by text.length
decreasing_by all_goals exact this

-- What is proved of the pieces below follows this induction.
attribute [elab_as_elim] readPieces.induct_unfolding

end Token

namespace Lexeme

/-- What a piece of text is made of: a line end is one character, blanks are blank, and a token
stands on one line. -/
def Proper (lexeme : Lexeme) : Prop :=
  match lexeme.kind with
  | .lineEnd => lexeme.raw = ['\n']
  | .blank => ∀ c ∈ lexeme.raw, isLineBlank c = true
  | .token _ => '\n' ∉ lexeme.raw

theorem not_mem_takeWhile {p : Char → Bool} {c : Char} (hc : p c = false) (text : List Char) :
    c ∉ text.takeWhile p := by
  intro hmem
  rw [List.mem_takeWhile_imp hmem] at hc
  exact absurd hc (by decide)

theorem proper_of_name {inner : List Char} {lexeme : Lexeme} (h : name inner = .ok lexeme) :
    lexeme.Proper := by
  simp only [name] at h
  split at h
  · split at h
    · simp at h
    · obtain rfl := Except.ok.inj h
      simpa [Proper] using not_mem_takeWhile (by decide) inner
  · simp at h

theorem proper_of_string {quote : Char} {inner : List Char} {lexeme : Lexeme}
    (hquote : quote ≠ '\n') (h : string quote inner = .ok lexeme) : lexeme.Proper := by
  simp only [string] at h
  split at h
  · rename_i body rest hclose
    obtain rfl := Except.ok.inj h
    have hbody : '\n' ∉ body := by
      refine Text.not_mem_body hquote.symm ?_ hclose
      decide
    simpa [Proper, hquote.symm] using hbody
  · simp at h

theorem not_mem_fraction (text : List Char) : '\n' ∉ fraction text := by
  unfold fraction
  split
  · exact not_mem_takeWhile (by decide) _
  · exact List.not_mem_nil

theorem proper_of_number {negative : Bool} {sign text : List Char} {lexeme : Lexeme}
    (hsign : '\n' ∉ sign) (h : number negative sign text = .ok lexeme) : lexeme.Proper := by
  have hwhole : '\n' ∉ text.takeWhile Text.isDigit := not_mem_takeWhile (by decide) text
  simp only [number] at h
  split at h
  · split at h
    · simp at h
    · obtain rfl := Except.ok.inj h
      simp [Proper, hsign, hwhole]
  · obtain rfl := Except.ok.inj h
    simp [Proper, hsign, hwhole, not_mem_fraction]

theorem proper_of_next {c : Char} {rest : List Char} {lexeme : Lexeme}
    (h : next c rest = .ok lexeme) : lexeme.Proper := by
  simp only [next] at h
  split at h
  · rename_i hc
    obtain rfl := Except.ok.inj h
    simp [Proper, hc]
  rename_i hline
  split at h
  · rename_i hc
    obtain rfl := Except.ok.inj h
    simpa [Proper, hc] using fun d hd => List.mem_takeWhile_imp hd
  split at h
  · exact proper_of_name h
  split at h
  · exact proper_of_string hline h
  split at h
  · exact proper_of_number List.not_mem_nil h
  split at h
  · exact proper_of_number (by decide) h
  split at h
  · obtain rfl := Except.ok.inj h
    exact not_mem_takeWhile (p := isIdentifierRest) (by decide) _
  split at h
  · obtain rfl := Except.ok.inj h
    simpa [Proper] using Ne.symm hline
  · simp at h

theorem skipped_of_isLineBlank {c : Char} (h : isLineBlank c = true) : Skipped c := by
  have hcases : c = ' ' ∨ c = '\t' ∨ c = '\r' ∨ c = '\x0c' ∨ c = '\x0b' := by
    simpa [isLineBlank, or_assoc] using h
  rcases hcases with rfl | rfl | rfl | rfl | rfl <;> simp [Skipped]

end Lexeme

namespace Token

variable {before gap text : List Char}

/-- What the scanner answers where no token can be read. -/
theorem scanFrom_of_error {line column : Nat} {c : Char} {rest : List Char} {fault : LexemeFault}
    (h : Lexeme.next c rest = .error fault) :
    scanFrom line column (c :: rest) =
      match fault with
      | .reason reason => .error (.misread line column reason)
      | .numeral fault => .error (.numeral fault) := by
  rw [scanFrom]
  split <;> rename_i hfound
  · obtain rfl := Except.error.inj (h.symm.trans hfound)
    rfl
  · obtain rfl := Except.error.inj (h.symm.trans hfound)
    rfl
  · rw [h] at hfound
    cases hfound

theorem scanFrom_of_ok {line column : Nat} {c : Char} {rest : List Char} {lexeme : Lexeme}
    (h : Lexeme.next c rest = .ok lexeme) :
    scanFrom line column (c :: rest) =
      match lexeme.kind with
      | .lineEnd => scanFrom (line + 1) 1 lexeme.rest
      | .blank => scanFrom line (column + lexeme.raw.length) lexeme.rest
      | .token kind =>
          (scanFrom line (column + lexeme.raw.length) lexeme.rest).map
            (⟨kind, line, column, String.ofList lexeme.raw⟩ :: ·) := by
  rw [scanFrom]
  split <;> rename_i hfound
  · rw [h] at hfound
    cases hfound
  · rw [h] at hfound
    cases hfound
  · obtain rfl := Except.ok.inj (h.symm.trans hfound)
    rfl

/-- The scanner answers with what is read. -/
theorem scanFrom_eq (before gap text : List Char) :
    scanFrom (Position.after (before ++ gap)).line (Position.after (before ++ gap)).column text =
      (readPieces before gap text).outcome before := by
  fun_induction readPieces before gap text with
  | case1 before gap => simp [scanFrom, Scanned.outcome, Scanned.tokens, Spaced.tokenAt]
  | case2 before gap c rest fault hnext =>
      rw [scanFrom_of_error hnext]
      simp only [Scanned.outcome, hnext, Scanned.taken, List.flatMap_nil, List.nil_append]
      split <;> rfl
  | case3 before gap c rest lexeme hnext hless hkind ih =>
      have hraw : lexeme.raw = ['\n'] := by
        simpa [Lexeme.Proper, hkind] using Lexeme.proper_of_next hnext
      have hmoved : Position.after (before ++ (gap ++ lexeme.raw)) =
          ⟨(Position.after (before ++ gap)).line + 1, 1⟩ := by
        rw [hraw, ← List.append_assoc, Position.after_lineEnd]
      rw [scanFrom_of_ok hnext, hkind, ← ih, hmoved]
  | case4 before gap c rest lexeme hnext hless hkind ih =>
      have hraw : '\n' ∉ lexeme.raw := by
        have hproper := Lexeme.proper_of_next hnext
        simp only [Lexeme.Proper, hkind] at hproper
        exact fun hmem => absurd (hproper _ hmem) (by decide)
      have hmoved := Position.after_append hraw (before ++ gap)
      rw [List.append_assoc] at hmoved
      rw [scanFrom_of_ok hnext, hkind, ← ih, hmoved]
  | case5 before gap c rest lexeme hnext hless kind hkind ih =>
      have hraw : '\n' ∉ lexeme.raw := by
        simpa [Lexeme.Proper, hkind] using Lexeme.proper_of_next hnext
      have hmoved := Position.after_append hraw (before ++ gap)
      rw [List.append_nil, hmoved] at ih
      rw [scanFrom_of_ok hnext, hkind, Scanned.outcome_behind]
      simp only [ih, Spaced.chars, Spaced.tokenAt, String.toList_ofList, List.append_assoc]

/-- Nothing is lost in reading. -/
theorem readPieces_taken (before gap text : List Char) :
    (readPieces before gap text).taken ++ (readPieces before gap text).rest = gap ++ text := by
  fun_induction readPieces before gap text with
  | case1 before gap => simp [Scanned.taken, Spaced.chars, Spaced.tokenAt]
  | case2 before gap c rest fault hnext => simp [Scanned.taken]
  | case3 before gap c rest lexeme hnext hless hkind ih =>
      rw [ih, List.append_assoc, (Lexeme.next_raw hnext).2]
  | case4 before gap c rest lexeme hnext hless hkind ih =>
      rw [ih, List.append_assoc, (Lexeme.next_raw hnext).2]
  | case5 before gap c rest lexeme hnext hless kind hkind ih =>
      rw [List.nil_append] at ih
      simpa [Scanned.taken, Scanned.behind, Spaced.chars, Spaced.tokenAt,
        (Lexeme.next_raw hnext).2] using ih

/-- What is skipped only separates. -/
theorem readPieces_skipped (before gap text : List Char) (hgap : ∀ c ∈ gap, Skipped c) :
    (∀ piece ∈ (readPieces before gap text).pieces, ∀ c ∈ piece.gap, Skipped c) ∧
      ∀ c ∈ (readPieces before gap text).gap, Skipped c := by
  fun_induction readPieces before gap text with
  | case1 before gap => simpa using hgap
  | case2 before gap c rest fault hnext => simpa using hgap
  | case3 before gap c rest lexeme hnext hless hkind ih =>
      have hraw : lexeme.raw = ['\n'] := by
        simpa [Lexeme.Proper, hkind] using Lexeme.proper_of_next hnext
      exact ih (List.forall_mem_append.2 ⟨hgap, by simp [hraw, Skipped]⟩)
  | case4 before gap c rest lexeme hnext hless hkind ih =>
      have hraw := Lexeme.proper_of_next hnext
      simp only [Lexeme.Proper, hkind] at hraw
      exact ih (List.forall_mem_append.2
        ⟨hgap, fun c hc => Lexeme.skipped_of_isLineBlank (hraw c hc)⟩)
  | case5 before gap c rest lexeme hnext hless kind hkind ih =>
      obtain ⟨hpieces, hlast⟩ := ih (by simp)
      exact ⟨List.forall_mem_cons.2 ⟨hgap, hpieces⟩, hlast⟩

/-- A token stands on one line, and the end alone has no text. -/
theorem readPieces_text (before gap text : List Char) :
    ∀ piece ∈ (readPieces before gap text).pieces, '\n' ∉ piece.token.text.toList ∧
      (piece.token.text = "" ↔ piece.token.kind = .finish) := by
  fun_induction readPieces before gap text with
  | case1 before gap => simp [Spaced.tokenAt]
  | case2 before gap c rest fault hnext => simp
  | case3 before gap c rest lexeme hnext hless hkind ih => exact ih
  | case4 before gap c rest lexeme hnext hless hkind ih => exact ih
  | case5 before gap c rest lexeme hnext hless kind hkind ih =>
      have hraw : '\n' ∉ lexeme.raw := by
        simpa [Lexeme.Proper, hkind] using Lexeme.proper_of_next hnext
      have hfinish : kind ≠ .finish := fun hfinish =>
        Lexeme.next_kind_ne_finish hnext (hkind.trans (congrArg _ hfinish))
      refine List.forall_mem_cons.2 ⟨⟨by simpa [Spaced.tokenAt] using hraw, ?_⟩, ih⟩
      simp [Spaced.tokenAt, hfinish, (Lexeme.next_raw hnext).1]

/-- A token is where the text before it ends. -/
theorem readPieces_position (before gap text : List Char) {front back : List Spaced}
    {piece : Spaced} (h : (readPieces before gap text).pieces = front ++ piece :: back) :
    piece.token.position =
      Position.after (before ++ (front.flatMap Spaced.chars ++ piece.gap)) := by
  fun_induction readPieces before gap text generalizing front with
  | case1 before gap =>
      cases front with
      | nil =>
          obtain ⟨rfl, -⟩ := List.cons.inj h
          rfl
      | cons first front => simp at h
  | case2 before gap c rest fault hnext => simp at h
  | case3 before gap c rest lexeme hnext hless hkind ih => exact ih h
  | case4 before gap c rest lexeme hnext hless hkind ih => exact ih h
  | case5 before gap c rest lexeme hnext hless kind hkind ih =>
      cases front with
      | nil =>
          obtain ⟨rfl, -⟩ := List.cons.inj h
          rfl
      | cons first front =>
          obtain ⟨rfl, hfront⟩ := List.cons.inj h
          simpa [Spaced.chars, Spaced.tokenAt] using ih hfront

/-- No two tokens of a text stand at the same place. -/
theorem readPieces_nodup (before gap text : List Char) :
    ((readPieces before gap text).tokens.map position).Nodup := by
  fun_induction readPieces before gap text with
  | case1 before gap => simp [Scanned.tokens]
  | case2 before gap c rest fault hnext => simp [Scanned.tokens]
  | case3 before gap c rest lexeme hnext hless hkind ih => exact ih
  | case4 before gap c rest lexeme hnext hless hkind ih => exact ih
  | case5 before gap c rest lexeme hnext hless kind hkind ih =>
      refine List.nodup_cons.2 ⟨fun hmem => ?_, ih⟩
      obtain ⟨token, htoken, hposition⟩ := List.mem_map.1 hmem
      obtain ⟨piece, hpiece, rfl⟩ := List.mem_map.1 htoken
      obtain ⟨front, back, hpieces⟩ := List.append_of_mem hpiece
      rw [readPieces_position _ _ _ hpieces, List.append_assoc (before ++ gap)] at hposition
      refine Position.after_ne_after_append (before ++ gap) ?_ hposition.symm
      simp [(Lexeme.next_raw hnext).1]

/-- The place where reading stops is that of no token. -/
theorem readPieces_stuck_position (before gap text : List Char)
    (hrest : (readPieces before gap text).rest ≠ []) :
    ∀ token ∈ (readPieces before gap text).tokens,
      token.kind ≠ .finish ∧
        token.position ≠ Position.after (before ++ (readPieces before gap text).taken) := by
  fun_induction readPieces before gap text with
  | case1 before gap => simp at hrest
  | case2 before gap c rest fault hnext => simp [Scanned.tokens]
  | case3 before gap c rest lexeme hnext hless hkind ih => exact ih hrest
  | case4 before gap c rest lexeme hnext hless hkind ih => exact ih hrest
  | case5 before gap c rest lexeme hnext hless kind hkind ih =>
      have htaken (scanned : Scanned) : before ++ (scanned.behind
          ⟨gap, Spaced.tokenAt (before ++ gap) kind lexeme.raw⟩).taken =
            before ++ gap ++ (lexeme.raw ++ scanned.taken) := by
        simp [Scanned.taken, Scanned.behind, Spaced.chars, Spaced.tokenAt]
      rw [htaken, ← List.append_assoc (before ++ gap)]
      refine List.forall_mem_cons.2 ⟨⟨fun hfinish => ?_, ?_⟩, ih hrest⟩
      · exact Lexeme.next_kind_ne_finish hnext (hkind.trans (congrArg _ hfinish))
      · rw [List.append_assoc (before ++ gap)]
        refine Position.after_ne_after_append (before ++ gap) ?_
        simp [(Lexeme.next_raw hnext).1]

theorem scan_eq (text : String) : scan text = (readPieces [] [] text.toList).outcome [] := by
  rw [← scanFrom_eq]
  rfl

theorem readPieces_stuck (before gap text : List Char) {c : Char} {rest : List Char}
    (h : (readPieces before gap text).rest = c :: rest) :
    ∃ fault, Lexeme.next c rest = .error fault := by
  fun_induction readPieces before gap text with
  | case1 before gap => simp at h
  | case2 before gap d tail fault hnext =>
      obtain ⟨rfl, rfl⟩ := List.cons.inj h
      exact ⟨fault, hnext⟩
  | case3 before gap d tail lexeme hnext hless hkind ih => exact ih h
  | case4 before gap d tail lexeme hnext hless hkind ih => exact ih h
  | case5 before gap d tail lexeme hnext hless kind hkind ih => exact ih h

variable {text : String} {tokens : List Token}

/-- A text that has tokens is read to its end. -/
theorem scan_eq_ok_iff : scan text = .ok tokens ↔
    (readPieces [] [] text.toList).rest = [] ∧ (readPieces [] [] text.toList).tokens = tokens := by
  rw [scan_eq, Scanned.outcome]
  split
  · simp_all
  · rename_i c rest hrest
    obtain ⟨fault, hfault⟩ := readPieces_stuck [] [] text.toList hrest
    cases fault <;> simp [hfault, hrest]

theorem readPieces_gap (before gap text : List Char) (h : (readPieces before gap text).rest = []) :
    (readPieces before gap text).gap = [] := by
  fun_induction readPieces before gap text with
  | case1 before gap => rfl
  | case2 before gap c rest fault hnext => simp at h
  | case3 before gap c rest lexeme hnext hless hkind ih => exact ih h
  | case4 before gap c rest lexeme hnext hless hkind ih => exact ih h
  | case5 before gap c rest lexeme hnext hless kind hkind ih => exact ih h

/-- Nothing of a text is lost in its tokens, and every place is true: with the characters that are
skipped before each token, the end included, they are the whole text, each token is where the text
before it ends, and none goes over a line end. -/
theorem exists_tiling (h : scan text = .ok tokens) :
    ∃ pieces : List Spaced, pieces.map Spaced.token = tokens ∧
      Spaced.Tiling pieces text.toList := by
  obtain ⟨hrest, rfl⟩ := scan_eq_ok_iff.1 h
  have hwhole := readPieces_taken [] [] text.toList
  rw [Scanned.taken, hrest, readPieces_gap _ _ _ hrest, List.append_nil, List.append_nil] at hwhole
  exact ⟨_, rfl, {
    whole := hwhole
    skipped := (readPieces_skipped [] [] text.toList (by simp)).1
    position := fun front piece back hpieces => readPieces_position [] [] text.toList hpieces
    unbroken := fun piece hpiece => (readPieces_text [] [] text.toList piece hpiece).1 }⟩

/-- Two lines with a doubled quote, a sign and a point. -/
def twoLines : String :=
  "IN\n (-1.5,'it''s')"

def twoLinesTokens : List Token :=
  [⟨.keyword .in, 1, 1, "IN"⟩, ⟨.mark .openParenthesis, 2, 2, "("⟩,
    ⟨.real (Binary64.ofScientific true 15 (-1)), 2, 3, "-1.5"⟩, ⟨.mark .comma, 2, 7, ","⟩,
    ⟨.string "it's", 2, 8, "'it''s'"⟩, ⟨.mark .closeParenthesis, 2, 15, ")"⟩, ⟨.finish, 2, 16, ""⟩]

theorem scan_twoLines : scan twoLines = .ok twoLinesTokens :=
  Except.toOption_eq_some_iff.1 (by decide +kernel)

theorem exists_tiling_twoLines :
    scan twoLines = .ok twoLinesTokens ∧
      ∃ pieces : List Spaced, pieces.map Spaced.token = twoLinesTokens ∧
        Spaced.Tiling pieces twoLines.toList :=
  ⟨scan_twoLines, exists_tiling scan_twoLines⟩

end Token

end StarCube
