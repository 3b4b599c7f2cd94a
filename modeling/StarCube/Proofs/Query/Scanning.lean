import StarCube.Proofs.Query.Reading
import StarCube.Proofs.Text.Blank

/-!
What a text is that has been scanned: each token stands in it after white space, a name as brackets
with the name somewhere between them, a mark as its character.
-/

namespace StarCube

open Text

namespace Lexeme

/-- Where a piece comes from: white space, names and marks by their characters, and all else by its
kind. -/
inductive StandsAt : Char → List Char → Lexeme → Prop where
  | lineEnd (rest : List Char) : StandsAt '\n' rest ⟨.lineEnd, ['\n'], rest⟩
  | blank {c : Char} {run : List Char} (h : ∀ d ∈ c :: run, isLineBlank d = true)
      (rest : List Char) : StandsAt c (run ++ rest) ⟨.blank, c :: run, rest⟩
  | name {within : List Char} (hopen : ']' ∉ within) (hunbroken : '\n' ∉ within)
      (hne : trimmed within ≠ []) (rest : List Char) :
      StandsAt '[' (within ++ ']' :: rest)
        ⟨.token (.name (String.ofList (trimmed within))), '[' :: within ++ [']'], rest⟩
  | mark (mark : Mark) (rest : List Char) :
      StandsAt mark.symbol rest ⟨.token (.mark mark), [mark.symbol], rest⟩
  | other {c : Char} {rest : List Char} {lexeme : Lexeme} {kind : TokenKind}
      (hkind : lexeme.kind = .token kind) (hname : ∀ content, kind ≠ .name content)
      (hmark : ∀ mark, kind ≠ .mark mark) (hfinish : kind ≠ .finish) : StandsAt c rest lexeme

theorem standsAt_of_name {inner : List Char} {lexeme : Lexeme} (h : name inner = .ok lexeme) :
    StandsAt '[' inner lexeme := by
  have hsplit := List.takeWhile_append_dropWhile (p := fun c => c != ']' && c != '\n') (l := inner)
  have hopen : ']' ∉ inner.takeWhile fun c => c != ']' && c != '\n' := fun hmem => by
    simpa using List.mem_takeWhile_imp hmem
  have hunbroken : '\n' ∉ inner.takeWhile fun c => c != ']' && c != '\n' := fun hmem => by
    simpa using List.mem_takeWhile_imp hmem
  simp only [Lexeme.name] at h
  split at h
  · rename_i rest hdrop
    split at h
    · simp at h
    · rename_i hne
      obtain rfl := Except.ok.inj h
      rw [hdrop] at hsplit
      conv => arg 2; rw [← hsplit]
      exact .name hopen hunbroken (by simpa using hne) rest
  · simp at h

theorem standsAt_of_string {quote : Char} {inner : List Char} {lexeme : Lexeme}
    (h : string quote inner = .ok lexeme) : StandsAt quote inner lexeme := by
  simp only [string] at h
  split at h
  · obtain rfl := Except.ok.inj h
    exact .other rfl (by simp) (by simp) (by simp)
  · simp at h

theorem standsAt_of_number {negative : Bool} {sign text : List Char} {c : Char} {rest : List Char}
    {lexeme : Lexeme} (h : number negative sign text = .ok lexeme) : StandsAt c rest lexeme := by
  simp only [number] at h
  split at h
  · split at h
    · simp at h
    · obtain rfl := Except.ok.inj h
      exact .other rfl (by simp) (by simp) (by simp)
  · obtain rfl := Except.ok.inj h
    exact .other rfl (by simp) (by simp) (by simp)

theorem standsAt_of_next {c : Char} {rest : List Char} {lexeme : Lexeme}
    (h : next c rest = .ok lexeme) : StandsAt c rest lexeme := by
  simp only [next] at h
  split at h
  · rename_i hc
    subst hc
    obtain rfl := Except.ok.inj h
    exact .lineEnd rest
  split at h
  · rename_i hc
    obtain rfl := Except.ok.inj h
    have hrun : ∀ d ∈ c :: rest.takeWhile isLineBlank, isLineBlank d = true := by
      simpa [hc] using fun d hd => List.mem_takeWhile_imp hd
    simpa using StandsAt.blank hrun (rest.dropWhile isLineBlank)
  split at h
  · rename_i hc
    exact hc ▸ standsAt_of_name h
  split at h
  · exact standsAt_of_string h
  split at h
  · exact standsAt_of_number h
  split at h
  · exact standsAt_of_number h
  split at h
  · obtain rfl := Except.ok.inj h
    refine .other rfl ?_ ?_ ?_
    · split <;> simp
    · split <;> simp
    · split <;> simp
  split at h
  · rename_i mark hmark
    obtain rfl := Except.ok.inj h
    obtain rfl : mark.symbol = c := by simpa using List.find?_some hmark
    exact .mark mark rest
  · simp at h

theorem isBlank_of_isLineBlank {c : Char} (h : isLineBlank c = true) : isBlank c = true := by
  have hcases : c = ' ' ∨ c = '\t' ∨ c = '\r' ∨ c = '\x0c' ∨ c = '\x0b' := by
    simpa [isLineBlank, or_assoc] using h
  rcases hcases with rfl | rfl | rfl | rfl | rfl <;> decide

end Lexeme

namespace Token

/-- The tokens of a text, each after white space. -/
inductive LaidOut : List Token → List Char → Prop where
  | finish {token : Token} {gap : List Char} (hgap : Blanks gap) (hkind : token.kind = .finish) :
      LaidOut [token] gap
  | more {token : Token} {tokens : List Token} {c : Char} {gap rest : List Char} {lexeme : Lexeme}
      (hgap : Blanks gap) (hstands : Lexeme.StandsAt c rest lexeme)
      (hkind : lexeme.kind = .token token.kind) (htext : token.text = String.ofList lexeme.raw)
      (hrest : LaidOut tokens lexeme.rest) : LaidOut (token :: tokens) (gap ++ c :: rest)

variable {line column : Nat} {text : List Char} {token : Token} {tokens : List Token}

theorem LaidOut.behind {gap : List Char} (hgap : Blanks gap) (h : LaidOut tokens text) :
    LaidOut tokens (gap ++ text) := by
  cases h with
  | finish hgap' hkind => exact .finish (hgap.append hgap') hkind
  | more hgap' hstands hkind htext hrest =>
      rw [← List.append_assoc]
      exact .more (hgap.append hgap') hstands hkind htext hrest

theorem laidOut_of_scanFrom (h : scanFrom line column text = .ok tokens) : LaidOut tokens text := by
  fun_induction scanFrom line column text generalizing tokens with
  | case1 line column =>
      obtain rfl := Except.ok.inj h
      exact .finish .nil rfl
  | case2 => simp at h
  | case3 => simp at h
  | case4 line column c rest lexeme hnext hless hkind ih =>
      cases Lexeme.standsAt_of_next hnext with
      | lineEnd =>
          have hgap : Blanks ['\n'] := by simp [Blanks]; decide
          exact (ih h).behind hgap
      | other hother => simp [hkind] at hother
      | _ => cases hkind
  | case5 line column c rest lexeme hnext hless hkind ih =>
      cases Lexeme.standsAt_of_next hnext with
      | blank hrun rest =>
          exact (ih h).behind fun d hd => Lexeme.isBlank_of_isLineBlank (hrun d hd)
      | other hother => simp [hkind] at hother
      | _ => cases hkind
  | case6 line column c rest lexeme hnext hless kind hkind ih =>
      obtain ⟨others, hothers, rfl⟩ := Except.map_eq_ok_iff.1 h
      exact LaidOut.more Blanks.nil (Lexeme.standsAt_of_next hnext) hkind rfl (ih hothers)

/-- A name stands in brackets, with white space before, within and behind them or without. -/
theorem LaidOut.exists_name (h : LaidOut (token :: tokens) text) {name : String}
    (hname : token.kind = .name name) :
    ∃ gap within rest, text = gap ++ '[' :: (within ++ ']' :: rest) ∧ Blanks gap ∧ ']' ∉ within ∧
      '\n' ∉ within ∧ trimmed within ≠ [] ∧ name = String.ofList (trimmed within) ∧
      token.text = String.ofList ('[' :: within ++ [']']) ∧ LaidOut tokens rest := by
  cases h with
  | finish hgap hkind => simp [hname] at hkind
  | more hgap hstands hkind htext hrest =>
      rw [hname] at hkind
      cases hstands with
      | @name within hopen hunbroken hne rest =>
          obtain rfl : String.ofList (trimmed within) = name := by simpa using hkind
          exact ⟨_, _, rest, rfl, hgap, hopen, hunbroken, hne, rfl, htext, hrest⟩
      | other hother hnot => exact absurd (by simpa [hother] using hkind) (hnot name)
      | _ => simp at hkind

theorem LaidOut.exists_mark (h : LaidOut (token :: tokens) text) {mark : Mark}
    (hmark : token.kind = .mark mark) :
    ∃ gap rest, text = gap ++ mark.symbol :: rest ∧ Blanks gap ∧ LaidOut tokens rest := by
  cases h with
  | finish hgap hkind => simp [hmark] at hkind
  | more hgap hstands hkind htext hrest =>
      rw [hmark] at hkind
      cases hstands with
      | mark found =>
          obtain rfl : found = mark := by simpa using hkind
          exact ⟨_, _, rfl, hgap, hrest⟩
      | other hother _ hnot => exact absurd (by simpa [hother] using hkind) (hnot mark)
      | _ => simp at hkind

/-- Nothing but white space is left where the end is next. -/
theorem LaidOut.exists_finish (h : LaidOut tokens text) (hfinish : (front tokens).kind = .finish) :
    Blanks text ∧ ∃ last, tokens = [last] ∧ last.kind = .finish := by
  cases h with
  | finish hgap hkind => exact ⟨hgap, _, rfl, hkind⟩
  | more hgap hstands hkind htext hrest =>
      replace hkind := hkind.trans (congrArg LexemeKind.token hfinish)
      cases hstands with
      | other hother _ _ hnot => exact absurd (by simpa [hother] using hkind) hnot
      | _ => simp at hkind

end Token

end StarCube
