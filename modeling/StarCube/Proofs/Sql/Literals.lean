import Mathlib.Algebra.Ring.Parity
import Mathlib.Data.List.Indexes
import StarCube.Proofs.Sql.Places
import StarCube.Proofs.Text.Quoted

/-!
Literals of a statement and the placeholders between them. A literal stands between single quotes
and has each quote of its own twice, so a statement of which every literal is terminated is put
together in one way, and binding goes by it: it names the placeholders in order and leaves the rest
as it is.
-/

namespace StarCube

/-- The body of a literal: each quote in it is written twice. -/
inductive QuotedBody : List Char → Prop where
  | nil : QuotedBody []
  | char {c : Char} {body : List Char} (hc : c ≠ '\'') (h : QuotedBody body) :
      QuotedBody (c :: body)
  | quote {body : List Char} (h : QuotedBody body) : QuotedBody ('\'' :: '\'' :: body)

namespace SqlPiece

/-- Pieces with terminated literals only. A quote behind a literal would belong to it. -/
inductive Terminated : List SqlPiece → Prop where
  | nil : Terminated []
  | other {c : Char} {pieces : List SqlPiece} (hquote : c ≠ '\'') (hmark : c ≠ '?')
      (h : Terminated pieces) : Terminated (.other c :: pieces)
  | placeholder {pieces : List SqlPiece} (h : Terminated pieces) :
      Terminated (.placeholder :: pieces)
  | literal {body : List Char} {pieces : List SqlPiece} (hbody : QuotedBody body)
      (hnext : (pieces.flatMap chars).head? ≠ some '\'') (h : Terminated pieces) :
      Terminated (.literal body :: pieces)

/-- A statement is put together of pieces with terminated literals. -/
structure Compose (pieces : List SqlPiece) (sql : String) : Prop where
  terminated : Terminated pieces
  whole : pieces.flatMap chars = sql.toList

/-- The text of pieces in which the `i`-th placeholder is `:p<i>`. -/
def rewritten (pieces : List SqlPiece) : List Char :=
  (pieces.mapIdx fun i piece =>
    if piece = .placeholder then
      ':' :: (bindName ((pieces.take i).count .placeholder)).toList
    else piece.chars).flatten

end SqlPiece

/-- Every literal of a statement is terminated. -/
def LiteralsTerminated (sql : String) : Prop :=
  ∃ pieces, SqlPiece.Compose pieces sql

section Splitting

theorem closeQuoted_of_body {body after : List Char} (hbody : QuotedBody body)
    (hafter : after.head? ≠ some '\'') :
    Text.closeQuoted '\'' (fun _ => false) (body ++ '\'' :: after) = some (body, after) := by
  induction hbody with
  | nil =>
      cases after with
      | nil => simp [Text.closeQuoted]
      | cons c rest =>
          have hc : c ≠ '\'' := by simpa using hafter
          simp [Text.closeQuoted, hc]
  | char hc hbody ih => simp [Text.closeQuoted_cons hc, ih]
  | quote hbody ih => simp [Text.closeQuoted, ih]

/-- Splitting finds the pieces of which a text is put together. -/
theorem SqlPiece.split_of_terminated {pieces : List SqlPiece} (h : Terminated pieces) :
    split (pieces.flatMap chars) = pieces := by
  induction h with
  | nil => simp [split]
  | other hquote hmark h ih => simp [chars, split, hquote, hmark, ih]
  | placeholder h ih => simp [chars, split, ih]
  | @literal body pieces hbody hnext h ih =>
      have hclose := closeQuoted_of_body hbody hnext
      have htext : (literal body :: pieces).flatMap chars =
          '\'' :: (body ++ '\'' :: pieces.flatMap chars) := by simp [chars]
      rw [htext, split, if_pos rfl]
      split
      · simp_all
      · simp_all

theorem SqlPiece.Compose.split_eq {pieces : List SqlPiece} {sql : String} (h : Compose pieces sql) :
    split sql.toList = pieces := by
  rw [← h.whole, split_of_terminated h.terminated]

theorem even_count_of_body {body : List Char} (h : QuotedBody body) : Even (body.count '\'') := by
  induction h with
  | nil => exact ⟨0, rfl⟩
  | char hc hbody ih => rwa [List.count_cons_of_ne hc]
  | quote hbody ih =>
      rw [List.count_cons_self, List.count_cons_self, Nat.add_assoc]
      exact ih.add even_two

theorem even_count_of_terminated {pieces : List SqlPiece} (h : SqlPiece.Terminated pieces) :
    Even ((pieces.flatMap SqlPiece.chars).count '\'') := by
  induction h with
  | nil => exact ⟨0, rfl⟩
  | other hquote hmark h ih => simpa [SqlPiece.chars, List.count_cons_of_ne hquote] using ih
  | placeholder h ih => simpa [SqlPiece.chars, List.count_cons_of_ne] using ih
  | @literal body pieces hbody hnext h ih =>
      have hcount : ((SqlPiece.literal body :: pieces).flatMap SqlPiece.chars).count '\'' =
          body.count '\'' + (pieces.flatMap SqlPiece.chars).count '\'' + 2 := by
        simp [SqlPiece.chars]
        omega
      rw [hcount]
      exact ((even_count_of_body hbody).add ih).add even_two

/-- A literal is closed where an odd number of quotes follows its opening one. -/
theorem closeQuoted_of_odd {text : List Char} (h : Odd (text.count '\'')) :
    ∃ body after, Text.closeQuoted '\'' (fun _ => false) text = some (body, after) ∧
      QuotedBody body ∧ after.head? ≠ some '\'' ∧ Even (after.count '\'') := by
  fun_induction Text.closeQuoted '\'' (fun _ => false) text with
  | case1 => simp at h
  | case2 tail found rest hfound ih =>
      rw [List.count_cons_self, List.count_cons_self, Nat.add_assoc] at h
      obtain ⟨body, after, hclose, hbody, hafter, heven⟩ := ih (by simpa [Nat.odd_add] using h)
      obtain ⟨rfl, rfl⟩ : found = body ∧ rest = after := by simpa [hfound] using hclose
      exact ⟨_, _, rfl, .quote hbody, hafter, heven⟩
  | case3 tail hnone ih =>
      rw [List.count_cons_self, List.count_cons_self, Nat.add_assoc] at h
      obtain ⟨body, after, hclose, -⟩ := ih (by simpa [Nat.odd_add] using h)
      rw [hnone] at hclose
      cases hclose
  | case4 next tail hnext =>
      rw [List.count_cons_self, Nat.odd_add_one, Nat.not_odd_iff_even] at h
      exact ⟨_, _, rfl, .nil, by simpa using hnext, h⟩
  | case5 => exact ⟨_, _, rfl, .nil, by simp, by simp⟩
  | case6 c rest hc hstop => cases hstop
  | case7 c rest hc hstop ih =>
      rw [List.count_cons_of_ne hc] at h
      obtain ⟨body, after, hclose, hbody, hafter, heven⟩ := ih h
      exact ⟨c :: body, after, by simp [hclose], .char hc hbody, hafter, heven⟩

theorem SqlPiece.terminated_split {text : List Char} (h : Even (text.count '\'')) :
    Terminated (split text) := by
  fun_induction split text with
  | case1 => exact .nil
  | case2 rest body after hclose hless ih =>
      rw [List.count_cons_self, Nat.even_add_one, Nat.not_even_iff_odd] at h
      obtain ⟨found, tail, hfound, hbody, htail, heven⟩ := closeQuoted_of_odd h
      obtain ⟨rfl, rfl⟩ : body = found ∧ after = tail := by simpa [hclose] using hfound
      exact .literal hbody (by rwa [split_flatMap_chars]) (ih heven)
  | case3 rest hclose ih =>
      rw [List.count_cons_self, Nat.even_add_one, Nat.not_even_iff_odd] at h
      obtain ⟨body, after, hfound, -⟩ := closeQuoted_of_odd h
      rw [hclose] at hfound
      cases hfound
  | case4 rest hquote ih => exact .placeholder (ih (by rwa [List.count_cons_of_ne hquote] at h))
  | case5 c rest hquote hmark ih =>
      exact .other hquote hmark (ih (by rwa [List.count_cons_of_ne hquote] at h))

/-- The literals of a statement are terminated just if it has an even number of quotes. -/
theorem literalsTerminated_iff (sql : String) :
    LiteralsTerminated sql ↔ Even (sql.toList.count '\'') := by
  constructor
  · rintro ⟨pieces, hterminated, hwhole⟩
    rw [← hwhole]
    exact even_count_of_terminated hterminated
  · exact fun h => ⟨_, SqlPiece.terminated_split h, SqlPiece.split_flatMap_chars sql.toList⟩

instance (sql : String) : Decidable (LiteralsTerminated sql) :=
  decidable_of_iff _ (literalsTerminated_iff sql).symm

end Splitting

section Binding

/-- The names of the placeholders, the first being the `next`-th. -/
theorem SqlPiece.named_eq (next : Nat) (pieces : List SqlPiece) :
    named next pieces = (pieces.mapIdx fun i piece =>
      if piece = .placeholder then
        ':' :: (bindName (next + (pieces.take i).count .placeholder)).toList
      else piece.chars).flatten := by
  induction pieces generalizing next with
  | nil => rfl
  | cons piece pieces ih =>
      rw [List.mapIdx_cons, List.flatten_cons]
      cases piece with
      | placeholder => simp [named, ih, Nat.add_assoc, Nat.add_comm 1]
      | _ => simp [named, ih, chars]

theorem bindPlaceholders_eq_ok_iff {sql : String} {values : List Value} {bound : BoundStatement} :
    bindPlaceholders sql values = .ok bound ↔
      placeholderCount sql = values.length ∧
        bound = ⟨String.ofList (SqlPiece.named 0 (SqlPiece.split sql.toList)),
          values.zipIdx.map fun bound => (bindName bound.2, bound.1)⟩ := by
  simp only [bindPlaceholders, placeholderCount]
  split
  · simp
    omega
  · split
    · simp
      omega
    · have hcount : (SqlPiece.split sql.toList).count .placeholder = values.length := by omega
      simp [hcount, eq_comm]

theorem sql_of_bindPlaceholders {sql : String} {values : List Value} {fault : BindFault}
    (h : bindPlaceholders sql values = .error fault) : fault.sql = sql := by
  simp only [bindPlaceholders] at h
  split at h
  · obtain rfl := Except.error.inj h
    rfl
  · split at h
    · obtain rfl := Except.error.inj h
      rfl
    · cases h

/-- A statement with terminated literals is put together of its pieces in one way. It binds the
values just if there are as many as placeholders: then the `i`-th placeholder is `:p<i>` and every
other piece is as it was, and the binds are `p0`, `p1` and so on with the values in order. Otherwise
it is refused with the statement as it was given. -/
theorem exists_pieces_bindPlaceholders {sql : String} (h : LiteralsTerminated sql)
    (values : List Value) :
    ∃ pieces, SqlPiece.Compose pieces sql ∧ (∀ other, SqlPiece.Compose other sql → other = pieces) ∧
      ((∃ bound, bindPlaceholders sql values = .ok bound) ↔
        pieces.count .placeholder = values.length) ∧
      (∀ bound, bindPlaceholders sql values = .ok bound →
        bound.sql.toList = SqlPiece.rewritten pieces ∧
          bound.binds = values.mapIdx fun i value => (bindName i, value)) ∧
      ∀ fault, bindPlaceholders sql values = .error fault → fault.sql = sql := by
  obtain ⟨pieces, hpieces⟩ := h
  have hsplit := hpieces.split_eq
  have hcount : placeholderCount sql = pieces.count .placeholder := by rw [placeholderCount, hsplit]
  refine ⟨pieces, hpieces, fun other hother => hother.split_eq.symm.trans hsplit, ?_, ?_, ?_⟩
  · simp [bindPlaceholders_eq_ok_iff, hcount]
  · intro bound hbound
    obtain ⟨-, rfl⟩ := bindPlaceholders_eq_ok_iff.1 hbound
    constructor
    · rw [String.toList_ofList, hsplit, SqlPiece.named_eq]
      simp [SqlPiece.rewritten]
    · simp [List.mapIdx_eq_zipIdx_map]
  · exact fun fault => sql_of_bindPlaceholders

/-- A question mark within a literal, one between two literals, and a literal of quotes. -/
def crowded : String :=
  "'it''s ?'?''''"

theorem exists_pieces_crowded :
    LiteralsTerminated crowded ∧
      ∃ pieces, SqlPiece.Compose pieces crowded ∧
        (∀ other, SqlPiece.Compose other crowded → other = pieces) ∧
        ((∃ bound, bindPlaceholders crowded [.int 5] = .ok bound) ↔
          pieces.count .placeholder = 1) ∧
        (∀ bound, bindPlaceholders crowded [.int 5] = .ok bound →
          bound.sql.toList = SqlPiece.rewritten pieces ∧ bound.binds = [("p0", .int 5)]) ∧
        ∀ fault, bindPlaceholders crowded [.int 5] = .error fault → fault.sql = crowded := by
  have hterminated : LiteralsTerminated crowded := by decide
  exact ⟨hterminated, exists_pieces_bindPlaceholders hterminated [.int 5]⟩

end Binding

end StarCube
