import Mathlib.Algebra.GroupWithZero.Nat
import StarCube.Proofs.Sql.Identifier
import StarCube.Sql.Placeholder
import StarCube.Sql.Statement

/-!
The places of values in the text of a statement. A text without quotes has a place at each of its
question marks, and identifiers have neither, so the places are those that conditions write.
-/

namespace StarCube

/-- The number of question marks in a text. -/
def places (text : String) : Nat :=
  text.toList.count '?'

/-- No quote is in a text. -/
def Unquoted (text : String) : Prop :=
  '\'' ∉ text.toList

instance (text : String) : Decidable (Unquoted text) :=
  inferInstanceAs (Decidable ('\'' ∉ text.toList))

/-- A text in which no value is quoted and none has a place. -/
structure Plain (text : String) : Prop where
  unquoted : Unquoted text
  places_eq : places text = 0

instance (text : String) : Decidable (Plain text) :=
  decidable_of_iff (Unquoted text ∧ places text = 0)
    ⟨fun h => ⟨h.1, h.2⟩, fun h => ⟨h.unquoted, h.places_eq⟩⟩

section Texts

@[simp] theorem places_append (left right : String) :
    places (left ++ right) = places left + places right := by
  simp [places]

@[simp] theorem unquoted_append_iff {left right : String} :
    Unquoted (left ++ right) ↔ Unquoted left ∧ Unquoted right := by
  simp [Unquoted]

@[simp] theorem plain_append_iff {left right : String} :
    Plain (left ++ right) ↔ Plain left ∧ Plain right := by
  constructor
  · intro h
    have hquotes := unquoted_append_iff.1 h.unquoted
    have hplaces := h.places_eq
    rw [places_append] at hplaces
    exact ⟨⟨hquotes.1, by omega⟩, ⟨hquotes.2, by omega⟩⟩
  · rintro ⟨hleft, hright⟩
    exact ⟨unquoted_append_iff.2 ⟨hleft.unquoted, hright.unquoted⟩, by
      rw [places_append, hleft.places_eq, hright.places_eq]⟩

theorem Plain.append {left right : String} (hleft : Plain left) (hright : Plain right) :
    Plain (left ++ right) :=
  plain_append_iff.2 ⟨hleft, hright⟩

variable {separator : String}

theorem places_intercalate (hseparator : Plain separator) (texts : List String) :
    places (separator.intercalate texts) = (texts.map places).sum := by
  induction texts with
  | nil => simp [places]
  | cons text rest ih =>
      cases rest with
      | nil => simp
      | cons next rest => simp [ih, hseparator.places_eq]

theorem unquoted_intercalate (hseparator : Plain separator) {texts : List String}
    (h : ∀ text ∈ texts, Unquoted text) : Unquoted (separator.intercalate texts) := by
  induction texts with
  | nil => simp [Unquoted]
  | cons text rest ih =>
      rw [List.forall_mem_cons] at h
      cases rest with
      | nil => simpa using h.1
      | cons next rest => simpa using ⟨⟨h.1, hseparator.unquoted⟩, ih h.2⟩

theorem sum_places_eq_zero {texts : List String} (h : ∀ text ∈ texts, Plain text) :
    (texts.map places).sum = 0 := by
  rw [List.sum_eq_zero_iff_forall_eq_nat]
  intro count hcount
  obtain ⟨text, htext, rfl⟩ := List.mem_map.1 hcount
  exact (h text htext).places_eq

theorem plain_intercalate (hseparator : Plain separator) {texts : List String}
    (h : ∀ text ∈ texts, Plain text) : Plain (separator.intercalate texts) := by
  refine ⟨unquoted_intercalate hseparator fun text htext => (h text htext).unquoted, ?_⟩
  rw [places_intercalate hseparator, sum_places_eq_zero h]

/-- A text that stands among others has as many places before it and after it as these have. -/
theorem intercalate_around (hseparator : Plain separator) (front rest : List String)
    (text : String) :
    ∃ before after, separator.intercalate (front ++ text :: rest) = before ++ text ++ after ∧
      places before = (front.map places).sum ∧ places after = (rest.map places).sum := by
  obtain ⟨before, hbefore, hfront⟩ : ∃ before,
      separator.intercalate (front ++ text :: rest) = before ++ separator.intercalate (text :: rest)
        ∧ places before = (front.map places).sum := by
    cases front with
    | nil => exact ⟨"", by simp, by simp [places]⟩
    | cons first front =>
        refine ⟨separator.intercalate (first :: front) ++ separator, ?_, ?_⟩
        · rw [String.intercalate_append_of_ne_nil (by simp) (by simp)]
        · rw [places_append, places_intercalate hseparator, hseparator.places_eq, Nat.add_zero]
  obtain ⟨after, hafter, hrest⟩ : ∃ after,
      separator.intercalate (text :: rest) = text ++ after ∧
        places after = (rest.map places).sum := by
    cases rest with
    | nil => exact ⟨"", by simp, by simp [places]⟩
    | cons next rest =>
        refine ⟨separator ++ separator.intercalate (next :: rest), ?_, ?_⟩
        · rw [String.intercalate_cons_cons, String.append_assoc]
        · rw [places_append, places_intercalate hseparator, hseparator.places_eq, Nat.zero_add]
  exact ⟨before, after, by rw [hbefore, hafter, String.append_assoc], hfront, hrest⟩

end Texts

section Identifiers

/-- Identifiers are plain. -/
theorem plain_of_checkIdentifier {what text checked : String}
    (h : checkIdentifier what text = .ok checked) : Plain text := by
  have hchars : ∀ c ∈ text.toList, c ≠ '\'' ∧ c ≠ '?' := by
    intro c hc
    rcases (isIdentifier_of_checkIdentifier h).chars c hc with hrest | rfl | rfl
    · constructor <;> rintro rfl <;> exact absurd hrest (by decide)
    · decide
    · decide
  constructor
  · intro hquote
    exact (hchars _ hquote).1 rfl
  · rw [places, List.count_eq_zero]
    intro hmark
    exact (hchars _ hmark).2 rfl

end Identifiers

/-- The text in which the question marks have the names of binds, from the `next`-th on. -/
def nameMarks (next : Nat) : List Char → List Char
  | [] => []
  | c :: rest =>
      if c = '?' then ':' :: ((bindName next).toList ++ nameMarks (next + 1) rest)
      else c :: nameMarks next rest

section Binding

/-- Every question mark of a text without quotes is a placeholder. -/
theorem SqlPiece.split_unquoted {text : List Char} (h : '\'' ∉ text) :
    SqlPiece.split text =
      text.map fun c => if c = '?' then SqlPiece.placeholder else SqlPiece.other c := by
  induction text with
  | nil => simp [SqlPiece.split]
  | cons c rest ih =>
      obtain ⟨hc, hrest⟩ : '\'' ≠ c ∧ '\'' ∉ rest := by simpa using h
      by_cases hmark : c = '?'
      · simp [SqlPiece.split, hmark, ih hrest]
      · simp [SqlPiece.split, hmark, Ne.symm hc, ih hrest]

theorem placeholderCount_eq_places {sql : String} (h : Unquoted sql) :
    placeholderCount sql = places sql := by
  unfold placeholderCount places
  rw [SqlPiece.split_unquoted h]
  induction sql.toList with
  | nil => rfl
  | cons c rest ih => by_cases hc : c = '?' <;> simp [hc, ih]

theorem SqlPiece.named_split {text : List Char} (h : '\'' ∉ text) (next : Nat) :
    SqlPiece.named next (SqlPiece.split text) = nameMarks next text := by
  rw [SqlPiece.split_unquoted h]
  clear h
  induction text generalizing next with
  | nil => rfl
  | cons c rest ih =>
      by_cases hmark : c = '?'
      · simp [hmark, SqlPiece.named, nameMarks, ih]
      · simp [hmark, SqlPiece.named, SqlPiece.chars, nameMarks, ih]

theorem bindName_injective {first second : Nat} (h : bindName first = bindName second) :
    first = second := by
  have hdigits : Nat.toDigits 10 first = Nat.toDigits 10 second := by
    simpa [bindName] using congrArg String.toList h
  rw [← Nat.ofDigitChars_ten_toDigits (n := first), hdigits, Nat.ofDigitChars_ten_toDigits]

/-- The values of the binds from the `next`-th on. -/
theorem lookup_bindName (values : List Value) (next index : Nat) :
    List.lookup (bindName (next + index))
      ((values.zipIdx next).map fun bound => (bindName bound.2, bound.1)) = values[index]? := by
  induction values generalizing next index with
  | nil => rfl
  | cons value rest ih =>
      cases index with
      | zero => simp
      | succ index =>
          have hne : bindName (next + 1 + index) ≠ bindName next := by
            intro h
            have := bindName_injective h
            omega
          rw [show next + (index + 1) = next + 1 + index by omega]
          simpa [List.lookup_cons, beq_false_of_ne hne] using ih (next + 1) index

/-- A statement without quotes that has a place for each value names its places in order and binds
the `i`-th value to the `i`-th name. -/
theorem bindPlaceholders_of_places {sql : String} {values : List Value} (hsql : Unquoted sql)
    (hcount : places sql = values.length) :
    ∃ bound, bindPlaceholders sql values = .ok bound ∧
      bound.sql.toList = nameMarks 0 sql.toList ∧
      ∀ index, List.lookup (bindName index) bound.binds = values[index]? := by
  have hpieces : (SqlPiece.split sql.toList).count .placeholder = values.length := by
    rw [← hcount, ← placeholderCount_eq_places hsql, placeholderCount]
  refine ⟨_, by simp only [bindPlaceholders, hpieces, Nat.lt_irrefl, if_false]; rfl, ?_, ?_⟩
  · simpa using SqlPiece.named_split hsql 0
  · intro index
    simpa using lookup_bindName values 0 index

end Binding

end StarCube
