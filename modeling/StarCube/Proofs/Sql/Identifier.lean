import Mathlib.Data.List.Basic
import StarCube.Cube.Dimension
import StarCube.Query.Token

/-!
What identifiers are made of: names with a point between each two, and at most a line end after the
last. All their characters are of the ASCII range, so a small letter stands for each capital by
itself.
-/

namespace StarCube

/-- A text that may be written into a statement. -/
def IsIdentifier (text : String) : Prop :=
  identifierStart text.toList = true

theorem isIdentifier_of_checkIdentifier {what text checked : String}
    (h : checkIdentifier what text = .ok checked) : IsIdentifier text := by
  unfold checkIdentifier at h
  split at h
  · simp at h
  split at h
  · simp at h
  split at h
  · assumption
  · simp at h

/-- An identifier starts with what may start a part, and goes on behind it. -/
theorem identifierStart_cons_iff {c : Char} {rest : List Char} :
    identifierStart (c :: rest) = true ↔
      isIdentifierStart c = true ∧ identifierPart rest = true := by
  simp [identifierStart]

/-- A name: a letter or a low line, and more of these or digits. -/
def IsName (name : List Char) : Prop :=
  ∃ first rest, name = first :: rest ∧ isIdentifierStart first = true ∧
    ∀ c ∈ rest, isIdentifierRest c = true

/-- Names with a point between each two. -/
def qualified (first : List Char) (others : List (List Char)) : List Char :=
  first ++ others.flatMap fun other => '.' :: other

theorem IsName.rest {name : List Char} (h : IsName name) :
    ∀ c ∈ name, isIdentifierRest c = true := by
  obtain ⟨first, rest, rfl, hfirst, hrest⟩ := h
  exact List.forall_mem_cons.2 ⟨Lexeme.isIdentifierRest_of_start hfirst, hrest⟩

theorem IsName.ne_nil {name : List Char} (h : IsName name) : name ≠ [] := by
  obtain ⟨first, rest, rfl, -, -⟩ := h
  exact List.cons_ne_nil first rest

/-- The induction is over both kinds of position at once: inside a name, and where one starts. -/
theorem exists_parts (text : List Char) :
    (identifierPart text = true → ∃ front others tail, (∀ c ∈ front, isIdentifierRest c = true) ∧
      (∀ other ∈ others, IsName other) ∧ (tail = [] ∨ tail = ['\n']) ∧
      text = qualified front others ++ tail) ∧
    (identifierStart text = true → ∃ first others tail, IsName first ∧
      (∀ other ∈ others, IsName other) ∧ (tail = [] ∨ tail = ['\n']) ∧
      text = qualified first others ++ tail) := by
  induction text with
  | nil =>
      constructor
      · intro _
        exact ⟨[], [], [], by simp, by simp, .inl rfl, rfl⟩
      · intro h
        simp [identifierStart] at h
  | cons c rest ih =>
      obtain ⟨ihPart, ihStart⟩ := ih
      constructor
      · intro h
        unfold identifierPart at h
        split at h
        · simp_all
        · rename_i heq
          obtain ⟨rfl, rfl⟩ := List.cons.inj heq
          exact ⟨[], [], ['\n'], by simp, by simp, .inr rfl, rfl⟩
        · rename_i first tail _ heq
          obtain ⟨rfl, rfl⟩ := List.cons.inj heq
          split at h
          · rename_i hc
            obtain ⟨front, others, tail, hfront, hothers, htail, rfl⟩ := ihPart h
            exact ⟨c :: front, others, tail, List.forall_mem_cons.2 ⟨hc, hfront⟩, hothers, htail,
              rfl⟩
          · obtain ⟨rfl, hstart⟩ : c = '.' ∧ identifierStart rest = true := by simpa using h
            obtain ⟨first, others, tail, hfirst, hothers, htail, rfl⟩ := ihStart hstart
            refine ⟨[], first :: others, tail, by simp, List.forall_mem_cons.2 ⟨hfirst, hothers⟩,
              htail, ?_⟩
            simp [qualified]
      · intro h
        obtain ⟨hc, hpart⟩ := identifierStart_cons_iff.1 h
        obtain ⟨front, others, tail, hfront, hothers, htail, rfl⟩ := ihPart hpart
        exact ⟨c :: front, others, tail, ⟨c, front, rfl, hc, hfront⟩, hothers, htail, rfl⟩

namespace IsIdentifier

variable {text : String}

/-- An identifier is made of names. -/
theorem exists_names (h : IsIdentifier text) :
    ∃ first others tail, IsName first ∧ (∀ other ∈ others, IsName other) ∧
      (tail = [] ∨ tail = ['\n']) ∧ text.toList = qualified first others ++ tail :=
  (exists_parts text.toList).2 h

theorem chars (h : IsIdentifier text) :
    ∀ c ∈ text.toList, isIdentifierRest c = true ∨ c = '.' ∨ c = '\n' := by
  obtain ⟨first, others, tail, hfirst, hothers, htail, heq⟩ := h.exists_names
  intro c hc
  rw [heq, qualified, List.append_assoc, List.mem_append, List.mem_append] at hc
  rcases hc with hc | hc | hc
  · exact .inl (hfirst.rest c hc)
  · obtain ⟨other, hother, hc⟩ := List.mem_flatMap.1 hc
    rcases List.mem_cons.1 hc with rfl | hc
    · exact .inr (.inl rfl)
    · exact .inl ((hothers other hother).rest c hc)
  · rcases htail with rfl | rfl
    · simp at hc
    · exact .inr (.inr (List.mem_singleton.1 hc))

end IsIdentifier

theorem toNat_lt_of_isIdentifierRest {c : Char} (h : isIdentifierRest c = true) :
    c.toNat < 128 := by
  have hcode : c.toNat = c.val.toNat := rfl
  have hletters : 'Z'.val.toNat = 90 ∧ 'z'.val.toNat = 122 := ⟨rfl, rfl⟩
  have hdigits : '9'.val.toNat = 57 := rfl
  rw [isIdentifierRest, Bool.or_eq_true, beq_iff_eq] at h
  rcases h with h | rfl
  · delta Char.isAlphanum Char.isAlpha Char.isUpper Char.isLower Char.isDigit at h
    simp only [Bool.or_eq_true, Bool.and_eq_true, decide_eq_true_eq, ge_iff_le,
      UInt32.le_iff_toNat_le] at h
    omega
  · decide

theorem IsIdentifier.ascii {text : String} (h : IsIdentifier text) :
    ∀ c ∈ text.toList, c.toNat < 128 := by
  intro c hc
  rcases h.chars c hc with hrest | rfl | rfl
  · exact toNat_lt_of_isIdentifierRest hrest
  · decide
  · decide

theorem lowerAfter_eq_map {text : List Char} (h : ∀ c ∈ text, c.toNat < 128) (before : List Char) :
    Text.lowerAfter before text = text.map Char.toLower := by
  induction text generalizing before with
  | nil => rfl
  | cons c rest ih =>
      rw [List.forall_mem_cons] at h
      have hsigma : c ≠ 'Σ' := by
        rintro rfl
        exact absurd h.1 (by decide)
      have hdotted : c ≠ 'İ' := by
        rintro rfl
        exact absurd h.1 (by decide)
      simp [Text.lowerAfter, hsigma, hdotted, Text.smallLetter, h.1, ih h.2]

theorem Text.toList_lowerCase {text : String} (h : ∀ c ∈ text.toList, c.toNat < 128) :
    (Text.lowerCase text).toList = text.toList.map Char.toLower := by
  rw [Text.lowerCase, String.toList_ofList, lowerAfter_eq_map h]

theorem IsIdentifier.toList_lowerCase {text : String} (h : IsIdentifier text) :
    (Text.lowerCase text).toList = text.toList.map Char.toLower :=
  Text.toList_lowerCase h.ascii

/-- What an identifier goes on with inside a part. -/
theorem identifierPart_cons_iff {c : Char} {rest : List Char} :
    identifierPart (c :: rest) = true ↔ (c = '\n' ∧ rest = []) ∨
      (isIdentifierRest c = true ∧ identifierPart rest = true) ∨
        (c = '.' ∧ identifierStart rest = true) := by
  have hline : isIdentifierRest '\n' = false := by decide
  have hpoint : isIdentifierRest '.' = false := by decide
  conv_lhs => unfold identifierPart
  split
  · simp_all
  · rename_i heq
    obtain ⟨rfl, rfl⟩ := List.cons.inj heq
    simp
  · rename_i first tail hother heq
    obtain ⟨rfl, rfl⟩ := List.cons.inj heq
    have hnotLast : ¬ (c = '\n' ∧ rest = []) := fun hlast => hother hlast.1 hlast.2
    by_cases hc : isIdentifierRest c = true
    · have hnotPoint : c ≠ '.' := by
        rintro rfl
        simp [hpoint] at hc
      simp [hc, hnotLast, hnotPoint]
    · simp [hc, hnotLast]

/-- Where an identifier may start, another may go on. -/
theorem identifierPart_of_start {text : List Char} (h : identifierStart text = true) :
    identifierPart text = true := by
  cases text with
  | nil => rfl
  | cons c rest =>
      obtain ⟨hc, hrest⟩ := identifierStart_cons_iff.1 h
      exact identifierPart_cons_iff.2 (.inr (.inl ⟨Lexeme.isIdentifierRest_of_start hc, hrest⟩))

/-- What may stand inside a part does not keep an identifier from going on. -/
theorem identifierPart_append {front : List Char} (h : ∀ c ∈ front, isIdentifierRest c = true)
    {rest : List Char} (hrest : identifierPart rest = true) :
    identifierPart (front ++ rest) = true := by
  induction front with
  | nil => exact hrest
  | cons c front ih =>
      rw [List.forall_mem_cons] at h
      exact identifierPart_cons_iff.2 (.inr (.inl ⟨h.1, ih h.2⟩))

theorem IsName.identifierStart_append {name : List Char} (h : IsName name) {rest : List Char}
    (hrest : identifierPart rest = true) : identifierStart (name ++ rest) = true := by
  obtain ⟨first, more, rfl, hfirst, hmore⟩ := h
  exact identifierStart_cons_iff.2 ⟨hfirst, identifierPart_append hmore hrest⟩

/-- Names with points between them are read to their end, with a line end behind them or without. -/
theorem identifierStart_qualified {first tail : List Char} {others : List (List Char)}
    (hfirst : IsName first) (hothers : ∀ other ∈ others, IsName other)
    (htail : tail = [] ∨ tail = ['\n']) :
    identifierStart (qualified first others ++ tail) = true := by
  rw [qualified, List.append_assoc]
  apply hfirst.identifierStart_append
  induction others with
  | nil => rcases htail with rfl | rfl <;> rfl
  | cons other others ih =>
      rw [List.forall_mem_cons] at hothers
      rw [List.flatMap_cons, List.cons_append, List.cons_append, List.append_assoc]
      have hrest := hothers.1.identifierStart_append (ih hothers.2)
      exact identifierPart_cons_iff.2 (.inr (.inr ⟨rfl, hrest⟩))

/-- An identifier ends in no point. -/
theorem identifier_getLast? (text : List Char) :
    (identifierPart text = true → text.getLast? ≠ some '.') ∧
      (identifierStart text = true → text.getLast? ≠ some '.') := by
  have hpoint : isIdentifierRest '.' = false := by decide
  induction text with
  | nil => simp
  | cons c rest ih =>
      have hlast : c ≠ '.' → rest.getLast? ≠ some '.' → (c :: rest).getLast? ≠ some '.' := by
        intro hc hrest
        cases hlast : rest.getLast? with
        | none => simpa [List.getLast?_cons, hlast] using hc
        | some last => simpa [List.getLast?_cons, hlast] using hrest
      have hne : isIdentifierRest c = true → c ≠ '.' := by
        rintro hc rfl
        simp [hpoint] at hc
      constructor
      · intro h
        rcases identifierPart_cons_iff.1 h with ⟨rfl, rfl⟩ | ⟨hc, hrest⟩ | ⟨rfl, hrest⟩
        · decide
        · exact hlast (hne hc) (ih.1 hrest)
        · cases rest with
          | nil => simp [identifierStart] at hrest
          | cons first more => simpa [List.getLast?_cons_cons] using ih.2 hrest
      · intro h
        obtain ⟨hc, hrest⟩ := identifierStart_cons_iff.1 h
        exact hlast (hne (Lexeme.isIdentifierRest_of_start hc)) (ih.1 hrest)

/-- What an identifier begins with is one as well unless it ends in a point. A line end comes
last. -/
theorem identifier_of_append {rest : List Char} (front : List Char) :
    (identifierPart (front ++ rest) = true → front.getLast? ≠ some '.' →
      identifierPart front = true ∧ (rest ≠ [] → '\n' ∉ front)) ∧
    (identifierStart (front ++ rest) = true → front ≠ [] → front.getLast? ≠ some '.' →
      identifierStart front = true) := by
  have hline : isIdentifierRest '\n' = false := by decide
  induction front with
  | nil => simp [identifierPart]
  | cons c front ih =>
      have hfront : (c :: front).getLast? ≠ some '.' → front.getLast? ≠ some '.' := by
        intro hlast hfront
        simp [List.getLast?_cons, hfront] at hlast
      constructor
      · intro h hlast
        rw [List.cons_append] at h
        rcases identifierPart_cons_iff.1 h with ⟨rfl, hnil⟩ | ⟨hc, hrest⟩ | ⟨rfl, hrest⟩
        · obtain ⟨rfl, rfl⟩ := List.append_eq_nil_iff.1 hnil
          exact ⟨rfl, by simp⟩
        · obtain ⟨hpart, hlines⟩ := ih.1 hrest (hfront hlast)
          refine ⟨identifierPart_cons_iff.2 (.inr (.inl ⟨hc, hpart⟩)), fun hrest hmem => ?_⟩
          rcases List.mem_cons.1 hmem with rfl | hmem
          · simp [hline] at hc
          · exact hlines hrest hmem
        · have hne : front ≠ [] := by
            rintro rfl
            simp at hlast
          have hstart := ih.2 hrest hne (hfront hlast)
          refine ⟨identifierPart_cons_iff.2 (.inr (.inr ⟨rfl, hstart⟩)), fun hrest' hmem => ?_⟩
          rcases List.mem_cons.1 hmem with hpoint | hmem
          · simp at hpoint
          · exact (ih.1 (identifierPart_of_start hrest) (hfront hlast)).2 hrest' hmem
      · intro h _ hlast
        rw [List.cons_append] at h
        obtain ⟨hc, hrest⟩ := identifierStart_cons_iff.1 h
        exact identifierStart_cons_iff.2 ⟨hc, (ih.1 hrest (hfront hlast)).1⟩

/-- The small letter of a letter is one, and digits and the low line have no other. -/
theorem isIdentifier_toLower {c : Char} (h : isIdentifierRest c = true) :
    isIdentifierRest c.toLower = true ∧
      (isIdentifierStart c = true → isIdentifierStart c.toLower = true) := by
  have hall : ∀ n < 128, isIdentifierRest (Char.ofNat n) = true →
      isIdentifierRest (Char.ofNat n).toLower = true ∧ (isIdentifierStart (Char.ofNat n) = true →
        isIdentifierStart (Char.ofNat n).toLower = true) := by decide +kernel
  have hc := hall c.toNat (toNat_lt_of_isIdentifierRest h)
  rw [Char.ofNat_toNat] at hc
  exact hc h

theorem identifier_map_toLower (text : List Char) :
    (identifierPart text = true → identifierPart (text.map Char.toLower) = true) ∧
      (identifierStart text = true → identifierStart (text.map Char.toLower) = true) := by
  have hline : '\n'.toLower = '\n' := by decide
  have hpoint : '.'.toLower = '.' := by decide
  induction text with
  | nil => exact ⟨id, id⟩
  | cons c rest ih =>
      constructor
      · intro h
        rw [List.map_cons, identifierPart_cons_iff]
        rcases identifierPart_cons_iff.1 h with ⟨rfl, rfl⟩ | ⟨hc, hrest⟩ | ⟨rfl, hrest⟩
        · exact .inl ⟨hline, rfl⟩
        · exact .inr (.inl ⟨(isIdentifier_toLower hc).1, ih.1 hrest⟩)
        · exact .inr (.inr ⟨hpoint, ih.2 hrest⟩)
      · intro h
        rw [identifierStart_cons_iff] at h
        rw [List.map_cons, identifierStart_cons_iff]
        exact ⟨(isIdentifier_toLower (Lexeme.isIdentifierRest_of_start h.1)).2 h.1, ih.1 h.2⟩

theorem IsIdentifier.lowerCase {text : String} (h : IsIdentifier text) :
    IsIdentifier (Text.lowerCase text) := by
  rw [IsIdentifier, h.toList_lowerCase]
  exact (identifier_map_toLower text.toList).2 h

/-- A dimension whose name is an identifier has one for its alias. -/
theorem Dimension.isIdentifier_tableAlias {dimension : Dimension}
    (h : IsIdentifier dimension.name) : IsIdentifier dimension.tableAlias := by
  have hfirst : isIdentifierStart 'd' = true := by decide
  have hsecond : isIdentifierRest '_' = true := by decide
  have hpart := identifierPart_of_start h.lowerCase
  rw [IsIdentifier, tableAlias, String.toList_append]
  exact identifierStart_cons_iff.2
    ⟨hfirst, identifierPart_cons_iff.2 (.inr (.inl ⟨hsecond, hpart⟩))⟩

end StarCube
