import StarCube.Proofs.Cube.Consistent

/-!
Which texts pass for identifiers. A permitted one is of parts with a single point between each two,
and has at most 128 characters. Every permitted text is returned and every other one refused, but
for a permitted text with a line end behind it, which is returned as well.
-/

namespace StarCube

/-- An ASCII letter or the low line. -/
def StartsPart (c : Char) : Prop :=
  ('A' ≤ c ∧ c ≤ 'Z') ∨ ('a' ≤ c ∧ c ≤ 'z') ∨ c = '_'

/-- An ASCII letter, an ASCII digit or the low line. -/
def ContinuesPart (c : Char) : Prop :=
  StartsPart c ∨ ('0' ≤ c ∧ c ≤ '9')

/-- A part of a qualified name. -/
def IsPart (part : String) : Prop :=
  ∃ first rest, part.toList = first :: rest ∧ StartsPart first ∧ ∀ c ∈ rest, ContinuesPart c

/-- One or more parts joined by single points. -/
def IsQualifiedName (text : String) : Prop :=
  ∃ parts : List String, parts ≠ [] ∧ (∀ part ∈ parts, IsPart part) ∧ text = ".".intercalate parts

/-- A text that may be written into a statement: a qualified name of 1 to 128 characters. -/
structure Permitted (text : String) : Prop where
  length_pos : 1 ≤ text.length
  length_le : text.length ≤ 128
  qualified : IsQualifiedName text

/-- A permitted text with a line end behind it, of at most 128 characters with the line end. -/
def EndsLine (text : String) : Prop :=
  ∃ front, Permitted front ∧ front.length ≤ 127 ∧ text = front ++ "\n"

/-- Why a text is no identifier. What is too long is not looked at any further. -/
inductive RefusedFor (what text : String) : IdentifierFault → Prop
  | empty (h : text = "") : RefusedFor what text (.empty what)
  | tooLong (h : 128 < text.length) : RefusedFor what text (.tooLong what text)
  | malformed (hne : text ≠ "") (hlength : text.length ≤ 128) (hname : ¬ IsQualifiedName text)
      (hline : ¬ EndsLine text) : RefusedFor what text (.malformed what text)

/-- A text is returned just if it is permitted, and refused as a wrong value otherwise. -/
structure Judged (what text : String) : Prop where
  returns : requireIdentifier what text = .ok text ↔ Permitted text
  raises : ¬ Permitted text →
    ∃ failure, requireIdentifier what text = .error failure ∧ failure.kind = "ValueError"

/-! ### Parts and names -/

theorem isIdentifierStart_iff {c : Char} : isIdentifierStart c = true ↔ StartsPart c := by
  rw [isIdentifierStart, StartsPart]
  delta Char.isAlpha Char.isUpper Char.isLower
  simp [Char.le_def, or_assoc]

theorem isIdentifierRest_iff {c : Char} : isIdentifierRest c = true ↔ ContinuesPart c := by
  rw [ContinuesPart, ← isIdentifierStart_iff]
  simp [isIdentifierStart, isIdentifierRest, Char.isAlphanum, Char.isDigit, Char.le_def,
    or_right_comm]

theorem isPart_iff {part : String} : IsPart part ↔ IsName part.toList := by
  simp only [IsPart, IsName, isIdentifierStart_iff, isIdentifierRest_iff]

theorem qualified_eq_intercalate (first : List Char) (others : List (List Char)) :
    qualified first others = ['.'].intercalate (first :: others) := by
  induction others generalizing first with
  | nil => simp [qualified]
  | cons other others ih =>
      rw [List.intercalate_cons_cons, ← ih]
      simp [qualified]

theorem isQualifiedName_iff {text : String} :
    IsQualifiedName text ↔ ∃ first others, IsName first ∧ (∀ other ∈ others, IsName other) ∧
      text.toList = qualified first others := by
  constructor
  · rintro ⟨parts, hne, hparts, rfl⟩
    obtain ⟨first, others, rfl⟩ := List.exists_cons_of_ne_nil hne
    rw [List.forall_mem_cons] at hparts
    refine ⟨first.toList, others.map String.toList, isPart_iff.1 hparts.1, ?_, ?_⟩
    · simpa [← isPart_iff] using hparts.2
    · rw [qualified_eq_intercalate, String.toList_intercalate]
      rfl
  · rintro ⟨first, others, hfirst, hothers, htext⟩
    refine ⟨(first :: others).map String.ofList, by simp, ?_, ?_⟩
    · simpa [isPart_iff] using ⟨hfirst, hothers⟩
    · rw [← String.toList_inj, htext, qualified_eq_intercalate, String.toList_intercalate]
      simp

/-! ### What the check accepts -/

theorem isIdentifier_iff {text : String} :
    IsIdentifier text ↔ IsQualifiedName text ∨ ∃ front, IsQualifiedName front ∧
      text = front ++ "\n" := by
  constructor
  · intro h
    obtain ⟨first, others, tail, hfirst, hothers, htail, htext⟩ := h.exists_names
    rcases htail with rfl | rfl
    · exact .inl (isQualifiedName_iff.2 ⟨first, others, hfirst, hothers, by simpa using htext⟩)
    · refine .inr ⟨String.ofList (qualified first others), ?_, ?_⟩
      · exact isQualifiedName_iff.2 ⟨first, others, hfirst, hothers, String.toList_ofList⟩
      · rw [← String.toList_inj, htext]
        simp
  · intro h
    rcases h with h | ⟨front, h, rfl⟩
    · obtain ⟨first, others, hfirst, hothers, htext⟩ := isQualifiedName_iff.1 h
      rw [IsIdentifier, htext]
      simpa using identifierStart_qualified hfirst hothers (.inl rfl)
    · obtain ⟨first, others, hfirst, hothers, hfront⟩ := isQualifiedName_iff.1 h
      rw [IsIdentifier, String.toList_append, hfront]
      exact identifierStart_qualified hfirst hothers (.inr rfl)

namespace IsQualifiedName

variable {text : String}

theorem length_pos (h : IsQualifiedName text) : 1 ≤ text.length := by
  obtain ⟨first, others, hfirst, -, htext⟩ := isQualifiedName_iff.1 h
  have hlength := List.length_pos_iff.2 hfirst.ne_nil
  rw [← String.length_toList, htext, qualified, List.length_append]
  omega

theorem lineEnd_not_mem (h : IsQualifiedName text) : '\n' ∉ text.toList := by
  have hline : isIdentifierRest '\n' = false := by decide
  have hnone {name : List Char} (hname : IsName name) : '\n' ∉ name := by
    intro hmem
    simpa [hline] using hname.rest '\n' hmem
  obtain ⟨first, others, hfirst, hothers, htext⟩ := isQualifiedName_iff.1 h
  rw [htext, qualified, List.mem_append, List.mem_flatMap]
  rintro (hmem | ⟨other, hother, hmem⟩)
  · exact hnone hfirst hmem
  · rcases List.mem_cons.1 hmem with hpoint | hmem
    · exact absurd hpoint (by decide)
    · exact hnone (hothers other hother) hmem

end IsQualifiedName

section Verdict

variable {what text : String}

theorem not_permitted_of_endsLine (h : EndsLine text) : ¬ Permitted text := by
  obtain ⟨front, -, -, rfl⟩ := h
  intro hpermitted
  exact hpermitted.qualified.lineEnd_not_mem (by simp)

theorem acceptable_iff : Acceptable text ↔ Permitted text ∨ EndsLine text := by
  have hline (front : String) : (front ++ "\n").length = front.length + 1 := by
    rw [String.length_append]
    rfl
  constructor
  · rintro ⟨hidentifier, hlength⟩
    rw [identifierLimit] at hlength
    rcases isIdentifier_iff.1 hidentifier with hname | ⟨front, hfront, rfl⟩
    · exact .inl ⟨hname.length_pos, hlength, hname⟩
    · rw [hline] at hlength
      exact .inr ⟨front, ⟨hfront.length_pos, by omega, hfront⟩, by omega, rfl⟩
  · rintro (h | ⟨front, hfront, hlength, rfl⟩)
    · exact ⟨isIdentifier_iff.2 (.inl h.qualified), h.length_le⟩
    · refine ⟨isIdentifier_iff.2 (.inr ⟨front, hfront.qualified, rfl⟩), ?_⟩
      rw [hline, identifierLimit]
      omega

theorem requireIdentifier_eq_ok_self_iff :
    requireIdentifier what text = .ok text ↔ Permitted text ∨ EndsLine text := by
  rw [requireIdentifier_eq_ok_iff, acceptable_iff, and_iff_left rfl]

/-- The reason for a refusal, which is told by the text alone. -/
theorem checkIdentifier_eq_error_iff {fault : IdentifierFault} :
    checkIdentifier what text = .error fault ↔ RefusedFor what text fault := by
  constructor
  · intro h
    unfold checkIdentifier at h
    split at h
    · rename_i hempty
      exact Except.error.inj h ▸ .empty (String.isEmpty_iff.1 hempty)
    split at h
    · rename_i hlong
      exact Except.error.inj h ▸ .tooLong hlong
    split at h
    · cases h
    · rename_i hempty hlong hidentifier
      have hnot : ¬ Acceptable text := fun hacceptable => hidentifier hacceptable.identifier
      rw [acceptable_iff, not_or] at hnot
      have hlength : text.length ≤ 128 := Nat.not_lt.1 hlong
      have hname : ¬ IsQualifiedName text := fun hname =>
        hnot.1 ⟨hname.length_pos, hlength, hname⟩
      have hne : text ≠ "" := fun hnone => hempty (String.isEmpty_iff.2 hnone)
      exact Except.error.inj h ▸ .malformed hne hlength hname hnot.2
  · intro h
    cases h with
    | empty h => simp [checkIdentifier, h]
    | tooLong h =>
        have hne : text ≠ "" := by
          rintro rfl
          simp at h
        simp [checkIdentifier, identifierLimit, hne, h]
    | malformed hne hlength hname hline =>
        have hidentifier : ¬ identifierStart text.toList = true := by
          intro hidentifier
          rcases acceptable_iff.1 ⟨hidentifier, hlength⟩ with hpermitted | hends
          · exact hname hpermitted.qualified
          · exact hline hends
        simp [checkIdentifier, identifierLimit, hne, Nat.not_lt.2 hlength, hidentifier]

theorem requireIdentifier_eq_error_iff {failure : Failure} :
    requireIdentifier what text = .error failure ↔
      ∃ fault, RefusedFor what text fault ∧ failure = .identifier fault := by
  simp only [requireIdentifier, ← checkIdentifier_eq_error_iff]
  cases checkIdentifier what text <;> simp [Except.mapError, eq_comm]

end Verdict

/-- For every text: it is returned just if it is permitted or a permitted one with a line end behind
it, each refusal is for its reason, and so the text is judged as it should be just if it is not of
the latter kind. -/
theorem judged_iff (what text : String) :
    (requireIdentifier what text = .ok text ↔ Permitted text ∨ EndsLine text) ∧
      (∀ failure, requireIdentifier what text = .error failure ↔
        ∃ fault, RefusedFor what text fault ∧ failure = .identifier fault) ∧
      (Judged what text ↔ ¬ EndsLine text) := by
  refine ⟨requireIdentifier_eq_ok_self_iff, fun _ => requireIdentifier_eq_error_iff, ?_⟩
  constructor
  · -- The line end is in no permitted text, and what has it at its end is returned.
    intro hjudged hline
    have hreturned : requireIdentifier what text = .ok text :=
      requireIdentifier_eq_ok_self_iff.2 (.inr hline)
    exact not_permitted_of_endsLine hline (hjudged.returns.1 hreturned)
  · intro hline
    refine ⟨requireIdentifier_eq_ok_self_iff.trans (or_iff_left hline), fun hnot => ?_⟩
    cases houtcome : requireIdentifier what text with
    | error failure =>
        obtain ⟨fault, -, rfl⟩ := requireIdentifier_eq_error_iff.1 houtcome
        exact ⟨_, rfl, rfl⟩
    | ok checked =>
        obtain ⟨hacceptable, -⟩ := requireIdentifier_eq_ok_iff.1 houtcome
        exact absurd (acceptable_iff.1 hacceptable) (by simp [hnot, hline])

/-- The name of a table with a line end behind it is no qualified name, and is returned. -/
theorem facts_lineEnd_not_judged :
    requireIdentifier "fact table" "facts\n" = .ok "facts\n" ∧ ¬ Judged "fact table" "facts\n" := by
  have hreturned : requireIdentifier "fact table" "facts\n" = .ok "facts\n" := rfl
  refine ⟨hreturned, fun hjudged => ?_⟩
  have hpermitted := hjudged.returns.1 hreturned
  exact hpermitted.qualified.lineEnd_not_mem (by decide)

end StarCube
