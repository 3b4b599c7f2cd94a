import StarCube.Proofs.Sql.Identifier

/-!
The tokens of statement text: words and symbols, with blanks between them that count for nothing.
Texts that are written one after the other have the tokens of both, if no word goes on from one into
the other.
-/

namespace StarCube

/-- A token of statement text. -/
inductive SqlToken where
  | word (letters : List Char)
  | symbol (c : Char)
deriving DecidableEq, Repr

namespace SqlToken

def point : SqlToken := .symbol '.'

/-- The word that ends where no letter follows; no letters are no word. -/
def finished (letters : List Char) : List SqlToken :=
  if letters = [] then [] else [.word letters]

/-- The token of a character that belongs to no word; a blank has none. -/
def single (c : Char) : List SqlToken :=
  if c.isWhitespace then [] else [.symbol c]

/-- The tokens of a text that goes on with a word. -/
def scanFrom (letters : List Char) : List Char → List SqlToken
  | [] => finished letters
  | c :: rest =>
      if isIdentifierRest c then scanFrom (letters ++ [c]) rest
      else finished letters ++ single c ++ scanFrom [] rest

end SqlToken

/-- The tokens of a text. -/
def sqlTokens (text : String) : List SqlToken :=
  SqlToken.scanFrom [] text.toList

namespace SqlToken

/-- A text does not start with a character of a word. -/
def Starting (text : List Char) : Prop :=
  ∀ c ∈ text.head?, isIdentifierRest c = false

/-- A text does not end with a character of a word. -/
def Ending (text : List Char) : Prop :=
  ∀ c ∈ text.getLast?, isIdentifierRest c = false

theorem scanFrom_of_starting {text : List Char} (h : Starting text) (letters : List Char) :
    scanFrom letters text = finished letters ++ scanFrom [] text := by
  cases text with
  | nil => simp [scanFrom, finished]
  | cons c rest =>
      have hc : isIdentifierRest c = false := h c rfl
      simp [scanFrom, hc, finished]

theorem scanFrom_append_of_starting {right : List Char} (h : Starting right)
    (left letters : List Char) :
    scanFrom letters (left ++ right) = scanFrom letters left ++ scanFrom [] right := by
  induction left generalizing letters with
  | nil => exact scanFrom_of_starting h letters
  | cons c left ih =>
      rw [List.cons_append, scanFrom, scanFrom]
      by_cases hc : isIdentifierRest c = true
      · rw [if_pos hc, if_pos hc, ih]
      · rw [if_neg hc, if_neg hc, ih]
        simp only [List.append_assoc]

/-- A run of letters goes on with the word. -/
theorem scanFrom_append_letters {run : List Char} (h : ∀ c ∈ run, isIdentifierRest c = true)
    (letters rest : List Char) :
    scanFrom letters (run ++ rest) = scanFrom (letters ++ run) rest := by
  induction run generalizing letters with
  | nil => rw [List.nil_append, List.append_nil]
  | cons c run ih =>
      rw [List.forall_mem_cons] at h
      rw [List.cons_append, scanFrom, if_pos h.1, ih h.2, List.append_assoc, List.singleton_append]

theorem scanFrom_append_of_ending {left : List Char} (h : Ending left) (right : List Char) :
    scanFrom [] (left ++ right) = scanFrom [] left ++ scanFrom [] right := by
  rcases List.eq_nil_or_concat left with rfl | ⟨front, c, rfl⟩
  · rfl
  · have hc : isIdentifierRest c = false := h c (by simp)
    have hstarting (text : List Char) : Starting (c :: text) := by
      intro d hd
      obtain rfl : c = d := by simpa using hd
      exact hc
    have hright : scanFrom [] (c :: right) = scanFrom [] [c] ++ scanFrom [] right := by
      simp [scanFrom, hc, finished]
    rw [List.concat_eq_append, List.append_assoc, List.singleton_append,
      scanFrom_append_of_starting (hstarting right), scanFrom_append_of_starting (hstarting []),
      hright, List.append_assoc]

end SqlToken

open SqlToken

instance (text : List Char) : Decidable (Starting text) :=
  Option.decidableForallMem text.head?

instance (text : List Char) : Decidable (Ending text) :=
  Option.decidableForallMem text.getLast?

theorem sqlTokens_append_of_starting {right : String} (h : Starting right.toList) (left : String) :
    sqlTokens (left ++ right) = sqlTokens left ++ sqlTokens right := by
  rw [sqlTokens, String.toList_append, scanFrom_append_of_starting h]
  rfl

theorem sqlTokens_append_of_ending {left : String} (h : Ending left.toList) (right : String) :
    sqlTokens (left ++ right) = sqlTokens left ++ sqlTokens right := by
  rw [sqlTokens, String.toList_append, scanFrom_append_of_ending h]
  rfl

/-- A text keeps apart what is written before it and after it. -/
structure Parting (text : String) : Prop where
  nonempty : text.toList ≠ []
  starting : Starting text.toList
  ending : Ending text.toList

instance (text : String) : Decidable (Parting text) :=
  decidable_of_iff (text.toList ≠ [] ∧ Starting text.toList ∧ Ending text.toList)
    ⟨fun ⟨h1, h2, h3⟩ => ⟨h1, h2, h3⟩, fun ⟨h1, h2, h3⟩ => ⟨h1, h2, h3⟩⟩

theorem Parting.sqlTokens_append {middle : String} (h : Parting middle) (left right : String) :
    sqlTokens (left ++ middle ++ right) =
      sqlTokens left ++ sqlTokens middle ++ sqlTokens right := by
  have hstarting : Starting (middle ++ right).toList := by
    intro c hc
    apply h.starting c
    rwa [String.toList_append, List.head?_append_of_ne_nil _ h.nonempty] at hc
  rw [String.append_assoc, sqlTokens_append_of_starting hstarting,
    sqlTokens_append_of_ending h.ending, List.append_assoc]

/-- Texts with a separator between each two have the tokens of each, and those of the separator
between them. -/
theorem Parting.sqlTokens_intercalate {separator : String} (h : Parting separator) (first : String)
    (others : List String) :
    sqlTokens (separator.intercalate (first :: others)) =
      sqlTokens first ++ others.flatMap fun other => sqlTokens separator ++ sqlTokens other := by
  induction others generalizing first with
  | nil => simp
  | cons next others ih =>
      rw [String.intercalate_cons_cons, h.sqlTokens_append, ih, List.flatMap_cons]
      simp only [List.append_assoc]

/-- A name without points. -/
def Undotted (text : String) : Prop :=
  '.' ∉ text.toList

instance (text : String) : Decidable (Undotted text) :=
  inferInstanceAs (Decidable ('.' ∉ text.toList))

/-- The names of an identifier after its first, each behind a point. -/
def pointed (names : List (List Char)) : List SqlToken :=
  names.flatMap fun name => [point, .word name]

theorem scanFrom_qualified {others : List (List Char)} (hothers : ∀ other ∈ others, IsName other)
    {tail : List Char} (htail : tail = [] ∨ tail = ['\n']) {letters : List Char}
    (hletters : letters ≠ []) :
    scanFrom letters ((others.flatMap fun other => '.' :: other) ++ tail) =
      .word letters :: pointed others := by
  have hpoint : isIdentifierRest '.' = false := by decide
  have hline : isIdentifierRest '\n' = false := by decide
  induction others generalizing letters with
  | nil =>
      rcases htail with rfl | rfl
      · simp [scanFrom, finished, pointed, hletters]
      · simp [scanFrom, finished, single, pointed, hletters, hline]
  | cons other others ih =>
      rw [List.forall_mem_cons] at hothers
      rw [List.flatMap_cons, List.cons_append, List.cons_append, List.append_assoc, scanFrom,
        if_neg (by simp [hpoint]), scanFrom_append_letters hothers.1.rest, List.nil_append,
        ih hothers.2 hothers.1.ne_nil]
      simp [finished, single, pointed, point, hletters]

theorem not_mem_point_iff {first tail : List Char} {others : List (List Char)}
    (hfirst : IsName first) (htail : tail = [] ∨ tail = ['\n']) :
    '.' ∉ qualified first others ++ tail ↔ others = [] := by
  constructor
  · intro h
    cases others with
    | nil => rfl
    | cons other others => simp [qualified] at h
  · rintro rfl hmem
    rw [qualified, List.flatMap_nil, List.append_nil, List.mem_append] at hmem
    rcases hmem with hmem | hmem
    · exact absurd (hfirst.rest '.' hmem) (by decide)
    · rcases htail with rfl | rfl
      · simp at hmem
      · simp at hmem

/-- An identifier has its names for tokens, with a point between each two. -/
theorem IsIdentifier.exists_sqlTokens {text : String} (h : IsIdentifier text) :
    ∃ first others, IsName first ∧ (∀ other ∈ others, IsName other) ∧
      sqlTokens text = .word first :: pointed others ∧ (Undotted text ↔ others = []) := by
  obtain ⟨first, others, tail, hfirst, hothers, htail, htext⟩ := h.exists_names
  refine ⟨first, others, hfirst, hothers, ?_, ?_⟩
  · rw [sqlTokens, htext, qualified, List.append_assoc, scanFrom_append_letters hfirst.rest,
      List.nil_append, scanFrom_qualified hothers htail hfirst.ne_nil]
  · rw [Undotted, htext]
    exact not_mem_point_iff hfirst htail

end StarCube
