import Mathlib.Computability.Language
import Mathlib.Order.CompletePartialOrder
import StarCube.Proofs.Sql.Tokens
import StarCube.Sql.Statement

/-!
The grammar of statements over the facts, and how text that is put together piece by piece is told
to belong to it. The next token decides how a text is read, so a piece fits its part of the grammar
or does not, whichever way the text and the grammar go on.
-/

namespace StarCube

open Computability

namespace SqlToken

def comma : SqlToken := .symbol ','

def left : SqlToken := .word "LEFT".toList

def and : SqlToken := .word "AND".toList

end SqlToken

/-- Sequences of tokens. -/
abbrev SqlLanguage := Language SqlToken

namespace SqlLanguage

def exactly (token : SqlToken) : SqlLanguage :=
  {[token]}

/-- The tokens of a text and no others. -/
def written (text : String) : SqlLanguage :=
  {sqlTokens text}

/-- A name, which has no points. -/
def name : SqlLanguage :=
  {tokens | ∃ letters, IsName letters ∧ tokens = [.word letters]}

/-- Names with points between them. Only a table may be named so. -/
def table : SqlLanguage :=
  name * (exactly .point * name)∗

/-- A column of an alias. -/
def column : SqlLanguage :=
  name * (exactly .point * name)

/-- One part or more, with a separator between each two. -/
def listed (separator : SqlToken) (part : SqlLanguage) : SqlLanguage :=
  part * (exactly separator * part)∗

/-- The text of an aggregate before its column. -/
def opening : Aggregation → String
  | .sum => "SUM("
  | .avg => "AVG("
  | .count => "COUNT("
  | .min => "MIN("
  | .max => "MAX("
  | .countDistinct => "COUNT(DISTINCT "

def aggregate : SqlLanguage :=
  ⨆ aggregation, written (opening aggregation) * (column * written ")")

/-- An item of the select list. -/
def item : SqlLanguage :=
  (aggregate + column) * (written "AS" * name)

/-- What follows LEFT in a join of the facts with a table under an alias. -/
def joined (tableAlias : SqlToken) : SqlLanguage :=
  written "JOIN" * (table * (exactly tableAlias * (written "ON fact." * (name *
    (written "=" * (exactly tableAlias * (written "." * name)))))))

def join : SqlLanguage :=
  ⨆ letters : { letters // IsName letters }, joined (.word letters)

def condition : SqlLanguage :=
  column * written "= ?" +
    (column * (written "IN (" * (listed .comma (written "?") * written ")")) + written "1 = 0")

def restriction : SqlLanguage :=
  1 + written "WHERE" * listed .and condition

def grouping : SqlLanguage :=
  1 + written "GROUP BY" * (listed .comma column *
    (written "ORDER BY" * listed .comma column))

/-- A statement over the facts. -/
def statement : SqlLanguage :=
  written "SELECT" * (listed .comma item * (written "FROM" * (table * (written "fact" *
    ((exactly .left * join)∗ * (restriction * grouping))))))

end SqlLanguage

/-- A text is a sentence of the grammar. -/
def IsSentence (text : String) : Prop :=
  sqlTokens text ∈ SqlLanguage.statement

open SqlLanguage

/-- Tokens do not start with any of some. -/
def Clear (blocked tokens : List SqlToken) : Prop :=
  ∀ token ∈ blocked, tokens.head? ≠ some token

instance (blocked tokens : List SqlToken) : Decidable (Clear blocked tokens) :=
  inferInstanceAs (Decidable (∀ token ∈ blocked, tokens.head? ≠ some token))

/-- No member of a language starts with any of some tokens. -/
def ClearAll (blocked : List SqlToken) (language : SqlLanguage) : Prop :=
  ∀ tokens ∈ language, Clear blocked tokens

/-- Tokens fit a part of the grammar just if a condition holds, whatever follows the tokens and the
part, as long as neither goes on with a blocked token. -/
def Fits (part : SqlLanguage) (blocked tokens : List SqlToken) (good : Prop) : Prop :=
  ∀ ⦃rest : List SqlToken⦄ ⦃language : SqlLanguage⦄, Clear blocked rest →
    ClearAll blocked language → (tokens ++ rest ∈ part * language ↔ good ∧ rest ∈ language)

section Starts

variable {blocked tokens rest : List SqlToken} {token : SqlToken} {language : SqlLanguage}

theorem clear_cons_iff : Clear blocked (token :: rest) ↔ token ∉ blocked := by
  simp only [Clear, List.head?_cons, ne_eq, Option.some.injEq]
  exact ⟨fun h hmem => h token hmem rfl, fun h other hother heq => h (heq ▸ hother)⟩

theorem clear_nil : Clear blocked [] := by
  simp [Clear]

theorem clear_append (hne : tokens ≠ []) (h : Clear blocked tokens) :
    Clear blocked (tokens ++ rest) := by
  obtain ⟨token, others, rfl⟩ := List.exists_cons_of_ne_nil hne
  exact clear_cons_iff.2 (clear_cons_iff.1 h)

theorem Clear.of_cons (h : Clear (token :: blocked) tokens) : Clear blocked tokens :=
  fun other hother => h other (List.mem_cons_of_mem token hother)

theorem ClearAll.of_cons (h : ClearAll (token :: blocked) language) : ClearAll blocked language :=
  fun tokens htokens => (h tokens htokens).of_cons

theorem mem_exactly_mul : tokens ∈ exactly token * language ↔
    ∃ rest ∈ language, tokens = token :: rest := by
  rw [Language.mem_mul]
  constructor
  · rintro ⟨_, rfl, rest, hrest, rfl⟩
    exact ⟨rest, hrest, rfl⟩
  · rintro ⟨rest, hrest, rfl⟩
    exact ⟨[token], rfl, rest, hrest, rfl⟩

theorem cons_mem_exactly_mul {other : SqlToken} :
    token :: rest ∈ exactly other * language ↔ token = other ∧ rest ∈ language := by
  rw [mem_exactly_mul]
  constructor
  · rintro ⟨found, hfound, heq⟩
    obtain ⟨rfl, rfl⟩ := List.cons.inj heq
    exact ⟨rfl, hfound⟩
  · rintro ⟨rfl, hrest⟩
    exact ⟨rest, hrest, rfl⟩

theorem mem_written_mul {text : String} : tokens ∈ written text * language ↔
    ∃ rest ∈ language, tokens = sqlTokens text ++ rest := by
  rw [Language.mem_mul]
  constructor
  · rintro ⟨_, rfl, rest, hrest, rfl⟩
    exact ⟨rest, hrest, rfl⟩
  · rintro ⟨rest, hrest, rfl⟩
    exact ⟨_, rfl, rest, hrest, rfl⟩

theorem append_mem_written_mul {text : String} :
    sqlTokens text ++ rest ∈ written text * language ↔ rest ∈ language := by
  rw [mem_written_mul]
  constructor
  · rintro ⟨found, hfound, heq⟩
    rwa [List.append_cancel_left heq]
  · exact fun hrest => ⟨rest, hrest, rfl⟩

theorem clearAll_exactly_mul (h : token ∉ blocked) :
    ClearAll blocked (exactly token * language) := by
  intro tokens htokens
  obtain ⟨rest, -, rfl⟩ := mem_exactly_mul.1 htokens
  exact clear_cons_iff.2 h

theorem clearAll_written_mul {text : String} (hne : sqlTokens text ≠ [])
    (h : Clear blocked (sqlTokens text)) : ClearAll blocked (written text * language) := by
  intro tokens htokens
  obtain ⟨rest, -, rfl⟩ := mem_written_mul.1 htokens
  exact clear_append hne h

theorem mem_name_mul : tokens ∈ name * language ↔
    ∃ letters, IsName letters ∧ ∃ rest ∈ language, tokens = .word letters :: rest := by
  rw [Language.mem_mul]
  constructor
  · rintro ⟨_, ⟨letters, hletters, rfl⟩, rest, hrest, rfl⟩
    exact ⟨letters, hletters, rest, hrest, rfl⟩
  · rintro ⟨letters, hletters, rest, hrest, rfl⟩
    exact ⟨_, ⟨letters, hletters, rfl⟩, rest, hrest, rfl⟩

theorem cons_mem_name_mul {letters : List Char} :
    .word letters :: rest ∈ name * language ↔ IsName letters ∧ rest ∈ language := by
  rw [mem_name_mul]
  constructor
  · rintro ⟨other, hother, found, hfound, heq⟩
    obtain ⟨rfl, rfl⟩ : letters = other ∧ rest = found := by simpa using heq
    exact ⟨hother, hfound⟩
  · rintro ⟨hletters, hrest⟩
    exact ⟨letters, hletters, rest, hrest, rfl⟩

/-- A repeated part comes once more or is over. -/
theorem mem_kstar_mul_iff {part : SqlLanguage} :
    tokens ∈ part∗ * language ↔ tokens ∈ language ∨ tokens ∈ part * (part∗ * language) := by
  conv_lhs => rw [← Language.one_add_self_mul_kstar_eq_kstar]
  rw [add_mul, one_mul, mul_assoc, Language.mem_add]

end Starts

section Parts

variable {part next : SqlLanguage} {blocked tokens after : List SqlToken} {start : SqlToken}
  {good other : Prop}

theorem Fits.congr (h : Fits part blocked tokens good) (hgood : good ↔ other) :
    Fits part blocked tokens other := by
  intro rest language hrest hlanguage
  rw [← hgood]
  exact h hrest hlanguage

theorem fits_written (text : String) : Fits (written text) [] (sqlTokens text) True := by
  intro rest language _ _
  rw [append_mem_written_mul, true_and]

/-- A part behind words that are always there. -/
theorem fits_behind (text : String) (h : Fits part blocked tokens good) :
    Fits (written text * part) blocked (sqlTokens text ++ tokens) good := by
  intro rest language hrest hlanguage
  rw [mul_assoc, List.append_assoc, append_mem_written_mul, h hrest hlanguage]

/-- A part before words with which it cannot go on. -/
theorem fits_before (text : String) {others : List SqlToken} (h : Fits part blocked tokens good)
    (hnext : Fits next others after other) (hne : sqlTokens text ≠ [])
    (htext : Clear blocked (sqlTokens text)) :
    Fits (part * (written text * next)) others (tokens ++ (sqlTokens text ++ after))
      (good ∧ other) := by
  intro rest language hrest hlanguage
  simp only [mul_assoc, List.append_assoc]
  rw [h (clear_append hne htext) (clearAll_written_mul hne htext), append_mem_written_mul,
    hnext hrest hlanguage, and_assoc]

/-- A part that may be left out is not there if what follows starts otherwise. -/
theorem fits_omitted (hpart : ∀ tokens ∈ part, tokens.head? = some start) :
    Fits (1 + part) (start :: blocked) [] True := by
  intro rest language hrest _
  have hnone : rest ∉ part * language := by
    rintro ⟨found, hfound, others, -, rfl⟩
    apply hrest start List.mem_cons_self
    rw [List.head?_append, hpart found hfound]
    rfl
  rw [List.nil_append, add_mul, one_mul, Language.mem_add, or_iff_left hnone, true_and]

/-- A part that may be left out is there if the tokens start as it does. -/
theorem fits_present (h : Fits part blocked tokens good) (hstart : tokens.head? = some start) :
    Fits (1 + part) (start :: blocked) tokens good := by
  intro rest language hrest hlanguage
  have hnone : tokens ++ rest ∉ language := by
    intro hmem
    apply hlanguage _ hmem start List.mem_cons_self
    rw [List.head?_append, hstart]
    rfl
  rw [add_mul, one_mul, Language.mem_add, or_iff_right hnone, h hrest.of_cons hlanguage.of_cons]

theorem clearAll_omissible_mul {language : SqlLanguage}
    (hpart : ∀ tokens ∈ part, tokens.head? = some start) (hstart : start ∉ blocked)
    (h : ClearAll blocked language) : ClearAll blocked ((1 + part) * language) := by
  intro tokens htokens
  rw [add_mul, one_mul, Language.mem_add] at htokens
  rcases htokens with hmem | ⟨found, hfound, others, -, rfl⟩
  · exact h tokens hmem
  · intro token htoken hhead
    rw [List.head?_append, hpart found hfound] at hhead
    obtain rfl : start = token := by simpa using hhead
    exact hstart htoken

end Parts

section Lists

variable {α : Type} {part : SqlLanguage} {blocked : List SqlToken} {separator : SqlToken}
  {form : α → List SqlToken} {good : α → Prop}

theorem clear_others (hseparator : separator ∉ blocked) (elements : List α) {rest : List SqlToken}
    (hrest : Clear blocked rest) :
    Clear blocked ((elements.flatMap fun element => separator :: form element) ++ rest) := by
  cases elements with
  | nil => simpa using hrest
  | cons element elements =>
      rw [List.flatMap_cons, List.cons_append, List.cons_append]
      exact clear_cons_iff.2 hseparator

theorem clearAll_kstar_mul (hseparator : separator ∉ blocked) {language : SqlLanguage}
    (h : ClearAll blocked language) :
    ClearAll blocked ((exactly separator * part)∗ * language) := by
  intro tokens htokens
  rcases mem_kstar_mul_iff.1 htokens with hlast | hmore
  · exact h tokens hlast
  · rw [mul_assoc] at hmore
    exact clearAll_exactly_mul hseparator tokens hmore

/-- Parts that each have the separator in front are read one by one. -/
theorem fits_others (hseparator : separator ∉ blocked) {elements : List α}
    (h : ∀ element ∈ elements, Fits part blocked (form element) (good element)) :
    Fits (exactly separator * part)∗ (separator :: blocked)
      (elements.flatMap fun element => separator :: form element)
      (∀ element ∈ elements, good element) := by
  intro rest language hrest hlanguage
  have hhead {other : List SqlToken} (hother : Clear (separator :: blocked) other) :
      other ∉ exactly separator * (part * ((exactly separator * part)∗ * language)) := by
    intro hmem
    obtain ⟨after, -, rfl⟩ := mem_exactly_mul.1 hmem
    exact clear_cons_iff.1 hother List.mem_cons_self
  induction elements with
  | nil =>
      rw [List.flatMap_nil, List.nil_append, mem_kstar_mul_iff, mul_assoc]
      simp [hhead hrest]
  | cons element elements ih =>
      rw [List.forall_mem_cons] at h
      have hothers : (elements.flatMap fun element => separator :: form element) ++ rest ∈
          (exactly separator * part)∗ * language ↔
            (∀ element ∈ elements, good element) ∧ rest ∈ language := ih h.2
      have hmore : form element ++
          ((elements.flatMap fun element => separator :: form element) ++ rest) ∈
          part * ((exactly separator * part)∗ * language) ↔ good element ∧
            (elements.flatMap fun element => separator :: form element) ++ rest ∈
              (exactly separator * part)∗ * language :=
        h.1 (clear_others hseparator elements hrest.of_cons)
          (clearAll_kstar_mul hseparator hlanguage.of_cons)
      have hlast : separator :: (form element ++
          ((elements.flatMap fun element => separator :: form element) ++ rest)) ∉ language := by
        intro hmem
        exact clear_cons_iff.1 (hlanguage _ hmem) List.mem_cons_self
      rw [List.flatMap_cons, List.cons_append, List.cons_append, List.append_assoc,
        mem_kstar_mul_iff, mul_assoc, or_iff_right hlast, cons_mem_exactly_mul, hmore, hothers,
        List.forall_mem_cons, and_assoc]
      simp

theorem fits_listed (hseparator : separator ∉ blocked) {first : α} {others : List α}
    (h : ∀ element ∈ first :: others, Fits part blocked (form element) (good element)) :
    Fits (listed separator part) (separator :: blocked)
      (form first ++ others.flatMap fun element => separator :: form element)
      (∀ element ∈ first :: others, good element) := by
  intro rest language hrest hlanguage
  rw [List.forall_mem_cons] at h
  rw [listed, mul_assoc, List.append_assoc,
    h.1 (clear_others hseparator others hrest.of_cons)
      (clearAll_kstar_mul hseparator hlanguage.of_cons),
    fits_others hseparator h.2 hrest hlanguage, List.forall_mem_cons, and_assoc]

end Lists

end StarCube
