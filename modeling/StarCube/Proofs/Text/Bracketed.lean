import Mathlib.Data.List.Basic
import Mathlib.Data.List.Forall2
import Mathlib.Data.List.TakeWhile
import StarCube.Text.Bracketed
import StarCube.Text.Character

/-!
What stands at the front of a text: a character, a keyword or a bracketed name. Each is told by how
the text is put together, and so are all bracketed names of a text.
-/

namespace StarCube.Text

theorem afterCharacter_eq_some_iff {expected : Char} {text rest : List Char} :
    afterCharacter expected text = some rest ↔ text = expected :: rest := by
  cases text with
  | nil => simp [afterCharacter]
  | cons c tail => by_cases h : c = expected <;> simp [afterCharacter, h]

theorem afterKeyword_eq_some_iff {keyword text after : List Char} :
    afterKeyword keyword text = some after ↔
      ∃ front, text = front ++ after ∧
        List.Forall₂ (fun c small => isLetterForm small c = true) front keyword := by
  induction keyword generalizing text with
  | nil => simp [afterKeyword]
  | cons small smalls ih =>
      cases text with
      | nil => simp [afterKeyword]
      | cons c rest =>
          rw [afterKeyword]
          constructor
          · intro h
            split at h
            · rename_i hc
              obtain ⟨front, rfl, hfront⟩ := ih.1 h
              exact ⟨c :: front, rfl, .cons hc hfront⟩
            · cases h
          · rintro ⟨front, htext, hfront⟩
            cases hfront with
            | @cons d _ front _ hd hfront =>
                obtain ⟨rfl, rfl⟩ := List.cons.inj htext
                rw [if_pos hd]
                exact ih.2 ⟨front, rfl, hfront⟩

/-- A name that ends at its first closing bracket is cut off there. -/
theorem span_name {name : List Char} (h : ']' ∉ name) (rest : List Char) :
    (name ++ ']' :: rest).takeWhile (· != ']') = name ∧
      (name ++ ']' :: rest).dropWhile (· != ']') = ']' :: rest := by
  have hname : ∀ c ∈ name, (c != ']') = true := fun c hc => by
    rw [bne_iff_ne]
    rintro rfl
    exact h hc
  constructor
  · rw [List.takeWhile_append_of_pos hname, List.takeWhile_cons_of_neg (by simp), List.append_nil]
  · rw [List.dropWhile_append_of_pos hname, List.dropWhile_cons_of_neg (by simp)]

/-- A name and what follows it are told by the text. -/
theorem name_inj {name name' rest rest' : List Char} (h : ']' ∉ name) (h' : ']' ∉ name')
    (heq : name ++ ']' :: rest = name' ++ ']' :: rest') : name = name' ∧ rest = rest' := by
  have hname := congrArg (List.takeWhile (· != ']')) heq
  rw [(span_name h rest).1, (span_name h' rest').1] at hname
  subst hname
  exact ⟨rfl, (List.cons.inj (List.append_cancel_left heq)).2⟩

/-- A bracketed name is at the front of a text that starts with a bracket, and it ends at the first
closing one. -/
theorem bracketed?_eq_some_iff {text name rest : List Char} :
    bracketed? text = some (name, rest) ↔
      text = '[' :: (name ++ ']' :: rest) ∧ name ≠ [] ∧ ']' ∉ name := by
  constructor
  · intro h
    obtain ⟨inner, hinner, hfound⟩ := Option.bind_eq_some_iff.1 h
    rw [afterCharacter_eq_some_iff.1 hinner]
    simp only at hfound
    split at hfound
    · cases hfound
    · rename_i hne
      obtain ⟨after, hafter, heq⟩ := Option.map_eq_some_iff.1 hfound
      obtain ⟨hname, rfl⟩ := Prod.mk.inj heq
      rw [afterCharacter_eq_some_iff] at hafter
      have hsplit := List.takeWhile_append_dropWhile (p := (· != ']')) (l := inner)
      rw [hname] at hne hsplit
      refine ⟨by rw [← hsplit, hafter], by simpa using hne, fun hmem => ?_⟩
      rw [← hname] at hmem
      simpa using List.mem_takeWhile_imp hmem
  · rintro ⟨rfl, hne, hclosed⟩
    obtain ⟨htake, hdrop⟩ := span_name hclosed rest
    simp only [bracketed?, afterCharacter, if_true, Option.bind_some, htake, hdrop]
    simp [hne]

@[simp]
theorem bracketedNames_nil : bracketedNames [] = [] := by
  rw [bracketedNames]

theorem bracketedNames_of_none {c : Char} {rest : List Char} (h : bracketed? (c :: rest) = none) :
    bracketedNames (c :: rest) = bracketedNames rest := by
  rw [bracketedNames]
  split <;> simp_all

theorem bracketedNames_of_some {text name rest : List Char}
    (h : bracketed? text = some (name, rest)) :
    bracketedNames text = name :: bracketedNames rest := by
  obtain ⟨rfl, -, -⟩ := bracketed?_eq_some_iff.1 h
  rw [bracketedNames]
  split <;> simp_all

/-- There are no names where no bracket is closed. -/
theorem bracketedNames_of_unclosed {text : List Char} (h : ']' ∉ text) :
    bracketedNames text = [] := by
  induction text with
  | nil => exact bracketedNames_nil
  | cons c rest ih =>
      have hnone : bracketed? (c :: rest) = none := by
        cases hfound : bracketed? (c :: rest) with
        | none => rfl
        | some found =>
            obtain ⟨htext, -, -⟩ := bracketed?_eq_some_iff.1 hfound
            rw [htext] at h
            simp at h
      rw [bracketedNames_of_none hnone]
      exact ih fun hmem => h (List.mem_cons_of_mem c hmem)

end StarCube.Text
