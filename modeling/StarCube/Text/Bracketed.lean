/-!
Names between brackets. A name ends at the first closing bracket and has at least one character.
-/

namespace StarCube.Text

/-- What follows one given character. -/
def afterCharacter (expected : Char) : List Char → Option (List Char)
  | [] => none
  | c :: rest => if c = expected then some rest else none

/-- The bracketed name at the front of a text, with what follows it. -/
def bracketed? (text : List Char) : Option (List Char × List Char) :=
  (afterCharacter '[' text).bind fun inner =>
    let name := inner.takeWhile (· != ']')
    if name.isEmpty then none
    else (afterCharacter ']' (inner.dropWhile (· != ']'))).map fun rest => (name, rest)

theorem afterCharacter_length {expected : Char} {text rest : List Char}
    (h : afterCharacter expected text = some rest) : rest.length < text.length := by
  cases text with
  | nil => simp [afterCharacter] at h
  | cons c tail =>
      simp only [afterCharacter] at h
      split at h <;> simp_all

theorem bracketed?_length {text rest name : List Char}
    (h : bracketed? text = some (name, rest)) : rest.length < text.length := by
  obtain ⟨inner, hinner, h⟩ := Option.bind_eq_some_iff.1 h
  have hopen := afterCharacter_length hinner
  simp only at h
  split at h
  · simp at h
  · obtain ⟨after, hafter, heq⟩ := Option.map_eq_some_iff.1 h
    have hclose := afterCharacter_length hafter
    have hdrop := (List.dropWhile_suffix (l := inner) (· != ']')).length_le
    obtain ⟨-, rfl⟩ := Prod.mk.inj heq
    omega

/-- All bracketed names of a text; what stands between them is passed over. -/
def bracketedNames (text : List Char) : List (List Char) :=
  match text with
  | [] => []
  | c :: rest =>
      match h : bracketed? (c :: rest) with
      | none => bracketedNames rest
      | some (name, after) =>
          have := bracketed?_length h
          name :: bracketedNames after
termination_by text.length
decreasing_by
  · exact Nat.lt_succ_self rest.length
  · exact this

end StarCube.Text
