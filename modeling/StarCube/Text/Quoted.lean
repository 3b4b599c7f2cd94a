/-!
Texts between quotes in which a doubled quote stands for one. The end of a text is its first
quote that is not doubled; if there is none before the line or the input ends, the text ends at the
first quote of its last doubled pair.
-/

namespace StarCube.Text

/-- The body of a quoted text and what follows its closing quote; none if no quote closes it.
Characters that satisfy `stop` may not occur in the body. -/
def closeQuoted (quote : Char) (stop : Char → Bool) :
    List Char → Option (List Char × List Char)
  | [] => none
  | c :: rest =>
      if c = quote then
        match rest with
        | next :: tail =>
            if next = quote then
              match closeQuoted quote stop tail with
              | some (body, after) => some (quote :: quote :: body, after)
              | none => some ([], rest)
            else some ([], rest)
        | [] => some ([], [])
      else if stop c then none
      else (closeQuoted quote stop rest).map fun found => (c :: found.1, found.2)

/-- Nothing is lost: the body, a quote and the rest are the whole. -/
theorem closeQuoted_append {quote : Char} {stop : Char → Bool} {text body after : List Char}
    (h : closeQuoted quote stop text = some (body, after)) : text = body ++ quote :: after := by
  fun_induction closeQuoted quote stop text generalizing body after with
  | case1 => simp at h
  | case2 tail found rest hfound ih =>
      obtain ⟨rfl, rfl⟩ : quote :: quote :: found = body ∧ rest = after := by simpa using h
      simp [ih hfound]
  | case3 => simp_all
  | case4 => simp_all
  | case5 => simp_all
  | case6 => simp at h
  | case7 c rest hc hstop ih =>
      obtain ⟨found, hfound, heq⟩ := Option.map_eq_some_iff.1 h
      obtain ⟨rfl, rfl⟩ : c :: found.1 = body ∧ found.2 = after := by simpa using heq
      simpa using ih hfound

theorem closeQuoted_length {quote : Char} {stop : Char → Bool} {text body after : List Char}
    (h : closeQuoted quote stop text = some (body, after)) : after.length < text.length := by
  rw [closeQuoted_append h]
  simp
  omega

/-- Doubled quotes read as one. -/
def undouble (quote : Char) : List Char → List Char
  | [] => []
  | [c] => [c]
  | c :: next :: rest =>
      if c = quote ∧ next = quote then quote :: undouble quote rest
      else c :: undouble quote (next :: rest)

end StarCube.Text
