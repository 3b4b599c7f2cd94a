import StarCube.Text.Quoted

/-!
Texts between quotes: what a body may hold, and when no quote closes one.
-/

namespace StarCube.Text

variable {quote : Char} {stop : Char → Bool} {text body after : List Char}

theorem closeQuoted_cons {c : Char} (hc : c ≠ quote) (hstop : stop c = false) (text : List Char) :
    closeQuoted quote stop (c :: text) =
      (closeQuoted quote stop text).map fun found => (c :: found.1, found.2) := by
  cases text <;> simp [closeQuoted, hc, hstop]

/-- The body of a quoted text has no character at which it would stop. -/
theorem not_mem_body {c : Char} (hc : c ≠ quote) (hstop : stop c = true)
    (h : closeQuoted quote stop text = some (body, after)) : c ∉ body := by
  fun_induction closeQuoted quote stop text generalizing body after with
  | case1 => simp at h
  | case2 tail found rest hfound ih =>
      obtain ⟨rfl, rfl⟩ : quote :: quote :: found = body ∧ rest = after := by simpa using h
      simp [hc, ih hfound]
  | case3 => simp_all
  | case4 => simp_all
  | case5 => simp_all
  | case6 => simp at h
  | case7 d rest hd hkept ih =>
      obtain ⟨found, hfound, heq⟩ := Option.map_eq_some_iff.1 h
      obtain ⟨rfl, rfl⟩ : d :: found.1 = body ∧ found.2 = after := by simpa using heq
      have hne : c ≠ d := by
        rintro rfl
        exact hkept hstop
      simp [hne, ih hfound]

/-- A body is read again, whatever follows its quote, if that is no other quote. -/
theorem closeQuoted_of_body (h : closeQuoted quote stop text = some (body, after))
    {after' : List Char} (hafter : after'.head? ≠ some quote) :
    closeQuoted quote stop (body ++ quote :: after') = some (body, after') := by
  have hend : closeQuoted quote stop (quote :: after') = some ([], after') := by
    cases after' with
    | nil => simp [closeQuoted]
    | cons c rest =>
        have hc : c ≠ quote := by simpa using hafter
        simp [closeQuoted, hc]
  fun_induction closeQuoted quote stop text generalizing body after with
  | case1 => simp at h
  | case2 tail found rest hfound ih =>
      obtain ⟨rfl, rfl⟩ : quote :: quote :: found = body ∧ rest = after := by simpa using h
      simp [closeQuoted, ih hfound]
  | case3 =>
      obtain ⟨rfl, -⟩ := Prod.mk.inj (Option.some.inj h)
      exact hend
  | case4 =>
      obtain ⟨rfl, -⟩ := Prod.mk.inj (Option.some.inj h)
      exact hend
  | case5 =>
      obtain ⟨rfl, -⟩ := Prod.mk.inj (Option.some.inj h)
      exact hend
  | case6 => simp at h
  | case7 c rest hc hstop ih =>
      obtain ⟨found, hfound, heq⟩ := Option.map_eq_some_iff.1 h
      obtain ⟨rfl, rfl⟩ : c :: found.1 = body ∧ found.2 = after := by simpa using heq
      rw [List.cons_append, closeQuoted_cons hc (by simpa using hstop), ih hfound]
      rfl

/-- A text is unterminated if no quote comes before it stops. -/
theorem closeQuoted_eq_none_iff (hquote : stop quote = false) :
    closeQuoted quote stop text = none ↔ quote ∉ text.takeWhile (!stop ·) := by
  fun_induction closeQuoted quote stop text with
  | case1 => simp
  | case2 => simp [hquote]
  | case3 => simp [hquote]
  | case4 => simp [hquote]
  | case5 => simp [hquote]
  | case6 c rest hc hstop => simp [hstop]
  | case7 c rest hc hstop ih => simp [hstop, ih, Ne.symm hc]

end StarCube.Text
