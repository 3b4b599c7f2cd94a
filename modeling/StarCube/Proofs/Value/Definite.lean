import StarCube.Proofs.Value.Comparison

/-!
Definite values, in which no number is undefined. Those that have an order compare, and being the
same is an equivalence among them.
-/

namespace StarCube

namespace Value

variable {left right middle : Value}

mutual

/-- A value in which no number is undefined. -/
def isDefinite : Value → Bool
  | .list items => areDefinite items
  | value => value.number?.all (!·.isNaN)

def areDefinite : List Value → Bool
  | [] => true
  | item :: items => isDefinite item && areDefinite items

end

theorem isDefinite_of_isList (h : left.isList = false) :
    left.isDefinite = left.number?.all (!·.isNaN) := by
  cases left <;> first | rfl | cases h

/-- A scalar that is some number has a place on the line if it is definite. -/
theorem exists_place? {number : NumericValue} (hdefinite : left.isDefinite = true)
    (hnumber : left.number? = some number) : ∃ x, left.place? = some x := by
  have hlist : left.isList = false := by cases left <;> first | rfl | cases hnumber
  rw [isDefinite_of_isList hlist, hnumber, Option.all_some, Bool.not_eq_true'] at hdefinite
  obtain ⟨x, hx⟩ := NumericValue.exists_place? hdefinite
  exact ⟨x, by rw [place?, hnumber, Option.bind_some, hx]⟩

theorem compares_of_numbers {l r : NumericValue} (hleft : left.isDefinite = true)
    (hright : right.isDefinite = true) (hl : left.number? = some l) (hr : right.number? = some r) :
    ∃ order, Compares left right order := by
  obtain ⟨x, hx⟩ := exists_place? hleft hl
  obtain ⟨y, hy⟩ := exists_place? hright hr
  exact ⟨_, .number hx hy⟩

/-- Scalars that are the same or have an order compare. -/
theorem compares_of_scalar (hleft : left.isDefinite = true) (hright : right.isDefinite = true)
    (h : left.sameScalar right = true ∨ ∃ answer, left.beforeScalar right = .ok answer) :
    ∃ order, Compares left right order := by
  cases hl : left.number? with
  | some l =>
      cases hr : right.number? with
      | some r => exact compares_of_numbers hleft hright hl hr
      | none =>
          unfold sameScalar beforeScalar at h
          rw [hl, hr] at h
          simp at h
  | none =>
      cases hr : right.number? with
      | some r =>
          unfold sameScalar beforeScalar at h
          rw [hl, hr] at h
          simp at h
      | none =>
          unfold sameScalar beforeScalar at h
          rw [hl, hr] at h
          cases left <;> cases right <;>
            first
              | exact ⟨_, .null⟩
              | exact ⟨_, .bytes _ _⟩
              | exact ⟨_, .date _ _⟩
              | exact ⟨_, .text _ _⟩
              | simp at h

theorem same_of_not_lists (h : ∀ lefts rights, left = .list lefts → right = .list rights → False) :
    left.same right = left.sameScalar right := by
  rw [same]
  exact h

theorem before_of_not_lists
    (h : ∀ lefts rights, left = .list lefts → right = .list rights → False) :
    left.before right = left.beforeScalar right := by
  rw [before]
  exact h

theorem areDefinite_cons {first : Value} {rest : List Value} :
    areDefinite (first :: rest) = true ↔ first.isDefinite = true ∧ areDefinite rest = true :=
  Bool.and_eq_true_iff

/-- Definite values that are the same compare as equal. -/
theorem compares_of_same (hleft : left.isDefinite = true) (hright : right.isDefinite = true)
    (h : left.same right = true) : Compares left right .eq := by
  revert hleft hright h
  apply (same.mutual_induct
    (fun left right => left.isDefinite = true → right.isDefinite = true →
      left.same right = true → Compares left right .eq)
    (fun lefts rights => areDefinite lefts = true → areDefinite rights = true →
      sameItems lefts rights = true → Compares (.list lefts) (.list rights) .eq)
    ?lists ?scalars ?ends ?items ?lengths).1
  case lists => exact fun _ _ ih => ih
  case scalars =>
    intro left right hnot hleft hright h
    obtain ⟨order, hcompares⟩ :=
      compares_of_scalar hleft hright (.inl (by rw [← same_of_not_lists hnot, h]))
    rw [hcompares.same_eq, beq_iff_eq] at h
    exact h ▸ hcompares
  case ends => exact fun _ _ _ => .nil
  case items =>
    intro left lefts right rights ih ihItems hleft hright h
    obtain ⟨hfirst, hrest⟩ := areDefinite_cons.1 hleft
    obtain ⟨hfirst', hrest'⟩ := areDefinite_cons.1 hright
    obtain ⟨hsame, hitems⟩ := Bool.and_eq_true_iff.1 h
    exact .rest (ih hfirst hfirst' hsame) (ihItems hrest hrest' hitems)
  case lengths =>
    intro lefts rights hends hitems _ _ h
    cases lefts <;> cases rights <;> first | exact (hends rfl rfl).elim | cases h |
      exact (hitems _ _ _ _ rfl rfl).elim

/-- Definite values that have an order compare. -/
theorem compares_of_before {answer : Bool} (hleft : left.isDefinite = true)
    (hright : right.isDefinite = true) (h : left.before right = .ok answer) :
    ∃ order, Compares left right order := by
  revert answer hleft hright h
  apply (before.mutual_induct
    (fun left right => ∀ answer, left.isDefinite = true → right.isDefinite = true →
      left.before right = .ok answer → ∃ order, Compares left right order)
    (fun lefts rights => ∀ answer, areDefinite lefts = true → areDefinite rights = true →
      beforeItems lefts rights = .ok answer → ∃ order, Compares (.list lefts) (.list rights) order)
    ?lists ?scalars ?longer ?shorter ?same ?different).1
  case lists => exact fun _ _ ih => ih
  case scalars =>
    intro left right hnot answer hleft hright h
    exact compares_of_scalar hleft hright (.inr ⟨answer, by rw [← before_of_not_lists hnot, h]⟩)
  case longer =>
    intro lefts answer _ _ _
    cases lefts with
    | nil => exact ⟨_, .nil⟩
    | cons first rest => exact ⟨_, .longer first rest⟩
  case shorter => exact fun first rest _ _ _ _ => ⟨_, .shorter first rest⟩
  case same =>
    intro left lefts right rights hsame ih answer hleft hright h
    obtain ⟨hfirst, hrest⟩ := areDefinite_cons.1 hleft
    obtain ⟨hfirst', hrest'⟩ := areDefinite_cons.1 hright
    rw [beforeItems, if_pos hsame] at h
    obtain ⟨order, hcompares⟩ := ih answer hrest hrest' h
    exact ⟨order, .rest (compares_of_same hfirst hfirst' hsame) hcompares⟩
  case different =>
    intro left lefts right rights hsame ih answer hleft hright h
    rw [beforeItems, if_neg hsame] at h
    obtain ⟨order, hcompares⟩ :=
      ih answer (areDefinite_cons.1 hleft).1 (areDefinite_cons.1 hright).1 h
    refine ⟨order, .first hcompares ?_ lefts rights⟩
    rintro rfl
    exact hsame hcompares.same_eq

theorem compares_self (h : left.isDefinite = true) : Compares left left .eq := by
  revert h
  apply (isDefinite.mutual_induct
    (fun value => value.isDefinite = true → Compares value value .eq)
    (fun items => areDefinite items = true → Compares (.list items) (.list items) .eq)
    ?list ?scalar ?nil ?cons).1
  case list => exact fun _ ih => ih
  case scalar =>
    intro value hnot h
    cases hnumber : value.number? with
    | some number =>
        obtain ⟨x, hx⟩ := exists_place? h hnumber
        have hself : Ord.compare x x = .eq := Std.ReflOrd.compare_self
        exact hself ▸ .number hx hx
    | none =>
        cases value with
        | null => exact .null
        | bytes content =>
            have hself : Ord.compare content content = .eq := Std.ReflOrd.compare_self
            exact hself ▸ .bytes content content
        | date day => exact Date.compare_eq_eq_iff.2 rfl ▸ .date day day
        | text content =>
            have hself : Ord.compare content content = .eq := Std.ReflOrd.compare_self
            exact hself ▸ .text content content
        | list items => exact (hnot items rfl).elim
        | bool b => cases hnumber
        | int n => cases hnumber
        | float x =>
            cases hratio : x.ratio? <;> simp [number?, hratio] at hnumber
        | decimal d => cases d <;> cases hnumber
  case nil => exact fun _ => .nil
  case cons =>
    intro first rest ih ihRest h
    obtain ⟨hfirst, hrest⟩ := areDefinite_cons.1 h
    exact .rest (ih hfirst) (ihRest hrest)

theorem same_self (h : left.isDefinite = true) : left.same left = true :=
  (compares_self h).same_eq

theorem same_symm (hleft : left.isDefinite = true) (hright : right.isDefinite = true)
    (h : left.same right = true) : right.same left = true :=
  (compares_of_same hleft hright h).swap.same_eq

theorem same_trans (hleft : left.isDefinite = true) (hmiddle : middle.isDefinite = true)
    (hright : right.isDefinite = true) (h : left.same middle = true)
    (hnext : middle.same right = true) : left.same right = true :=
  ((compares_of_same hleft hmiddle h).trans (compares_of_same hmiddle hright hnext) nofun
    nofun).same_eq

end Value

end StarCube
