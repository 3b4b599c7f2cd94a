import Mathlib.Algebra.Order.Field.Rat
import Mathlib.Data.Rat.Cast.Order
import Mathlib.Data.String.Basic
import Mathlib.Order.WithBot
import Mathlib.Tactic.FieldSimp
import Mathlib.Tactic.Ring
import StarCube.Value

/-!
How values compare. Numbers of all kinds stand on one line, between the two infinities, and compare
by their places there; byte strings, days and texts compare within their kind, and lists at their
first difference. Values that compare are the same, or one comes before the other.
-/

namespace StarCube

namespace Ratio

/-- The number that a ratio stands for. -/
def value (ratio : Ratio) : ℚ :=
  ratio.num / ratio.den

/-- Whole numbers compare as the numbers do of which they are the same positive multiple. -/
theorem compare_eq_of_multiple {left right : Int} {x y factor : ℚ} (hfactor : 0 < factor)
    (hleft : (left : ℚ) = x * factor) (hright : (right : ℚ) = y * factor) :
    Ord.compare left right = Ord.compare x y := by
  rcases lt_trichotomy x y with hlt | rfl | hgt
  · have hless : (left : ℚ) < right := by
      rw [hleft, hright]
      exact mul_lt_mul_of_pos_right hlt hfactor
    rw [compare_lt_iff_lt.2 hlt, compare_lt_iff_lt.2 (Int.cast_lt.1 hless)]
  · have hsame : (left : ℚ) = right := hleft.trans hright.symm
    rw [compare_eq_iff_eq.2 rfl, compare_eq_iff_eq.2 (Int.cast_inj.1 hsame)]
  · have hmore : (right : ℚ) < left := by
      rw [hleft, hright]
      exact mul_lt_mul_of_pos_right hgt hfactor
    rw [compare_gt_iff_gt.2 hgt, compare_gt_iff_gt.2 (Int.cast_lt.1 hmore)]

theorem compareShifted_eq_compare (left right : Ratio) {high low : Int} (hle : low ≤ high) :
    compareShifted (left.num * right.den) (high - low).toNat (right.num * left.den) =
      Ord.compare (left.value * 10 ^ high) (right.value * 10 ^ low) := by
  have hleft : (left.den : ℚ) ≠ 0 := Nat.cast_ne_zero.2 left.den_pos.ne'
  have hright : (right.den : ℚ) ≠ 0 := Nat.cast_ne_zero.2 right.den_pos.ne'
  have hlow : (10 : ℚ) ^ low ≠ 0 := zpow_ne_zero low (by norm_num)
  have hpower : ((Nat.pow 10 (high - low).toNat : ℕ) : ℚ) = 10 ^ high / 10 ^ low := by
    rw [← zpow_sub₀ (by norm_num), Nat.pow_eq, Nat.cast_pow, ← zpow_natCast,
      Int.toNat_of_nonneg (by omega)]
    norm_num
  have hfactor : (0 : ℚ) < left.den * right.den / 10 ^ low := by
    have hden := mul_pos (Nat.cast_pos (α := ℚ).2 left.den_pos) (Nat.cast_pos.2 right.den_pos)
    exact div_pos hden (zpow_pos (by norm_num) low)
  rw [compareShifted_eq]
  apply compare_eq_of_multiple hfactor
  · rw [value, Int.cast_mul, Int.cast_mul, Int.cast_natCast, Int.cast_natCast, hpower]
    field_simp
  · rw [value, Int.cast_mul, Int.cast_natCast]
    field_simp

theorem compareScaled_eq (left : Ratio) (leftExponent : Int) (right : Ratio) (rightExponent : Int) :
    left.compareScaled leftExponent right rightExponent =
      Ord.compare (left.value * 10 ^ leftExponent) (right.value * 10 ^ rightExponent) := by
  rw [compareScaled]
  by_cases hshift : 0 ≤ leftExponent - rightExponent
  · rw [if_pos hshift]
    exact compareShifted_eq_compare left right (by omega)
  · rw [if_neg hshift, neg_sub, compareShifted_eq_compare right left (by omega),
      ← Std.OrientedCmp.eq_swap]

end Ratio

namespace NumericValue

def isNaN : NumericValue → Bool
  | .nan => true
  | _ => false

/-- The place of a number on the line, between the two infinities. -/
def place? : NumericValue → Option (WithBot (WithTop ℚ))
  | .finite ratio exponent => some ((ratio.value * 10 ^ exponent : ℚ) : WithTop ℚ)
  | .infinite negative => some (if negative then ⊥ else ((⊤ : WithTop ℚ) : WithBot (WithTop ℚ)))
  | .nan => none

theorem compare?_eq {left right : NumericValue} {x y : WithBot (WithTop ℚ)}
    (hleft : left.place? = some x)
    (hright : right.place? = some y) : left.compare? right = some (Ord.compare x y) := by
  cases left with
  | nan => cases hleft
  | infinite negative =>
      obtain rfl := Option.some.inj hleft
      cases right with
      | nan => cases hright
      | infinite other =>
          obtain rfl := Option.some.inj hright
          cases negative <;> cases other <;> rfl
      | finite ratio exponent =>
          obtain rfl := Option.some.inj hright
          cases negative
          · rw [compare_gt_iff_gt.2]
            · rfl
            · exact WithBot.coe_lt_coe.2 (WithTop.coe_lt_top _)
          · rw [compare_lt_iff_lt.2]
            · rfl
            · exact WithBot.bot_lt_coe _
  | finite ratio exponent =>
      obtain rfl := Option.some.inj hleft
      cases right with
      | nan => cases hright
      | infinite negative =>
          obtain rfl := Option.some.inj hright
          cases negative
          · rw [compare_lt_iff_lt.2]
            · rfl
            · exact WithBot.coe_lt_coe.2 (WithTop.coe_lt_top _)
          · rw [compare_gt_iff_gt.2]
            · rfl
            · exact WithBot.bot_lt_coe _
      | finite other otherExponent =>
          obtain rfl := Option.some.inj hright
          have hmono : StrictMono fun x : ℚ => ((x : WithTop ℚ) : WithBot (WithTop ℚ)) :=
            WithBot.coe_strictMono.comp WithTop.coe_strictMono
          rw [compare?, Ratio.compareScaled_eq, ← cmp_eq_compare, ← cmp_eq_compare]
          exact congrArg some (hmono.cmp_map_eq _ _).symm

theorem exists_place? {number : NumericValue} (h : number.isNaN = false) :
    ∃ x, number.place? = some x := by
  cases number with
  | finite ratio exponent => exact ⟨_, rfl⟩
  | infinite negative => exact ⟨_, rfl⟩
  | nan => cases h

end NumericValue

namespace Date

instance : Std.TransCmp Date.compare :=
  inferInstanceAs (Std.TransCmp (compareLex (compareOn Date.year)
    (compareLex (compareOn Date.month) (compareOn Date.day))))

theorem compare_eq_eq_iff {left right : Date} : left.compare right = .eq ↔ left = right := by
  cases left
  cases right
  simp [compare, Ordering.then_eq_eq]

end Date

namespace Value

/-- The place on the line of a value that is some number. -/
def place? (value : Value) : Option (WithBot (WithTop ℚ)) :=
  value.number?.bind NumericValue.place?

/-- How one value compares with another. -/
inductive Compares : Value → Value → Ordering → Prop
  | null : Compares .null .null .eq
  | number {left right : Value} {x y : WithBot (WithTop ℚ)} (hleft : left.place? = some x)
      (hright : right.place? = some y) : Compares left right (Ord.compare x y)
  | bytes (left right : List UInt8) : Compares (.bytes left) (.bytes right) (Ord.compare left right)
  | date (left right : Date) : Compares (.date left) (.date right) (left.compare right)
  | text (left right : String) : Compares (.text left) (.text right) (Ord.compare left right)
  | nil : Compares (.list []) (.list []) .eq
  | shorter (first : Value) (rest : List Value) : Compares (.list []) (.list (first :: rest)) .lt
  | longer (first : Value) (rest : List Value) : Compares (.list (first :: rest)) (.list []) .gt
  | first {left right : Value} {order : Ordering} (h : Compares left right order)
      (hne : order ≠ .eq)
      (lefts rights : List Value) : Compares (.list (left :: lefts)) (.list (right :: rights)) order
  | rest {left right : Value} {lefts rights : List Value} {order : Ordering}
      (hfirst : Compares left right .eq) (h : Compares (.list lefts) (.list rights) order) :
      Compares (.list (left :: lefts)) (.list (right :: rights)) order

variable {left right middle : Value} {order next : Ordering}

theorem Compares.swap (h : Compares left right order) : Compares right left order.swap := by
  induction h with
  | null => exact .null
  | number hleft hright =>
      rw [← Std.OrientedCmp.eq_swap]
      exact .number hright hleft
  | bytes left right =>
      rw [← Std.OrientedCmp.eq_swap]
      exact .bytes right left
  | date left right =>
      have hswap : right.compare left = (left.compare right).swap := Std.OrientedCmp.eq_swap
      rw [← hswap]
      exact .date right left
  | text left right =>
      rw [← Std.OrientedCmp.eq_swap]
      exact .text right left
  | nil => exact .nil
  | shorter first rest => exact .longer first rest
  | longer first rest => exact .shorter first rest
  | first h hne lefts rights ih =>
      exact .first ih (by simpa [Ordering.swap_eq_eq] using hne) rights lefts
  | rest hfirst h ihFirst ih => exact .rest ihFirst ih

/-- A rising chain compares as the first of its steps that is strict. -/
theorem then_of_le {α : Type} {cmp : α → α → Ordering} [Std.TransCmp cmp] {a b c : α}
    (hab : cmp a b ≠ .gt) (hbc : cmp b c ≠ .gt) : cmp a c = (cmp a b).then (cmp b c) := by
  cases hfirst : cmp a b with
  | gt => exact absurd hfirst hab
  | eq => exact Std.TransCmp.congr_left hfirst
  | lt =>
      have hlt := Std.TransCmp.lt_of_lt_of_isLE hfirst (Ordering.isLE_iff_ne_gt.2 hbc)
      rw [hlt]
      rfl

/-- What a list that is not empty comes before, or is equal to, is such a list. The first values
decide, or they are equal and the others do. -/
theorem Compares.cases_cons {lefts : List Value} (h : Compares (.list (left :: lefts)) right order)
    (hle : order ≠ .gt) :
    ∃ other others, right = .list (other :: others) ∧
      (Compares left other .lt ∧ order = .lt ∨
        Compares left other .eq ∧ Compares (.list lefts) (.list others) order) := by
  cases h with
  | longer first rest => exact absurd rfl hle
  | first h hne lefts others =>
      obtain rfl : order = .lt := by cases order <;> trivial
      exact ⟨_, others, rfl, .inl ⟨h, rfl⟩⟩
  | rest hfirst h => exact ⟨_, _, rfl, .inr ⟨hfirst, h⟩⟩
  | number hleft hright => nomatch hleft

/-- Rising chains of values. -/
theorem Compares.trans (h : Compares left middle order) (hnext : Compares middle right next)
    (hle : order ≠ .gt) (hnextLe : next ≠ .gt) : Compares left right (order.then next) := by
  induction h generalizing right next with
  | null =>
      cases hnext with
      | null => exact .null
      | number hleft hright => nomatch hleft
  | number hleft hright =>
      cases hnext with
      | number hmiddle hlast =>
          obtain rfl := Option.some.inj (hright.symm.trans hmiddle)
          rw [← then_of_le hle hnextLe]
          exact .number hleft hlast
      | _ => nomatch hright
  | bytes left middle =>
      cases hnext with
      | bytes _ right =>
          rw [← then_of_le hle hnextLe]
          exact .bytes left right
      | number hleft hright => nomatch hleft
  | date left middle =>
      cases hnext with
      | date _ right =>
          rw [← then_of_le hle hnextLe]
          exact .date left right
      | number hleft hright => nomatch hleft
  | text left middle =>
      cases hnext with
      | text _ right =>
          rw [← then_of_le hle hnextLe]
          exact .text left right
      | number hleft hright => nomatch hleft
  | nil =>
      cases hnext with
      | nil => exact .nil
      | shorter first rest => exact .shorter first rest
      | number hleft hright => nomatch hleft
  | shorter first rest =>
      obtain ⟨other, others, rfl, -⟩ := hnext.cases_cons hnextLe
      exact .shorter other others
  | longer first rest => exact absurd rfl hle
  | @first left middle order h hne lefts middles ih =>
      obtain rfl : order = .lt := by cases order <;> trivial
      obtain ⟨other, others, rfl, ⟨hother, -⟩ | ⟨hother, -⟩⟩ := hnext.cases_cons hnextLe
      · exact .first (ih hother hle nofun) nofun lefts others
      · exact .first (ih hother hle nofun) nofun lefts others
  | @rest left middle lefts middles order hfirst h ihFirst ih =>
      obtain ⟨other, others, rfl, ⟨hother, rfl⟩ | ⟨hother, hrest⟩⟩ := hnext.cases_cons hnextLe
      · obtain hthen : order.then .lt = .lt := by cases order <;> trivial
        rw [hthen]
        exact .first (ihFirst hother nofun hnextLe) nofun lefts others
      · exact .rest (ihFirst hother nofun nofun) (ih hrest hle hnextLe)

section Numbers

variable {x y : WithBot (WithTop ℚ)}

theorem isList_of_place? (h : left.place? = some x) : left.isList = false := by
  cases left <;> first | rfl | cases h

theorem same_of_isList (h : left.isList = false) (right : Value) :
    left.same right = left.sameScalar right := by
  cases left <;> first | rfl | cases h

theorem before_of_isList (h : left.isList = false) (right : Value) :
    left.before right = left.beforeScalar right := by
  cases left <;> first | rfl | cases h

/-- Numbers are the same or one comes before the other by their places. -/
theorem scalar_of_place? (hleft : left.place? = some x) (hright : right.place? = some y) :
    left.sameScalar right = (Ord.compare x y == .eq) ∧
      left.beforeScalar right = .ok (Ord.compare x y == .lt) := by
  obtain ⟨l, hl, hx⟩ := Option.bind_eq_some_iff.1 hleft
  obtain ⟨r, hr, hy⟩ := Option.bind_eq_some_iff.1 hright
  unfold sameScalar beforeScalar
  rw [hl, hr]
  simp only [NumericValue.compare?_eq hx hy]
  exact ⟨rfl, trivial⟩

end Numbers

theorem bytesBefore_eq (left right : List UInt8) :
    bytesBefore left right = (Ord.compare left right == .lt) := by
  induction left generalizing right with
  | nil => cases right <;> rfl
  | cons byte lefts ih =>
      cases right with
      | nil => rfl
      | cons other rights =>
          rw [bytesBefore, List.compare_cons_cons]
          by_cases hsame : byte = other
          · rw [if_pos hsame, ih, hsame, Std.ReflOrd.compare_self, Ordering.eq_then]
          · rw [if_neg hsame, Bool.eq_iff_iff, beq_iff_eq, decide_eq_true_iff, ← Std.compare_eq_lt]
            have hne : Ord.compare byte other ≠ .eq := mt Std.compare_eq_iff_eq.1 hsame
            cases hfirst : Ord.compare byte other with
            | eq => exact absurd hfirst hne
            | lt => exact Iff.rfl
            | gt => exact Iff.rfl

/-- Two values are the same if they compare as equal. -/
theorem Compares.same_eq (h : Compares left right order) : left.same right = (order == .eq) := by
  induction h with
  | null => rfl
  | @number left right x y hleft hright =>
      rw [same_of_isList (isList_of_place? hleft)]
      exact (scalar_of_place? hleft hright).1
  | bytes left right =>
      show (left == right) = _
      rw [Bool.eq_iff_iff]
      simp
  | date left right =>
      show (left == right) = _
      rw [Bool.eq_iff_iff]
      simp [Date.compare_eq_eq_iff]
  | text left right =>
      show (left == right) = _
      rw [Bool.eq_iff_iff]
      simp
  | nil => rfl
  | shorter first rest => rfl
  | longer first rest => rfl
  | @first left right order h hne lefts rights ih =>
      show (left.same right && sameItems lefts rights) = _
      rw [ih, beq_false_of_ne hne, Bool.false_and]
  | @rest left right lefts rights order hfirst h ihFirst ih =>
      show (left.same right && sameItems lefts rights) = _
      rw [ihFirst]
      exact ih

/-- Of two values that are not the same the lesser one comes before the other. -/
theorem Compares.before_eq (h : Compares left right order) (hne : order ≠ .eq) :
    left.before right = .ok (order == .lt) := by
  induction h with
  | null => exact absurd rfl hne
  | @number left right x y hleft hright =>
      rw [before_of_isList (isList_of_place? hleft)]
      exact (scalar_of_place? hleft hright).2
  | bytes left right => exact congrArg Except.ok (bytesBefore_eq left right)
  | date left right => rfl
  | text left right =>
      show Except.ok (decide (left < right)) = _
      rw [Except.ok.injEq, Bool.eq_iff_iff, decide_eq_true_iff, beq_iff_eq]
      exact compare_lt_iff_lt.symm
  | nil => exact absurd rfl hne
  | shorter first rest => rfl
  | longer first rest => rfl
  | @first left right order h hne lefts rights ih =>
      show (if left.same right then beforeItems lefts rights else left.before right) = _
      rw [h.same_eq, beq_false_of_ne hne]
      exact ih hne
  | @rest left right lefts rights order hfirst h ihFirst ih =>
      show (if left.same right then beforeItems lefts rights else left.before right) = _
      rw [hfirst.same_eq]
      exact ih hne

end Value

end StarCube
