/-!
Ratios of whole numbers, compared by cross multiplication, also if each is multiplied by a power of
ten. A ratio is not kept in lowest terms: two ratios of one value compare as equal and may differ.
-/

namespace StarCube

/-- A quotient of whole numbers with a positive denominator. -/
structure Ratio where
  num : Int
  den : Nat
  den_pos : 0 < den
deriving Repr

namespace Ratio

/-- A whole number as a ratio. -/
def ofInt (n : Int) : Ratio :=
  ⟨n, 1, Nat.one_pos⟩

/-- The value `n * base ^ exponent`. -/
def scaled (n : Int) (base : Nat) (exponent : Int) (hbase : 0 < base) : Ratio :=
  if 0 ≤ exponent then ofInt (n * Nat.pow base exponent.toNat)
  else ⟨n, Nat.pow base (-exponent).toNat, Nat.pow_pos hbase⟩

/-- The order of `left * 10 ^ shift` and `right`. The power is formed only if it may be smaller than
what it is compared with. -/
def compareShifted (left : Int) (shift : Nat) (right : Int) : Ordering :=
  if left = 0 then Ord.compare 0 right
  else if right.natAbs.log2 < shift then Ord.compare left 0
  else Ord.compare (left * Nat.pow 10 shift) right

theorem compareShifted_eq (left : Int) (shift : Nat) (right : Int) :
    compareShifted left shift right = Ord.compare (left * Nat.pow 10 shift) right := by
  unfold compareShifted
  split
  · rename_i h
    simp [h]
  · split
    · rename_i hleft hshift
      have hsize : right.natAbs < Nat.pow 10 shift :=
        Nat.lt_of_lt_of_le Nat.lt_log2_self
          (Nat.le_trans (Nat.pow_le_pow_right (by decide) hshift)
            (Nat.pow_le_pow_left (by decide) shift))
      have hscale : (right.natAbs : Int) < (Nat.pow 10 shift : Nat) := Int.ofNat_lt.2 hsize
      rcases Int.lt_or_gt_of_ne hleft with h | h
      · have hproduct : left * (Nat.pow 10 shift : Nat) ≤ -1 * (Nat.pow 10 shift : Nat) :=
          Int.mul_le_mul_of_nonneg_right (by omega) (Int.natCast_nonneg _)
        rw [Int.compare_eq_lt.2 h, eq_comm, Int.compare_eq_lt]
        omega
      · have hproduct : 1 * (Nat.pow 10 shift : Nat) ≤ left * (Nat.pow 10 shift : Nat) :=
          Int.mul_le_mul_of_nonneg_right (by omega) (Int.natCast_nonneg _)
        rw [Int.compare_eq_gt.2 h, eq_comm, Int.compare_eq_gt]
        omega
    · rfl

/-- The order of two ratios that are each multiplied by a power of ten. -/
def compareScaled (left : Ratio) (leftExponent : Int) (right : Ratio) (rightExponent : Int) :
    Ordering :=
  let shift := leftExponent - rightExponent
  if 0 ≤ shift then
    compareShifted (left.num * right.den) shift.toNat (right.num * left.den)
  else (compareShifted (right.num * left.den) (-shift).toNat (left.num * right.den)).swap

/-- The whole number that is left when the fraction is dropped. -/
def truncate (r : Ratio) : Int :=
  Int.tdiv r.num r.den

end Ratio

end StarCube
