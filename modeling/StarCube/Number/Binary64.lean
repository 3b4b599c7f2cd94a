import StarCube.Number.Ratio

/-!
Double-precision numbers as bit patterns: their exact value, the double nearest to a quotient of
whole numbers, rounding to decimal places, and the arithmetic of the hardware. A tie goes to the
even neighbour.
-/

namespace StarCube

/-- The whole number nearest to `num / den`; of two at the same distance, the even one. -/
def roundHalfEven (num den : Nat) : Nat :=
  let below := num / den
  let rest := num % den
  if 2 * rest < den then below
  else if den < 2 * rest then below + 1
  else if below % 2 = 0 then below
  else below + 1

/-- A double-precision number: a sign bit, eleven bits of exponent and fifty-two of mantissa. -/
structure Binary64 where
  bits : UInt64
deriving DecidableEq, Repr

namespace Binary64

/-- What a bit pattern stands for. A finite one is `mantissa * 2 ^ exponent` with its sign. -/
inductive Reading where
  | nan
  | infinite (negative : Bool)
  | finite (negative : Bool) (mantissa : Nat) (exponent : Int)
deriving Repr

/-- The weight of the sign bit. -/
def signWeight : Nat := 0x8000000000000000

/-- The weight of the lowest bit of the exponent, one beyond the largest mantissa. -/
def exponentWeight : Nat := 0x10000000000000

/-- The bits below the sign. -/
def magnitude (x : Binary64) : Nat :=
  x.bits.toNat % signWeight

/-- The sign bit. -/
def isNegative (x : Binary64) : Bool :=
  signWeight ≤ x.bits.toNat

/-- The magnitude of the infinities. -/
def infiniteMagnitude : Nat :=
  2047 * exponentWeight

/-- The meaning of a double. -/
def read (x : Binary64) : Reading :=
  let biased : Nat := x.magnitude / exponentWeight
  let fraction : Nat := x.magnitude % exponentWeight
  if biased = 2047 then
    if fraction = 0 then .infinite x.isNegative else .nan
  else if biased = 0 then .finite x.isNegative fraction (-1074)
  else .finite x.isNegative (fraction + exponentWeight) ((biased : Int) - 1075)

/-- The double with a sign and a magnitude. -/
def ofMagnitude (negative : Bool) (magnitude : Nat) : Binary64 :=
  ⟨UInt64.ofNat (if negative then signWeight + magnitude else magnitude)⟩

/-- The one pattern that stands for all results that are no number. -/
def nan : Binary64 :=
  ofMagnitude false (infiniteMagnitude + exponentWeight / 2)

def infinity (negative : Bool) : Binary64 :=
  ofMagnitude negative infiniteMagnitude

def zero : Binary64 :=
  ofMagnitude false 0

def isNaN (x : Binary64) : Bool :=
  infiniteMagnitude < x.magnitude

def isInfinite (x : Binary64) : Bool :=
  x.magnitude == infiniteMagnitude

/-- Both zeros. -/
def isZero (x : Binary64) : Bool :=
  x.magnitude == 0

/-- The magnitude nearest to `num / den`, ties to the even mantissa. The quotient is scaled so that
its whole part has fifty-three bits, or fewer where the exponent would fall below the least one;
a whole part that rounds up to the next power of two carries into the exponent. -/
def nearestMagnitude (num den : Nat) : Nat :=
  if num = 0 then 0
  else
    let size : Int := (num.log2 : Int) - den.log2
    let below : Bool := num * Nat.pow 2 (-size).toNat < den * Nat.pow 2 size.toNat
    let exponent : Int := max (if below then size - 53 else size - 52) (-1074)
    let whole :=
      roundHalfEven (num * Nat.pow 2 (-exponent).toNat) (den * Nat.pow 2 exponent.toNat)
    min ((exponent + 1074).toNat * exponentWeight + whole) infiniteMagnitude

/-- The double nearest to a quotient. -/
def nearest (negative : Bool) (num den : Nat) : Binary64 :=
  ofMagnitude negative (nearestMagnitude num den)

/-- The double nearest to a whole number. -/
def ofInt (n : Int) : Binary64 :=
  nearest (n < 0) n.natAbs 1

/-- The double nearest to `coefficient * 10 ^ exponent`. Exponents far outside the range of doubles
are answered without the power of ten. -/
def ofScientific (negative : Bool) (coefficient : Nat) (exponent : Int) : Binary64 :=
  if coefficient = 0 then ofMagnitude negative 0
  else if 400 < exponent then infinity negative
  else if exponent + coefficient.log2 + 1 < -400 then ofMagnitude negative 0
  else nearest negative (coefficient * Nat.pow 10 exponent.toNat) (Nat.pow 10 (-exponent).toNat)

/-- The exact value of a finite double. -/
def ratio? (x : Binary64) : Option Ratio :=
  match x.read with
  | .finite negative mantissa exponent =>
      some (Ratio.scaled (if negative then -(mantissa : Int) else mantissa) 2 exponent (by decide))
  | _ => none

/-- The double nearest to the value with `places` decimal places that is nearest to `x`. The sign is
kept, so a small negative number rounds to negative zero. -/
def roundPlaces (places : Nat) (x : Binary64) : Binary64 :=
  match x.read with
  | .finite negative mantissa exponent =>
      let units := roundHalfEven (mantissa * Nat.pow 2 exponent.toNat * Nat.pow 10 places)
        (Nat.pow 2 (-exponent).toNat)
      nearest negative units (Nat.pow 10 places)
  | _ => x

def toFloat (x : Binary64) : Float :=
  Float.ofBits x.bits

def ofFloat (x : Float) : Binary64 :=
  ⟨x.toBits⟩

instance : Sub Binary64 := ⟨fun x y => ofFloat (x.toFloat - y.toFloat)⟩
instance : Mul Binary64 := ⟨fun x y => ofFloat (x.toFloat * y.toFloat)⟩
instance : Div Binary64 := ⟨fun x y => ofFloat (x.toFloat / y.toFloat)⟩

end Binary64

end StarCube
