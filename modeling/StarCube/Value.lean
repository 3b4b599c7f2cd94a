import StarCube.Number.Binary64
import StarCube.Number.Decimal

/-!
The values that queries bind and stores return, with the equality that joins numbers of different
kinds and the order by which values are ranked.
-/

namespace StarCube

/-- A calendar day. -/
structure Date where
  year : Nat
  month : Nat
  day : Nat
deriving DecidableEq, Repr

namespace Date

def compare (left right : Date) : Ordering :=
  (Ord.compare left.year right.year).then
    ((Ord.compare left.month right.month).then (Ord.compare left.day right.day))

/-- A number with zeros in front, to a width. -/
def padded (width n : Nat) : String :=
  let digits := Nat.toDigits 10 n
  String.ofList (List.replicate (width - digits.length) '0' ++ digits)

/-- Year, month and day with lines between them. -/
def toText (date : Date) : String :=
  padded 4 date.year ++ "-" ++ padded 2 date.month ++ "-" ++ padded 2 date.day

end Date

/-- A query literal, a bound parameter or a cell of a result. -/
inductive Value where
  | null
  | bool (b : Bool)
  | int (n : Int)
  | float (x : Binary64)
  | decimal (d : Decimal)
  | bytes (content : List UInt8)
  | date (day : Date)
  | text (content : String)
  | list (items : List Value)
deriving Repr

/-- A number of any kind by its exact value. -/
inductive NumericValue where
  /-- The value `ratio * 10 ^ exponent`. -/
  | finite (ratio : Ratio) (exponent : Int)
  | infinite (negative : Bool)
  | nan

namespace NumericValue

/-- The order of two numbers; none if one of them is no number. -/
def compare? : NumericValue → NumericValue → Option Ordering
  | .nan, _ => none
  | _, .nan => none
  | .finite left leftExponent, .finite right rightExponent =>
      some (left.compareScaled leftExponent right rightExponent)
  | .infinite left, .infinite right => some (Ord.compare right left)
  | .infinite negative, .finite _ _ => some (if negative then .lt else .gt)
  | .finite _ _, .infinite negative => some (if negative then .gt else .lt)

end NumericValue

namespace Value

instance : Inhabited Value := ⟨.null⟩

def isNull : Value → Bool
  | .null => true
  | _ => false

/-- The name of the kind of a value that is neither a text nor a byte string. -/
def kindName : Value → Option String
  | .null => some "NoneType"
  | .bool _ => some "bool"
  | .int _ => some "int"
  | .float _ => some "float"
  | .decimal _ => some "decimal.Decimal"
  | .date _ => some "datetime.date"
  | .list _ => some "list"
  | .bytes _ => none
  | .text _ => none

def isList : Value → Bool
  | .list _ => true
  | _ => false

/-- The number that a boolean, integer, float or decimal stands for. -/
def number? : Value → Option NumericValue
  | .bool b => some (.finite (Ratio.ofInt (if b then 1 else 0)) 0)
  | .int n => some (.finite (Ratio.ofInt n) 0)
  | .float x =>
      match x.ratio? with
      | some ratio => some (.finite ratio 0)
      | none => some (if x.isNaN then .nan else .infinite x.isNegative)
  | .decimal (.finite negative coefficient exponent) =>
      some (.finite (Ratio.ofInt (Decimal.signed negative coefficient)) exponent)
  | .decimal (.infinite negative) => some (.infinite negative)
  | .decimal (.nan _ _ _) => some .nan
  | _ => none

/-- Numbers of any kinds are the same if their exact values are equal, and no number is not even
the same as itself. Other values are the same only within their kind. -/
def sameScalar (left right : Value) : Bool :=
  match left.number?, right.number? with
  | some l, some r => l.compare? r == some .eq
  | none, none =>
      match left, right with
      | .null, .null => true
      | .bytes l, .bytes r => l == r
      | .date l, .date r => l == r
      | .text l, .text r => l == r
      | _, _ => false
  | _, _ => false

mutual

/-- Equality of values: lists are the same item by item. -/
def same : Value → Value → Bool
  | .list left, .list right => sameItems left right
  | left, right => sameScalar left right

def sameItems : List Value → List Value → Bool
  | [], [] => true
  | left :: lefts, right :: rights => same left right && sameItems lefts rights
  | _, _ => false

end

/-- A value that may be a member of a set: neither a list nor a signaling decimal. -/
def isMember : Value → Bool
  | .list _ => false
  | .decimal (.nan _ signaling _) => !signaling
  | _ => true

/-- Why two values have no order. -/
inductive OrderFault where
  /-- The kinds cannot be compared. -/
  | kinds
  /-- One of two numbers is no number, and a decimal refuses to be compared so. -/
  | undefined
deriving DecidableEq, Repr

def isDecimal : Value → Bool
  | .decimal _ => true
  | _ => false

/-- Lexicographic order of byte strings. -/
def bytesBefore : List UInt8 → List UInt8 → Bool
  | _, [] => false
  | [], _ :: _ => true
  | left :: lefts, right :: rights =>
      if left = right then bytesBefore lefts rights else left < right

/-- The order within a kind, numbers being one kind. What is no number comes neither before nor
after a number, and cannot be compared with a decimal at all. -/
def beforeScalar (left right : Value) : Except OrderFault Bool :=
  match left.number?, right.number? with
  | some l, some r =>
      match l.compare? r with
      | some order => .ok (order == .lt)
      | none => if left.isDecimal || right.isDecimal then .error .undefined else .ok false
  | none, none =>
      match left, right with
      | .bytes l, .bytes r => .ok (bytesBefore l r)
      | .date l, .date r => .ok (l.compare r == .lt)
      | .text l, .text r => .ok (l < r)
      | _, _ => .error .kinds
  | _, _ => .error .kinds

mutual

/-- Whether a value comes before another: lists are compared at their first difference. -/
def before : Value → Value → Except OrderFault Bool
  | .list left, .list right => beforeItems left right
  | left, right => beforeScalar left right

def beforeItems : List Value → List Value → Except OrderFault Bool
  | _, [] => .ok false
  | [], _ :: _ => .ok true
  | left :: lefts, right :: rights =>
      if same left right then beforeItems lefts rights else before left right

end

/-- A value that counts as absent where a count is read: null, zero of any kind, or empty. -/
def isEmpty : Value → Bool
  | .null => true
  | .bytes content => content.isEmpty
  | .text content => content.isEmpty
  | .list items => items.isEmpty
  | .date _ => false
  | value => value.sameScalar (.int 0)

end Value

end StarCube
