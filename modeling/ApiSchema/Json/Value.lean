import ApiSchema.Decimal.Shortest

/-!
JSON values.

Integers are those that a signed or an unsigned word of 64 bits can hold; every other number is
a binary64 number. The members of an object keep their order.
-/

namespace ApiSchema.Json

/-- An integer from -2^63 to 2^64 - 1. -/
structure Integer where
  val : Int
  lower : Int64.minValue.toInt ≤ val
  upper : val < UInt64.size
  deriving DecidableEq, Repr

namespace Integer

/-- The integer of that value, if it is in the range. -/
def ofInt? (n : Int) : Option Integer :=
  if h : Int64.minValue.toInt ≤ n ∧ n < UInt64.size then some ⟨n, h.1, h.2⟩ else none

/-- An unsigned word. -/
def ofUInt64 (n : UInt64) : Integer where
  val := n.toNat
  lower := by rw [Int64.toInt_minValue]; omega
  upper := by exact_mod_cast n.toNat_lt

/-- A signed word. -/
def ofInt64 (n : Int64) : Integer where
  val := n.toInt
  lower := n.minValue_le_toInt
  upper := by
    have := n.toInt_lt
    change n.toInt < 18446744073709551616
    omega

end Integer

/-- A JSON value. -/
inductive Value where
  | null
  | boolean (b : Bool)
  | integer (n : Integer)
  | float (x : Binary64)
  | string (text : Text)
  | array (items : List Value)
  | object (members : List (Text × Value))
  deriving Repr, Inhabited

/-- Numbers are positional from 0.00001 up to, but not at, ten to the sixteenth. Other ones have
an exponent with its sign and without leading zeros. -/
def floatLayout : FloatLayout where
  positionalFrom := -5
  positionalBelow := 16

end ApiSchema.Json
