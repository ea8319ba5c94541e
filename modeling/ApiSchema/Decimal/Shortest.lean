import ApiSchema.Decimal.Binary64
import ApiSchema.Decimal.Digits

/-!
The shortest decimal text of a binary64 number.

A decimal stands for the number nearest to it, so every decimal inside of a certain interval
around a number reads back as that number. `shortestDigits` takes the fewest digits that have a
decimal in the interval, and of those the nearest. `FloatLayout` says how the digits are set out.
-/

namespace ApiSchema

namespace Binary64

/-- The exponent of ten of the first digit of a positive fraction. -/
def decimalExponent (num den : Nat) : Int :=
  if den ≤ num then (digits (num / den)).length - 1
  else
    let places := (digits (den / num)).length
    if den ≤ num * Nat.pow 10 (places - 1) then -((places : Int) - 1) else -(places : Int)

/-- The decimals that read back as a positive number lie between these two bounds, given in
quarters of the last binary place. The gap below a power of two is half as wide. -/
def bounds (x : Binary64) : Nat × Nat :=
  let below := if x.mantissa = 1 <<< 52 ∧ x.exponent ≠ -1074 then 1 else 2
  (4 * x.mantissa - below, 4 * x.mantissa + 2)

/-- True if `digit` times ten to the `place` reads back as the number. The bounds themselves
belong to the number with an even mantissa. -/
def readsBack (x : Binary64) (digit : Nat) (place : Int) : Bool :=
  let (num, den) :=
    if 0 ≤ place then (digit * Nat.pow 10 place.toNat, 1)
    else (digit, Nat.pow 10 (-place).toNat)
  let (n, d) := scale num den (x.exponent - 2)
  let (low, high) := x.bounds
  if x.mantissa % 2 = 0 then low * d ≤ n && n ≤ high * d else low * d < n && n < high * d

/-- The decimal with its last digit at `place` that is nearest to the number, if it or its
neighbour on the other side of the number reads back. -/
def decimalAt? (x : Binary64) (place : Int) : Option Nat :=
  let (num, den) := x.fraction
  let (n, d) :=
    if 0 ≤ place then (num, den * Nat.pow 10 place.toNat)
    else (num * Nat.pow 10 (-place).toNat, den)
  let down := n / d
  let near := roundDiv n d
  let far := if near = down then down + 1 else down
  if x.readsBack near place then some near
  else if x.readsBack far place then some far
  else none

/-- The first hit when the decimals have one digit more each time, with the place of its last
digit. -/
def searchDigits (x : Binary64) (first : Int) : Nat → Nat → Nat × Int
  | 0, count => ((x.decimalAt? (first - count)).getD 0, first - count)
  | more + 1, count =>
    match x.decimalAt? (first - count) with
    | some decimal => (decimal, first - count)
    | none => searchDigits x first more (count + 1)

/-- The fewest digits that read back as a positive number, without zeros at the end, and the
exponent of ten of the first one. -/
def shortestDigits (x : Binary64) : Text × Int :=
  let (num, den) := x.fraction
  let (decimal, place) := searchDigits x (decimalExponent num den) 17 0
  let all := digits decimal
  let kept := (all.reverse.dropWhile (· == '0')).reverse
  (kept, place + all.length - 1)

end Binary64

/-- How the digits of a number are set out. -/
structure FloatLayout where
  /-- the least exponent that is written out in zeros -/
  positionalFrom : Int
  /-- the least exponent above it that is not -/
  positionalBelow : Int

namespace FloatLayout

/-- Digits on both sides of a point, at least one on each. -/
def positional (text : Text) (exponent : Int) : Text :=
  if exponent < 0 then
    '0' :: '.' :: List.replicate (-exponent - 1).toNat '0' ++ text
  else
    let whole := exponent.toNat + 1
    if text.length ≤ whole then
      text ++ List.replicate (whole - text.length) '0' ++ ['.', '0']
    else
      text.take whole ++ '.' :: text.drop whole

/-- One digit before the point, and an exponent with its sign. -/
def scientific (text : Text) (exponent : Int) : Text :=
  let fractional := if text.length ≤ 1 then [] else '.' :: text.drop 1
  text.take 1 ++ fractional ++ ['e', if exponent < 0 then '-' else '+']
    ++ digits exponent.natAbs

/-- The text of a number. -/
def write (layout : FloatLayout) (x : Binary64) : Text :=
  let sign := if x.negative then ['-'] else []
  if x.isZero then sign ++ ['0', '.', '0']
  else
    let (text, exponent) := x.shortestDigits
    if layout.positionalFrom ≤ exponent ∧ exponent < layout.positionalBelow then
      sign ++ positional text exponent
    else
      sign ++ scientific text exponent

end FloatLayout

end ApiSchema
