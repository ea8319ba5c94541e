import ApiSchema.Text.Basic

/-!
Finite binary64 numbers, and their arithmetic as exact arithmetic followed by one rounding.

A number is a sign, a mantissa below 2^53 and an exponent of two. `Binary64.nearest?` rounds a
fraction to the nearest number, a tie to the even mantissa; products and quotients are the exact
ones, rounded. A result beyond the largest finite number is nothing.
-/

namespace ApiSchema

/-- A finite binary64 number: `mantissa` times two to the `exponent`, with a sign. Zero has a
sign too. -/
structure Binary64 where
  negative : Bool
  mantissa : Nat
  exponent : Int
  canonical : mantissa < 1 <<< 53 ∧ -1074 ≤ exponent ∧ exponent ≤ 971 ∧
    (1 <<< 52 ≤ mantissa ∨ exponent = -1074)
  deriving DecidableEq, Repr

namespace Binary64

/-- Positive zero. -/
def zero : Binary64 where
  negative := false
  mantissa := 0
  exponent := -1074
  canonical := by decide

instance : Inhabited Binary64 := ⟨zero⟩

/-- The number with the other sign. -/
def neg (x : Binary64) : Binary64 :=
  { x with negative := !x.negative }

/-- True of both zeros. -/
def isZero (x : Binary64) : Bool :=
  x.mantissa == 0

/-- Numerator and denominator of the absolute value. -/
def fraction (x : Binary64) : Nat × Nat :=
  if 0 ≤ x.exponent then (x.mantissa <<< x.exponent.toNat, 1)
  else (x.mantissa, 1 <<< (-x.exponent).toNat)

/-- The natural number nearest to a fraction; of two at the same distance the even one. -/
def roundDiv (num den : Nat) : Nat :=
  let quotient := num / den
  let remainder := num % den
  if 2 * remainder < den ∨ (2 * remainder = den ∧ quotient % 2 = 0) then quotient
  else quotient + 1

/-- A fraction divided by two to some exponent. -/
def scale (num den : Nat) (exponent : Int) : Nat × Nat :=
  if 0 ≤ exponent then (num, den <<< exponent.toNat) else (num <<< (-exponent).toNat, den)

/-- The exponent at which a positive fraction has a mantissa of 53 bits, but at least the one of
the smallest numbers. -/
def exponentOf (num den : Nat) : Int :=
  let low := max (-1074) ((num.log2 : Int) - den.log2 - 53)
  let (n, d) := scale num den low
  if n / d < 1 <<< 53 then low else low + 1

/-- The nonnegative number with some mantissa and exponent, if there is one. -/
def ofParts? (mantissa : Nat) (exponent : Int) : Option Binary64 :=
  if h : mantissa < 1 <<< 53 ∧ -1074 ≤ exponent ∧ exponent ≤ 971 ∧
      (1 <<< 52 ≤ mantissa ∨ exponent = -1074) then
    some ⟨false, mantissa, exponent, h⟩
  else
    none

/-- The number nearest to a nonnegative fraction; of two at the same distance the one with the
even mantissa. Nothing if the fraction rounds past the largest number. -/
def nearest? (num den : Nat) : Option Binary64 :=
  if num = 0 then some zero
  else
    let exponent := exponentOf num den
    let (n, d) := scale num den exponent
    let mantissa := roundDiv n d
    if mantissa = 1 <<< 53 then ofParts? (1 <<< 52) (exponent + 1) else ofParts? mantissa exponent

/-- The product of two absolute values, rounded. -/
def mul? (x y : Binary64) : Option Binary64 :=
  nearest? (x.fraction.1 * y.fraction.1) (x.fraction.2 * y.fraction.2)

/-- The quotient of two absolute values, rounded. -/
def div? (x y : Binary64) : Option Binary64 :=
  nearest? (x.fraction.1 * y.fraction.2) (x.fraction.2 * y.fraction.1)

end Binary64

end ApiSchema
