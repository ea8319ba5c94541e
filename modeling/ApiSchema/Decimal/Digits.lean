import ApiSchema.Text.Basic

/-!
Natural numbers written in decimal digits.

Main statement: `natOfDigits_digits`, a number is read back from its digits.
-/

namespace ApiSchema

/-- The value of a character as a decimal digit. -/
def digitValue (c : Char) : Nat :=
  c.toNat - '0'.toNat

/-- The character of a digit below ten. -/
def digitChar (n : Nat) : Char :=
  Char.ofNat ('0'.toNat + n)

/-- The decimal digits of a number, without leading zeros. -/
def digits (n : Nat) : Text :=
  if n < 10 then [digitChar n] else digits (n / 10) ++ [digitChar (n % 10)]

/-- The number that a run of decimal digits stands for. -/
def natOfDigits (text : Text) : Nat :=
  text.foldl (fun n c => 10 * n + digitValue c) 0

theorem digitValue_digitChar {n : Nat} (h : n < 10) : digitValue (digitChar n) = n := by
  have : ∀ m < 10, digitValue (digitChar m) = m := by decide
  exact this n h

theorem isDigit_digitChar {n : Nat} (h : n < 10) : (digitChar n).isDigit = true := by
  have : ∀ m < 10, (digitChar m).isDigit = true := by decide
  exact this n h

theorem natOfDigits_append_singleton (text : Text) (c : Char) :
    natOfDigits (text ++ [c]) = 10 * natOfDigits text + digitValue c := by
  simp [natOfDigits]

theorem natOfDigits_digits (n : Nat) : natOfDigits (digits n) = n := by
  induction n using digits.induct with
  | case1 n small =>
    rw [digits, if_pos small]
    simp [natOfDigits, digitValue_digitChar small]
  | case2 n large ih =>
    rw [digits, if_neg large, natOfDigits_append_singleton, ih,
      digitValue_digitChar (Nat.mod_lt n (by decide))]
    omega

/-- An integer in decimal digits, after a minus sign if it is negative. -/
def signedDigits (n : Int) : Text :=
  if n < 0 then '-' :: digits n.natAbs else digits n.natAbs

end ApiSchema
