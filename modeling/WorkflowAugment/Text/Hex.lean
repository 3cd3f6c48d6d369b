/-!
# Digits to the base 16

Written in small letters without leading zeros, and read in either case.
-/

namespace WorkflowAugment.Text

/-- The digits of `n` to the base 16, small letters, none in front that is 0. -/
def hex (n : Nat) : List Char := Nat.toDigits 16 n

/-- The value of a digit to the base 16. -/
def hexDigit? (c : Char) : Option Nat :=
  if c.isDigit then some (c.toNat - 48)
  else if 'a' ≤ c ∧ c ≤ 'f' then some (c.toNat - 87)
  else if 'A' ≤ c ∧ c ≤ 'F' then some (c.toNat - 55)
  else none

/-- The value of four digits to the base 16. -/
def hexQuad? (a b c d : Char) : Option Nat := do
  return (((← hexDigit? a) * 16 + (← hexDigit? b)) * 16 + (← hexDigit? c)) * 16 + (← hexDigit? d)

end WorkflowAugment.Text
