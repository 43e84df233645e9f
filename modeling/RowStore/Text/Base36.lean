/-
# Base 36

Numbers in base 36 are written with the ten digits and the 26 lower-case letters, without leading
zeros.

Key definitions: `Text.base36Digits`, `Text.base36`.
-/

namespace RowStore.Text

/-- The digit of a value below 36. -/
def base36Digit (d : Nat) : Char :=
  if d < 10 then Char.ofNat ('0'.toNat + d) else Char.ofNat ('a'.toNat + (d - 10))

/-- The digits of `n`, the most significant first. -/
def base36Digits (n : Nat) : List Char :=
  if n < 36 then [base36Digit n] else base36Digits (n / 36) ++ [base36Digit (n % 36)]
termination_by n
decreasing_by exact Nat.div_lt_self (by omega) (by decide)

/-- The text of `n` in base 36. -/
def base36 (n : Nat) : String := String.ofList (base36Digits n)

end RowStore.Text
