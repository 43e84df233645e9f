/-
# Spans of time as text

A span counted in nanoseconds is written in the largest of seconds, milliseconds, microseconds and
nanoseconds that it reaches, with the exact decimal fraction and no trailing zeros.

Key definitions: `Text.decimal`, `Text.elapsed`.
-/

namespace RowStore.Text

/-- The digits of `n`, at least `places` of them. -/
def padded (places n : Nat) : List Char :=
  let digits := Nat.toDigits 10 n
  List.replicate (places - digits.length) '0' ++ digits

/-- `n` with the point before its last `places` digits, without trailing zeros. -/
def decimal (n places : Nat) : String :=
  let unit := Nat.pow 10 places
  let fraction := ((padded places (n % unit)).reverse.dropWhile (· == '0')).reverse
  let whole := String.ofList (Nat.toDigits 10 (n / unit))
  if n % unit = 0 then whole else whole ++ "." ++ String.ofList fraction

/-- The text of a span of `ns` nanoseconds. -/
def elapsed (ns : Nat) : String :=
  if 1000000000 ≤ ns then decimal ns 9 ++ "s"
  else if 1000000 ≤ ns then decimal ns 6 ++ "ms"
  else if 1000 ≤ ns then decimal ns 3 ++ "µs"
  else decimal ns 0 ++ "ns"

end RowStore.Text
