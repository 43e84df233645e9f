/-
# Throughput

The operations of a run, those that succeeded and those that failed, over the time it took.

Key definitions: `Throughput`, `Throughput.perSecond`.
-/

namespace RowStore

/-- A run of operations. -/
structure Throughput where
  successful : Nat
  failed : Nat
  /-- The time taken, in nanoseconds. -/
  ns : Nat
  deriving DecidableEq, Repr, Inhabited

namespace Throughput

/-- The number of operations. -/
def total (run : Throughput) : Nat := run.successful + run.failed

/-- The nanoseconds in a second. -/
def nsPerSecond : Nat := 1000000000

/-- The time taken in seconds: the whole seconds and the fraction are rounded on their own. -/
def seconds (run : Throughput) : Float :=
  let fraction := (run.ns % nsPerSecond).toUInt64.toFloat / nsPerSecond.toUInt64.toFloat
  (run.ns / nsPerSecond).toUInt64.toFloat + fraction

/-- The operations per second, 0 if no time passed. -/
def perSecond (run : Throughput) : Float :=
  if run.seconds > 0 then run.total.toUInt64.toFloat / run.seconds else 0

end Throughput
end RowStore
