/-
# Intervals

An interval has two ends, each open to infinity, included or excluded. A value lies below it,
within it or above it; an empty interval has no value within.

Key definitions: `Interval`, `Interval.locate`.
-/

namespace RowStore

/-- One end of an interval. -/
inductive Limit (α : Type) where
  | unbounded
  | included (a : α)
  | excluded (a : α)
  deriving DecidableEq, Repr, Inhabited

namespace Limit

/-- The same limit without its value. -/
def exclude : Limit α → Limit α
  | .included a => .excluded a
  | limit => limit

/-- Whether a value falls short of a lower limit. -/
def exceeds [Ord α] (limit : Limit α) (a : α) : Bool :=
  match limit with
  | .unbounded => false
  | .included low => compare a low == .lt
  | .excluded low => compare a low != .gt

/-- Whether a value goes past an upper limit. -/
def precedes [Ord α] (limit : Limit α) (a : α) : Bool :=
  match limit with
  | .unbounded => false
  | .included high => compare a high == .gt
  | .excluded high => compare a high != .lt

end Limit

/-- Where a value lies. -/
inductive Side where
  | below
  | within
  | above
  deriving DecidableEq, Repr, Inhabited

/-- An interval: its lower and its upper end. -/
structure Interval (α : Type) where
  low : Limit α
  high : Limit α
  deriving DecidableEq, Repr, Inhabited

namespace Interval

/-- Where a value lies; what falls short of the lower end counts as below also if it goes past
the upper one. -/
def locate [Ord α] (interval : Interval α) (a : α) : Side :=
  if interval.low.exceeds a then .below
  else if interval.high.precedes a then .above
  else .within

/-- Whether the interval holds every value. -/
def isUnbounded (interval : Interval α) : Bool :=
  match interval with
  | ⟨.unbounded, .unbounded⟩ => true
  | _ => false

/-- The interval without the end that a scan starts from: the lower one of a scan that runs up. -/
def excludeStart (interval : Interval α) (descending : Bool) : Interval α :=
  if descending then { interval with high := interval.high.exclude }
  else { interval with low := interval.low.exclude }

end Interval
end RowStore
