/-
# Ranges of a key set

What a scan of an integer key over a range is expected to find: the keys in the range, sorted in
scan order, an exclusive order leaving out the bound that it starts from.

Key definitions: `expectedRange`.
-/
import RowStore.Scan.Order

namespace RowStore

/-- Whether a key is expected. -/
def isExpected (low high : UInt64) (order : ScanOrder) (key : UInt64) : Bool :=
  decide (low ≤ key ∧ key ≤ high) &&
    match order with
    | .gt => key != low
    | .lt => key != high
    | _ => true

/-- The keys in the range, in scan order. -/
def expectedRange (keys : List UInt64) (low high : UInt64) (order : ScanOrder) : List UInt64 :=
  let sorted := (keys.filter (isExpected low high order)).mergeSort
  if order.isDescending then sorted.reverse else sorted

end RowStore
