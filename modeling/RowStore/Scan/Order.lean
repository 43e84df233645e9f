/-
# Orders of a scan

A scan runs up or down from its seed, with the seed or without it. An order is written as the
comparison with the seed that its rows satisfy.

Key definitions: `ScanOrder`, `ScanOrder.ofBytes?`, `Termination`.
-/
import RowStore.Data.Bytes

namespace RowStore

/-- The direction of a scan, and whether it includes its seed. -/
inductive ScanOrder where
  | gt
  | gte
  | lt
  | lte
  deriving DecidableEq, Repr

/-- A scan runs up from its seed, the seed included, unless told otherwise. -/
instance : Inhabited ScanOrder := ⟨.gte⟩

namespace ScanOrder

/-- The written form. -/
def symbol : ScanOrder → String
  | .gt => ">"
  | .gte => ">="
  | .lt => "<"
  | .lte => "<="

/-- The name of the order. -/
def name : ScanOrder → String
  | .gt => "Gt"
  | .gte => "Gte"
  | .lt => "Lt"
  | .lte => "Lte"

/-- The order of a written form. -/
def ofBytes? (bytes : Bytes) : Option ScanOrder :=
  [gt, gte, lt, lte].find? fun order => Bytes.ofText order.symbol == bytes

/-- Whether the scan runs down. -/
def isDescending : ScanOrder → Bool
  | .lt => true
  | .lte => true
  | _ => false

/-- Whether the scan leaves its seed out. -/
def isExclusive : ScanOrder → Bool
  | .gt => true
  | .lt => true
  | _ => false

/-- The same direction, the seed included. -/
def inclusive : ScanOrder → ScanOrder
  | .gt => .gte
  | .gte => .gte
  | .lt => .lte
  | .lte => .lte

end ScanOrder

/-- What a cursor does with a row past the range of the leading key. -/
inductive Termination where
  /-- End the scan: no later row can match. -/
  | early
  /-- Skip the row and go on to the end of the data. -/
  | exhaustive
  deriving DecidableEq, Repr, Inhabited

end RowStore
