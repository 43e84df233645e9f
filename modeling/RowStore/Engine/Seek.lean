/-
# Positions of a scan

A scan of the records of a database has a seed, the first few parts of a key, an order, and
possibly bytes that the leading key starts with. Its position is the last key it returned. The
next record is the first in scan order past that key, or, at the start, the first that the seed
admits, among those whose leading key starts with the given bytes.

Key definitions: `Seek`, `Seek.candidates`, `Seek.next?`.
-/
import RowStore.Data.Key
import RowStore.Data.Table
import RowStore.Scan.Order

namespace RowStore

/-- A record: one cell per field, in the order of the fields. -/
abbrev Record := List Cell

/-- The records of a database, by key. -/
abbrev Records := Table Key Record

/-- A scan and its position. -/
structure Seek where
  /-- The database scanned. -/
  db : Nat
  order : ScanOrder
  /-- The types of the key fields. -/
  keyTypes : List FieldType
  seed : Key
  startsWith? : Option Bytes
  /-- The last key returned. -/
  last? : Option Key
  deriving DecidableEq

/-- Where a leading key lies, as seen from a scan for the bytes it starts with. -/
inductive Reach where
  | before
  | within
  | beyond
  deriving DecidableEq, Repr, Inhabited

namespace Seek

/-- The lowest key that an upward scan can start at. -/
def lowerBound (seek : Seek) : Key :=
  let seeded := Key.pad seek.keyTypes seek.seed
  match seek.startsWith? with
  | none => seeded
  | some bytes =>
    let start := Key.pad seek.keyTypes [.bytes bytes]
    if compare seeded start == .gt then seeded else start

/-- Where the leading key lies. -/
def reach (seek : Seek) (key : Key) : Reach :=
  match seek.startsWith? with
  | none => .within
  | some bytes =>
    if bytes.isPrefixOf key.leadingBytes then .within
    else if compare key.leadingBytes bytes ==
        (if seek.order.isDescending then .gt else .lt) then .before
    else .beyond

/-- Whether the seed itself is left out. A scan without a seed leaves nothing out. -/
def excludesSeed (seek : Seek) : Bool := seek.order.isExclusive && !seek.seed.isEmpty

/-- The records that are still to come, in scan order. -/
def candidates (seek : Seek) (records : Records) : List (Key × Record) :=
  match seek.last?, seek.order.isDescending with
  | some last, false => records.entries.filter fun e => compare last e.1 == .lt
  | some last, true => records.entries.reverse.filter fun e => compare e.1 last == .lt
  | none, false =>
    (records.entries.filter fun e => compare seek.lowerBound e.1 != .gt).dropWhile fun e =>
      seek.excludesSeed && e.1.compareOn seek.seed == .eq
  | none, true =>
    records.entries.reverse.dropWhile fun e =>
      e.1.compareOn seek.seed == .gt || (seek.excludesSeed && e.1.compareOn seek.seed == .eq)

/-- The first record that a scan reaches, unless it has gone beyond its bytes. -/
def firstWithin (seek : Seek) : List (Key × Record) → Option (Key × Record)
  | [] => none
  | e :: rest =>
    match seek.reach e.1 with
    | .within => some e
    | .before => firstWithin seek rest
    | .beyond => none

/-- The next record of the scan. -/
def next? (seek : Seek) (records : Records) : Option (Key × Record) :=
  seek.firstWithin (seek.candidates records)

end Seek
end RowStore
