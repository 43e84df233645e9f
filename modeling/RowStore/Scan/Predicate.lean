/-
# Predicates

A constraint on a field compiles to a predicate: an interval of signed integers, of unsigned
integers or of byte strings, against which every fetched row is placed. The kind of the interval
follows the bounds: integers are compared as signed if no bound is unsigned or one is negative.
A field is scanned down if the scan runs down or the field is reversed, but not if both hold. A
row past the interval in that direction ends the scan, if the predicate is on the leading key;
every other row outside is skipped.

Key definitions: `Predicate`, `Predicate.compile`, `Predicate.startingWith`,
`Predicate.evaluate`.
-/
import RowStore.Client.Failure
import RowStore.Scan.Criteria
import RowStore.Scan.Interval

namespace RowStore

/-- What a predicate says about a row. -/
inductive Verdict where
  /-- The row matches. -/
  | pass
  /-- The row does not match, a later one may. -/
  | skip
  /-- The row does not match, and no later one can. -/
  | stop
  deriving DecidableEq, Repr, Inhabited

/-- What a field is checked for. -/
inductive Test where
  /-- Nothing. -/
  | all
  | signed (interval : Interval Int64)
  | unsigned (interval : Interval UInt64)
  | bytes (interval : Interval Bytes)
  deriving DecidableEq, Inhabited

namespace Test

/-- Whether every value passes. -/
def isUnbounded : Test → Bool
  | .all => true
  | .signed interval => interval.isUnbounded
  | .unsigned interval => interval.isUnbounded
  | .bytes interval => interval.isUnbounded

/-- The test without the end that a scan starts from. -/
def excludeStart (descending : Bool) : Test → Test
  | .all => .all
  | .signed interval => .signed (interval.excludeStart descending)
  | .unsigned interval => .unsigned (interval.excludeStart descending)
  | .bytes interval => .bytes (interval.excludeStart descending)

/-- Where a value lies. An integer is taken for the one of the other signedness with the same 64
bits; a value of another kind has no place. -/
def locate? : Test → Value → Option Side
  | .all, _ => some .within
  | .signed interval, .int v => some (interval.locate v)
  | .signed interval, .uint v => some (interval.locate v.toInt64)
  | .unsigned interval, .int v => some (interval.locate v.toUInt64)
  | .unsigned interval, .uint v => some (interval.locate v)
  | .bytes interval, .str b => some (interval.locate b)
  | _, _ => none

end Test

/-- Whether bounds are compared as signed integers: none is unsigned, or one is negative. -/
def comparesSigned (bounds : List Value) : Bool :=
  bounds.any (fun
    | .int v => decide (v < 0)
    | _ => false) ||
  !bounds.any fun
    | .uint _ => true
    | _ => false

/-- A check of one field of a row. -/
structure Predicate where
  field : String
  test : Test
  /-- Whether the field is scanned from high to low. -/
  descending : Bool
  /-- Whether the field is the leading key. -/
  leading : Bool
  deriving DecidableEq, Inhabited

namespace Predicate

/-- A string constrains string fields only, an integer integer fields only. -/
def checkKind (field : Field) (kind : ValueKind) : Except Failure Unit :=
  if field.type.isString == (kind == .str) then .ok ()
  else .error (.mismatch field.name field.type kind)

/-- The interval between two bounds read by `read?`. -/
def interval (field : Field) (read? : Value → Option α) (low high : Option Value) :
    Except Failure (Interval α) := do
  return ⟨← limit low, ← limit high⟩
where
  /-- One end, if `read?` makes anything of it. -/
  limit : Option Value → Except Failure (Limit α)
    | none => .ok .unbounded
    | some value =>
      match read? value with
      | some a => .ok (.included a)
      | none => .error (.invalidOperation
          s!"bound {value.text} on field '{field.name}' does not fit the comparison")

/-- The test of a field for lying between two bounds. -/
def testBetween (field : Field) (low high : Option Value) : Except Failure Test :=
  if field.type.isString then
    return .bytes (← interval field Value.asBytes? low high)
  else if comparesSigned (low.toList ++ high.toList) then
    return .signed (← interval field Value.asInt? low high)
  else
    return .unsigned (← interval field Value.asUInt? low high)

/-- Compiles a constraint for a scan in the given order. In an exclusive order a range on the
leading key loses the bound that the scan starts from. -/
def compile (field : Field) (criterion : Criterion) (order : ScanOrder) (leading : Bool) :
    Except Failure Predicate := do
  let (low, high) := criterion.bounds
  (low.toList ++ high.toList).forM fun value => checkKind field value.kind
  let descending := order.isDescending != field.type.isReversed
  let test ← testBetween field low high
  let test :=
    match criterion with
    | .equals _ => test
    | .between .. =>
      if leading && order.isExclusive then test.excludeStart descending else test
  return {
    field := field.name
    test := if test.isUnbounded then .all else test
    descending := descending
    leading := leading }

/-- The predicate that the leading key starts with the given bytes. -/
def startingWith (field : Field) (bytes : Bytes) (order : ScanOrder) :
    Except Failure Predicate := do
  checkKind field .str
  return {
    field := field.name
    test := .bytes ⟨.included bytes,
      match bytes.successor? with
      | some next => .excluded next
      | none => .unbounded⟩
    descending := order.isDescending
    leading := true }

/-- Whether every value passes. -/
def isUnconstrained (predicate : Predicate) : Bool := predicate.test == .all

/-- The verdict on a row whose field lies on a side of the interval, or has no place in it. -/
def judge (predicate : Predicate) : Option Side → Verdict
  | some .within => .pass
  | some .above => if predicate.leading && !predicate.descending then .stop else .skip
  | some .below => if predicate.leading && predicate.descending then .stop else .skip
  | none => .skip

/-- The verdict on a row with the given value in the field. -/
def evaluate (predicate : Predicate) (value : Value) : Verdict :=
  predicate.judge (predicate.test.locate? value)

end Predicate
end RowStore
