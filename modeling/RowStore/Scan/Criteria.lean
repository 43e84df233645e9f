/-
# Criteria

What a cursor is asked for: constraints on fields, each an equality or a range with both ends
included, the bytes that the leading key starts with, an order and a termination. A set of
criteria is built clause by clause. A field takes one constraint, the order and the leading bytes
are given once, and two bounds must be comparable; a clause that breaks a rule is rejected.

Key definitions: `Criterion`, `CriteriaSet`, `Clause`, `CriteriaSet.add`, `CriteriaSet.build`.
-/
import RowStore.Data.Value
import RowStore.Scan.Order

namespace RowStore

/-- The pseudo-field that carries the order of a scan. -/
def orderField : String := "order"

/-- The pseudo-field that carries the bytes that the leading keys of a scan start with. -/
def prefixField : String := "prefix"

/-- A constraint on one field. -/
inductive Criterion where
  /-- The field equals the value. -/
  | equals (value : Value)
  /-- The field lies between the bounds, both included; an absent bound is open. -/
  | between (low high : Option Value)
  deriving DecidableEq, Inhabited

namespace Criterion

/-- The least and the greatest value allowed. -/
def bounds : Criterion → Option Value × Option Value
  | .equals value => (some value, some value)
  | .between low high => (low, high)

/-- The value that a scan of the field starts from. -/
def seed (criterion : Criterion) (descending : Bool) : Option Value :=
  if descending then criterion.bounds.2 else criterion.bounds.1

end Criterion

/-- Why a clause is rejected. -/
inductive CriteriaFault where
  | duplicate (setting : String)
  | duplicateField (field : String)
  | reserved (field : String)
  | differentKinds (field : String) (low high : ValueKind)
  | noCommonKind (field : String) (low high : Value)
  deriving DecidableEq, Inhabited

/-- The text of a rejection. -/
def CriteriaFault.message : CriteriaFault → String
  | .duplicate setting => s!"duplicate criteria for '{setting}'"
  | .duplicateField field => s!"duplicate criteria for field '{field}'"
  | .reserved field => s!"'{field}' is reserved, use order() or prefix()"
  | .differentKinds field low high =>
    s!"range bounds on '{field}' must be of the same kind, got {low.text} and {high.text}"
  | .noCommonKind field low high =>
    s!"range bounds {low.text} and {high.text} on '{field}' have no common integer kind"

/-- Criteria for a cursor. -/
structure CriteriaSet where
  /-- The constrained fields, in the order they were added. -/
  fields : List (String × Criterion) := []
  order? : Option ScanOrder := none
  /-- The bytes that leading keys start with. -/
  startsWith? : Option Bytes := none
  termination? : Option Termination := none
  deriving Inhabited

/-- One thing asked of a cursor. -/
inductive Clause where
  | equals (field : String) (value : Value)
  | between (field : String) (low high : Option Value)
  | startsWith (bytes : Bytes)
  | order (order : ScanOrder)
  | termination (termination : Termination)
  deriving Inhabited

/-- The field a clause constrains. -/
def Clause.field? : Clause → Option String
  | .equals field _ => some field
  | .between field _ _ => some field
  | _ => none

/-- Two bounds are comparable if both are strings, or both integers that one signedness holds:
one of them converts to the kind of the other. -/
def checkComparable (field : String) (low high : Value) : Except CriteriaFault Unit :=
  if low.kind.isInteger != high.kind.isInteger then
    .error (.differentKinds field low.kind high.kind)
  else
    match low, high with
    | .int i, .uint u => mix i u
    | .uint u, .int i => mix i u
    | _, _ => .ok ()
where
  /-- Whether a signed and an unsigned bound have a kind in common. -/
  mix (i : Int64) (u : UInt64) : Except CriteriaFault Unit :=
    if 0 ≤ i ∨ u.toNat ≤ Value.greatestInt then .ok () else .error (.noCommonKind field low high)

namespace CriteriaSet

/-- The constraint on a field. -/
def get? (criteria : CriteriaSet) (field : String) : Option Criterion :=
  (criteria.fields.find? (·.1 == field)).map (·.2)

/-- The order of the scan. -/
def order (criteria : CriteriaSet) : ScanOrder := criteria.order?.getD default

/-- Constrains a field that is neither reserved nor constrained yet. -/
def constrain (criteria : CriteriaSet) (field : String) (criterion : Criterion) :
    Except CriteriaFault CriteriaSet :=
  if field = orderField ∨ field = prefixField then .error (.reserved field)
  else if (criteria.get? field).isSome then .error (.duplicateField field)
  else .ok { criteria with fields := criteria.fields ++ [(field, criterion)] }

/-- Adds a clause. Whether two bounds are comparable is asked first. -/
def add (criteria : CriteriaSet) : Clause → Except CriteriaFault CriteriaSet
  | .equals field value => criteria.constrain field (.equals value)
  | .between field low high =>
    match low, high with
    | some a, some b => do
      checkComparable field a b
      criteria.constrain field (.between low high)
    | _, _ => criteria.constrain field (.between low high)
  | .startsWith bytes =>
    if criteria.startsWith?.isSome then .error (.duplicate prefixField)
    else .ok { criteria with startsWith? := some bytes }
  | .order order =>
    if criteria.order?.isSome then .error (.duplicate orderField)
    else .ok { criteria with order? := some order }
  | .termination termination => .ok { criteria with termination? := some termination }

/-- The criteria of a list of clauses, or the first rejection. -/
def build (clauses : List Clause) : Except CriteriaFault CriteriaSet :=
  clauses.foldlM add {}

end CriteriaSet
end RowStore
