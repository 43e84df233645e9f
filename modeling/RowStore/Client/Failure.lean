/-
# Failures of the client layer

Why an operation on an environment, a database, a row, a cursor or a transaction fails. A refusal
of the engine arrives as the name of the operation and the engine's own text; the other causes
are found before the engine is asked.

Key definitions: `Failure`, `Failure.message`.
-/
import RowStore.Data.Field
import RowStore.Data.Value

namespace RowStore

/-- Why a client operation fails. -/
inductive Failure where
  /-- The engine refused a call made for the operation. -/
  | engine (operation message : String)
  /-- No record is stored under the key. -/
  | notFound
  /-- The object was closed before. -/
  | alreadyClosed (resource : String)
  /-- The environment of the object is closed. -/
  | environmentClosed
  /-- No database can have the name. -/
  | invalidName (name : String)
  /-- The schema has a field of the name. -/
  | duplicateField (name : String)
  /-- The schema has no field of the name. -/
  | unknownField (field : String)
  /-- A bound is of another kind than its field. -/
  | mismatch (field : String) (expected : FieldType) (found : ValueKind)
  /-- The request cannot be carried out. -/
  | invalidOperation (message : String)
  deriving DecidableEq, Repr, Inhabited

namespace Failure

/-- The text of a failure. -/
def message : Failure → String
  | .engine operation message => s!"engine error during {operation}: {message}"
  | .notFound => "row not found"
  | .alreadyClosed resource => s!"{resource} is already closed"
  | .environmentClosed => "environment is closed"
  | .invalidName name => s!"invalid database name '{name}'"
  | .duplicateField name => s!"duplicate field '{name}' in schema"
  | .unknownField field => s!"unknown field '{field}'"
  | .mismatch field expected found =>
    s!"criteria on field '{field}' has a {found.text} value, field type is {expected.name}"
  | .invalidOperation message => s!"invalid operation: {message}"

/-- The name of the cause. -/
def kind : Failure → String
  | .engine .. => "Engine"
  | .notFound => "NotFound"
  | .alreadyClosed _ => "AlreadyClosed"
  | .environmentClosed => "EnvironmentClosed"
  | .invalidName _ => "InvalidName"
  | .duplicateField _ => "DuplicateField"
  | .unknownField _ => "UnknownField"
  | .mismatch .. => "CriteriaTypeMismatch"
  | .invalidOperation _ => "InvalidOperation"

end Failure
end RowStore
