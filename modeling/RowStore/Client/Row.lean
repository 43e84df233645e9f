/-
# Rows

A row in the hands of a client. Its fields are set and read by name, integers as the same 64 bits
whatever their signedness. Handing a row to a store or a cursor gives it up, and so does
destroying it; a row that is not given up is released. Once its environment is closed a row reads
as empty and there is nothing to release.

Key definitions: `Client.Row`, `Client.Row.set`, `Client.Row.get`, `Client.Row.release`,
`Client.Row.dump`.
-/
import RowStore.Client.World
import RowStore.Data.Schema
import RowStore.Text.Lossy

namespace RowStore.Client

/-- A row: its environment and its handle. -/
structure Row where
  env : Handle
  handle : Handle
  deriving DecidableEq, Repr, Inhabited

namespace Row

/-- Sets a field to bytes. -/
def setBytes (row : Row) (field : String) (bytes : Bytes) : Attempt Unit := do
  ensureOpen row.env
  tryWithName row.env field fun name =>
    orRefused row.env "set field" (.setBytes row.handle name bytes)

/-- Sets a field to a word. -/
def setWord (row : Row) (field : String) (w : UInt64) : Attempt Unit := do
  ensureOpen row.env
  tryWithName row.env field fun name =>
    orRefused row.env "set field" (.setWord row.handle name w)

/-- Sets a field to a value. -/
def set (row : Row) (field : String) : Value → Attempt Unit
  | .int v => row.setWord field v.toUInt64
  | .uint v => row.setWord field v
  | .str bytes => row.setBytes field bytes

/-- Sets fields in order, up to the first that fails. -/
def setAll (row : Row) (fields : List (String × Value)) : Attempt Unit :=
  fields.forM fun (field, value) => row.set field value

/-- The word in a field. -/
def getWord (row : Row) (field : String) : Client (Option UInt64) := do
  if ← isClosed row.env then return none
  withName row.env field fun name => call (.getWord row.handle name)

/-- The bytes in a field. -/
def getBytes (row : Row) (field : String) : Client (Option Bytes) := do
  if ← isClosed row.env then return none
  withName row.env field fun name => call (.getBytes row.handle name)

/-- The text in a field. -/
def getText (row : Row) (field : String) : Client (Option String) :=
  return (← row.getBytes field).map Text.ofBytes

/-- A field as a value of the given kind. -/
def get (row : Row) (field : String) : ValueKind → Client (Option Value)
  | .int => return (← row.getWord field).map fun w => .int w.toInt64
  | .uint => return (← row.getWord field).map .uint
  | .str => return (← row.getBytes field).map .str

/-- Destroys a row that was not given up. A refusal has no consequence. -/
def release (row : Row) : Client Unit := do
  if ← isClosed row.env then return
  discard (call (.destroy row.handle))

/-- Gives up a row by destroying it. -/
def destroy (row : Row) : Attempt Unit := do
  if ← isClosed row.env then return
  orRefused row.env "destroy row" (.destroy row.handle)

/-- All fields of a schema: strings as bytes, integers as unsigned. -/
def dump (row : Row) (schema : Schema) : Client (List (Option Value)) :=
  schema.fields.mapM fun field => row.get field.name (if field.type.isString then .str else .uint)

/-- A one-line summary. -/
def summary (row : Row) : String := s!"Row \x7b handle: {row.handle.summary} \x7d"

end Row
end RowStore.Client
