/-
# Fetching from a cursor

A cursor is advanced from a row, which it takes. The first row seeds the scan: its database, its
order and leading bytes from the pseudo-fields, and as seed the key fields that are set, up to the
first that is not. Every further row only goes in and out. A cursor that has found nothing finds
nothing any more. One whose database is gone is as it was before its first row.

Key definitions: `Engine.Objects.seek`, `Engine.fetchNext`, `Engine.drain`.
-/
import RowStore.Engine.Fields
import RowStore.Text.Lossy

namespace RowStore.Engine

namespace Objects

/-- The values up to the first that is missing. -/
def leadingRun : List (Option α) → List α
  | some a :: rest => a :: leadingRun rest
  | _ => []

/-- The order that a row asks for. -/
def orderOf (row : Row) : Except Refusal ScanOrder :=
  match row.cells.get? orderField with
  | some (.bytes bytes) =>
    match ScanOrder.ofBytes? bytes with
    | some order => .ok order
    | none => .error (.invalidOrder (Text.ofBytes bytes))
  | _ => .ok .gte

/-- The leading bytes that a row asks for. -/
def startsWithOf (db : Database) (row : Row) : Except Refusal (Option Bytes) :=
  match row.cells.get? prefixField with
  | some (.bytes bytes) =>
    match db.keyFields.head? with
    | some ⟨_, .string, _⟩ => .ok (some bytes)
    | _ => .error (.prefixOnNonString db.name)
  | _ => .ok none

/-- The scan that a row seeds. -/
def seek (objects : Objects) (row : Row) : Except Refusal Seek := do
  let db ← objects.database row.db
  objects.ensureOpened db.env
  let order ← orderOf row
  let startsWith? ← startsWithOf db row
  return {
    db := row.db
    order
    keyTypes := db.keyFields.map (·.type)
    seed := leadingRun (db.keyFields.map fun field =>
      (row.cells.get? field.name).bind (KeyPart.ofCell? field.type))
    startsWith?
    last? := none }

/-- Moves a scan on and makes a row of the record found. -/
def advance (objects : Objects) (h : Handle) (cursor : Cursor) (seek : Seek) :
    Except Refusal (Option Handle) × Objects :=
  match objects.database seek.db with
  | .error refusal =>
    (.error refusal, objects.put h (.cursor { cursor with progress := .unstarted }))
  | .ok db =>
    match seek.next? db.records with
    | none => (.ok none, objects.put h (.cursor { cursor with progress := .finished }))
    | some (key, record) =>
      let (row, objects) := objects.add (.row (db.rowOf seek.db record))
      (.ok (some row), objects.put h
        (.cursor { cursor with progress := .scanning { seek with last? := some key } }))

/-- Advances a cursor from a row. -/
def fetchNext (objects : Objects) (h : Handle) (row : Row) :
    Except Refusal (Option Handle) × Objects :=
  match objects.cursor h with
  | .error refusal => (.error refusal, objects)
  | .ok cursor =>
    match cursor.progress with
    | .finished => (.ok none, objects)
    | .scanning seek => objects.advance h cursor seek
    | .unstarted =>
      match objects.seek row with
      | .error refusal => (.error refusal, objects)
      | .ok seek => objects.advance h cursor seek

end Objects

/-- Advances a cursor from a row to the next row. -/
def fetchNext (engine : Engine) (cursor row : Handle) : Option Handle × Engine :=
  match engine.objects.row row with
  | .error refusal => (none, { engine with diagnostic? := some refusal })
  | .ok taken =>
    match (engine.objects.remove row).fetchNext cursor taken with
    | (.ok found, objects) => (found, { engine with objects, diagnostic? := none })
    | (.error refusal, objects) => (none, { engine with objects, diagnostic? := some refusal })

/-- Fetches until nothing is found, each time from the row found before, and reads a field of
every row. A scan finds no record twice, so it ends within one fetch more than there are
records. -/
def drain (engine : Engine) (cursor row : Handle) (field : String) :
    List (Option Bytes) × Engine :=
  go (engine.objects.recordCount + 1) engine row
where
  /-- At most `fuel` fetches. -/
  go : Nat → Engine → Handle → List (Option Bytes) × Engine
    | 0, engine, _ => ([], engine)
    | fuel + 1, engine, row =>
      match engine.fetchNext cursor row with
      | (none, engine) => ([], engine)
      | (some found, engine) =>
        let (value, engine) := engine.getBytes found field
        let (values, engine) := go fuel engine found
        (value :: values, engine)

end RowStore.Engine
