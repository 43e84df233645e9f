/-
# Objects of the engine

The engine holds environments, databases, rows, cursors and transactions in one table and knows
them by handle. An environment owns the databases declared in it, the rows of those databases,
and the cursors and transactions begun in it. A row is a set of named cells on its way into or out
of a database. A transaction holds the writes to make on commit: a record to put or a key to
delete, by database and key.

Key definitions: `Engine.Object`, `Engine.Objects`, `Engine.Objects.owner?`.
-/
import RowStore.Engine.Refusal
import RowStore.Engine.Seek
import RowStore.Merge.Function

namespace RowStore

namespace Engine

/-- An environment: its settings and the handles of its databases by name. -/
structure Environment where
  opened : Bool := false
  settings : Table String Cell := {}
  databases : Table String Handle := {}

/-- Where a merge function is registered: the registry and the token in it. -/
structure Hook where
  registry : Nat
  token : Nat
  deriving DecidableEq, Repr, Inhabited

/-- A database: its fields, keys first, and its records. -/
structure Database where
  env : Handle
  name : String
  fields : List Field
  records : Records := {}
  hook? : Option Hook := none

/-- A row: cells by field name, pseudo-fields included. -/
structure Row where
  db : Handle
  cells : Table String Cell := {}

/-- How far a cursor is. -/
inductive Progress where
  | unstarted
  | scanning (seek : Seek)
  | finished

/-- A cursor. The row it is first advanced from says what it scans. -/
structure Cursor where
  env : Handle
  progress : Progress := .unstarted

/-- A key of a database. -/
structure Place where
  db : Handle
  key : Key
  deriving DecidableEq

namespace Place

/-- By database, then by key. -/
instance : Ord Place := ⟨compareLex (compareOn (·.db)) (compareOn (·.key))⟩

instance : Std.TransOrd Place :=
  inferInstanceAs (Std.TransCmp (compareLex (compareOn Place.db) (compareOn Place.key)))

instance : Std.LawfulEqOrd Place where
  compare_self := Std.ReflCmp.compare_self
  eq_of_compare := by
    rintro ⟨db, key⟩ ⟨db', key'⟩ h
    obtain ⟨hdb, hkey⟩ := Ordering.then_eq_eq.1 h
    have sameDb : db = db' := Std.LawfulEqCmp.eq_of_compare (show compare db db' = .eq from hdb)
    have sameKey : key = key' :=
      Std.LawfulEqCmp.eq_of_compare (show compare key key' = .eq from hkey)
    rw [sameDb, sameKey]

end Place

/-- A transaction: the records to put, and `none` for the keys to delete. -/
structure Transaction where
  env : Handle
  writes : Table Place (Option Record) := {}

/-- An object. -/
inductive Object where
  | environment (environment : Environment)
  | database (database : Database)
  | row (row : Row)
  | cursor (cursor : Cursor)
  | transaction (transaction : Transaction)

/-- The live objects by handle, and the last handle issued. -/
structure Objects where
  issued : Nat := 0
  table : Table Handle Object := {}

namespace Database

/-- The key fields, the leading one first. -/
def keyFields (db : Database) : List Field := db.fields.filter (·.isKey)

/-- The field of a given name. -/
def field (db : Database) (name : String) : Except Refusal Field :=
  match db.fields.find? (·.name == name) with
  | some field => .ok field
  | none => .error (.unknownField db.name name)

/-- The key of a row. Every key field has to hold a cell of its kind. -/
def keyOf (db : Database) (row : Row) : Except Refusal Key :=
  db.keyFields.mapM fun field =>
    match (row.cells.get? field.name).bind (KeyPart.ofCell? field.type) with
    | some part => .ok part
    | none => .error (.missingKey field.name)

/-- The record a row makes, fields that were not set at their defaults. -/
def recordOf (db : Database) (row : Row) : Record :=
  db.fields.map fun field => (row.cells.get? field.name).getD (Cell.unset field.type)

/-- The row of a record of the database with handle `h`. -/
def rowOf (db : Database) (h : Handle) (record : Record) : Row where
  db := h
  cells := Table.ofList ((db.fields.zip record).map fun (field, cell) => (field.name, cell))

/-- The images of a record. -/
def encode (db : Database) (record : Record) : Images :=
  (db.fields.zip record).map fun (field, cell) => cell.encode field.type

/-- The record that images stand for. -/
def decode (db : Database) (images : Images) : Except Refusal Record :=
  (db.fields.zip images).mapM fun (field, image) =>
    match Cell.decode? field.type image with
    | some cell => .ok cell
    | none => .error (.typeMismatch field.name field.type)

end Database

namespace Objects

/-- The object of a handle. -/
def find (objects : Objects) (h : Handle) : Except Refusal Object :=
  match objects.table.get? h with
  | some object => .ok object
  | none => .error (.unknownHandle h)

/-- The environment of a handle. -/
def environment (objects : Objects) (h : Handle) : Except Refusal Environment := do
  match ← objects.find h with
  | .environment env => .ok env
  | _ => .error (.wrongObject h "an environment")

/-- The database of a handle. -/
def database (objects : Objects) (h : Handle) : Except Refusal Database := do
  match ← objects.find h with
  | .database db => .ok db
  | _ => .error (.wrongObject h "a database")

/-- The row of a handle. -/
def row (objects : Objects) (h : Handle) : Except Refusal Row := do
  match ← objects.find h with
  | .row row => .ok row
  | _ => .error (.wrongObject h "a row")

/-- The cursor of a handle. -/
def cursor (objects : Objects) (h : Handle) : Except Refusal Cursor := do
  match ← objects.find h with
  | .cursor cursor => .ok cursor
  | _ => .error (.wrongObject h "a cursor")

/-- The transaction of a handle. -/
def transaction (objects : Objects) (h : Handle) : Except Refusal Transaction := do
  match ← objects.find h with
  | .transaction tx => .ok tx
  | _ => .error (.wrongObject h "a transaction")

/-- Adds an object under the next handle. -/
def add (objects : Objects) (object : Object) : Handle × Objects :=
  (objects.issued + 1,
    { issued := objects.issued + 1, table := objects.table.insert (objects.issued + 1) object })

/-- Replaces the object of a handle. -/
def put (objects : Objects) (h : Handle) (object : Object) : Objects :=
  { objects with table := objects.table.insert h object }

/-- Removes the object of a handle. -/
def remove (objects : Objects) (h : Handle) : Objects :=
  { objects with table := objects.table.erase h }

/-- The environment that owns an object. A row is owned through its database. -/
def owner? (objects : Objects) (h : Handle) : Object → Option Handle
  | .environment _ => some h
  | .database db => some db.env
  | .row row =>
    match objects.table.get? row.db with
    | some (.database db) => some db.env
    | _ => none
  | .cursor cursor => some cursor.env
  | .transaction tx => some tx.env

/-- Whether the environment of a handle is opened. -/
def ensureOpened (objects : Objects) (h : Handle) : Except Refusal Unit := do
  let env ← objects.environment h
  if env.opened then .ok () else .error .notOpened

/-- The number of live objects. -/
def size (objects : Objects) : Nat := objects.table.size

/-- The number of live rows. -/
def rowCount (objects : Objects) : Nat :=
  objects.table.values.countP fun
    | .row _ => true
    | _ => false

/-- The number of records in all databases. -/
def recordCount (objects : Objects) : Nat :=
  (objects.table.values.map fun
    | .database db => db.records.size
    | _ => 0).foldr (· + ·) 0

end Objects
end Engine
end RowStore
