/-
# Prepared environments

Environments that are opened and filled for examples: numbers under an integer key, words under
their base-36 names, and events under a group and a sequence number. Each step is expected to
succeed; one that fails aborts with what it was about and the details of the failure.

Key definitions: `Scenario`, `Scenario.prepare`, `Scenario.collectWords`, `Scenario.valueOf`.
-/
import RowStore.Client.Environment
import RowStore.Text.Base36

namespace RowStore

open Client

namespace Failure

/-- The cause of a failure and its details, texts in quotes. -/
def detail (failure : Failure) : String :=
  match fields with
  | [] => failure.kind
  | _ => failure.kind ++ " \x7b " ++ ", ".intercalate fields ++ " \x7d"
where
  /-- The details. -/
  fields : List String :=
    match failure with
    | .engine operation message => [quoted "operation" operation, quoted "message" message]
    | .notFound => []
    | .alreadyClosed resource => [quoted "resource" resource]
    | .environmentClosed => []
    | .invalidName name => [quoted "name" name]
    | .duplicateField name => [quoted "name" name]
    | .unknownField field => [quoted "field" field]
    | .mismatch field expected found =>
      [quoted "field" field, "expected: " ++ typeName expected, "found: " ++ kindName found]
    | .invalidOperation message => [quoted "message" message]
  /-- A text by name. -/
  quoted (name text : String) : String := name ++ ": " ++ Text.quoted text
  /-- The name of a type, its parts capitalised. -/
  typeName : FieldType → String
    | .int width reversed => s!"U{8 * width.bytes}" ++ if reversed then "Rev" else ""
    | .string => "String"
  /-- The name of a kind, capitalised. -/
  kindName : ValueKind → String
    | .int => "Int"
    | .uint => "Uint"
    | .str => "Str"

end Failure

/-- Why a scenario ends early. -/
inductive Setback where
  | failure (failure : Failure)
  /-- Something expected did not happen. -/
  | abort (message : String)
  deriving DecidableEq, Repr, Inhabited

/-- A prepared environment. -/
inductive Scenario where
  /-- Keys `0` to `count - 1` of an integer type. -/
  | numbered (type : FieldType) (count : Nat)
  /-- The base-36 names of `0` to `count - 1`. -/
  | base36 (count : Nat)
  /-- In each group, sequence numbers `0` to `perGroup - 1`. -/
  | grouped (groups : List String) (perGroup : Nat)
  deriving DecidableEq, Repr, Inhabited

namespace Scenario

/-- A step of a scenario. -/
abbrev Stage := ExceptT Setback Client

/-- Expects an operation to succeed. -/
def expect (what : String) (operation : Attempt α) : Stage α := do
  match ← operation.run with
  | .ok a => return a
  | .error failure => throw (.abort (what ++ ": " ++ failure.detail))

/-- Hands on the failure of an operation. -/
def attempt (operation : Attempt α) : Stage α := do
  match ← operation.run with
  | .ok a => return a
  | .error failure => throw (.failure failure)

/-- Creates an environment with one database and opens it. -/
def opened (name : String) (schema : Schema) : Stage Database := do
  let env ← expect "Failed to create environment" (Environment.create none .static .early)
  let db ← expect "Failed to declare database" (env.newDatabase name schema none)
  expect "Failed to open environment" env.openUp
  return db

/-- Writes a row with the given fields, each with what setting it is called. -/
def writeRow (db : Database) (fields : List (String × Value × String)) : Stage Unit := do
  let row ← expect "Failed to create document" db.newRow
  fields.forM fun (name, value, what) => expect ("Failed to set " ++ what) (row.set name value)
  expect "Failed to write row" ((Store.database db).write row .put)

/-- A text as a value. -/
def text (s : String) : Value := .str (Bytes.ofText s)

/-- A number as a value. -/
def number (n : Nat) : Value := .uint n.toUInt64

/-- Writes a row with a key and a value. -/
def writePair (db : Database) (key : Value) (value : String) : Stage Unit :=
  writeRow db [("key", key, "key"), ("value", text value, "value")]

/-- Makes and fills the environment of a scenario. -/
def prepare : Scenario → Stage Database
  | .numbered type count => do
    let db ← opened "numbers"
      { keys := [⟨"key", type, true⟩], values := [⟨"value", .string, false⟩] }
    (List.range count).forM fun n => writePair db (number n) s!"v{n}"
    return db
  | .base36 count => do
    let db ← opened "words" .standard
    (List.range count).forM fun n => writePair db (text (Text.base36 n)) (toString n)
    return db
  | .grouped groups perGroup => do
    let db ← opened "events"
      { keys := [⟨"group", .string, true⟩, ⟨"seq", .int .four false, true⟩]
        values := [⟨"value", .string, false⟩] }
    groups.forM fun group =>
      (List.range perGroup).forM fun n =>
        writeRow db [("group", text group, "group"), ("seq", number n, "seq"),
          ("value", text s!"{group}-{n}", "value")]
    return db

/-- A value that every row is expected to have. -/
def present (value? : Option α) : Stage α :=
  match value? with
  | some value => return value
  | none => throw (.abort "Row lacks the collected field")

/-- Reads a field of every remaining row of a cursor. -/
def collect (cursor : Cursor) (read : Row → Client (Option α)) : Stage (List α × Cursor) := do
  let (result, cursor) ← cursor.collect fun row => read row
  match result with
  | .error failure => throw (.failure failure)
  | .ok values => return (← values.mapM present, cursor)

/-- Reads an integer field of every remaining row. -/
def collectNumbers (cursor : Cursor) (field : String) : Stage (List UInt64 × Cursor) :=
  collect cursor fun row => row.getWord field

/-- Reads a string field of every remaining row. -/
def collectWords (cursor : Cursor) (field : String) : Stage (List String × Cursor) :=
  collect cursor fun row => row.getText field

/-- The `value` of the row whose string `key` is given. -/
def valueOf (store : Store) (db : Database) (key : String) : Attempt String := do
  let row ← db.newRow
  tryCatch (row.setBytes "key" (Bytes.ofText key)) fun failure => do
    row.release
    throw failure
  let found ← store.lookup row
  let value? ← found.getText "value"
  found.release
  return value?.getD ""

/-- What is read of the rows of a scan. -/
inductive Collected where
  | numbers (values : List UInt64)
  | words (values : List String)
  deriving DecidableEq, Repr, Inhabited

/-- What a scan of a scenario shows. -/
structure Report where
  collected : Collected
  /-- The live objects before the cursor is opened and after it is gone. -/
  before : Nat
  after : Nat
  lookup? : Option (Except Failure String)

/-- The number of live objects. -/
def liveObjects : Client Nat := return (← get).engine.objects.size

/-- Scans a prepared environment with the given criteria, reads a field as numbers or words, and
looks up a key. -/
def report (db : Database) (criteria : CriteriaSet) (field : String) (asNumbers : Bool)
    (key? : Option String) : Stage Report := do
  let before ← liveObjects
  let cursor ← attempt (db.openCursor criteria)
  let (collected, cursor) ←
    if asNumbers then do
      let (values, cursor) ← collectNumbers cursor field
      pure (Collected.numbers values, cursor)
    else do
      let (values, cursor) ← collectWords cursor field
      pure (Collected.words values, cursor)
  cursor.release
  let after ← liveObjects
  let lookup? ← key?.mapM fun key => (valueOf (.database db) db key).run
  return { collected, before, after, lookup? }

end Scenario
end RowStore
