/-
# Databases, transactions and point operations

A database makes rows and is a store for them; a transaction is a store for the rows of any
database. A store takes every row it is given, whether or not the operation succeeds; one that
fails before the engine is asked releases the row. A transaction that was committed or rolled back
is finished and takes rows no more; one that is not finished is rolled back when it is released.

Key definitions: `Client.Database`, `Client.Transaction`, `Client.Store`, `Client.Store.lookup`,
`Client.Store.write`, `Client.Transaction.commit`.
-/
import RowStore.Client.Row

namespace RowStore.Client

/-- A database: its layout and how its scans end unless told otherwise. -/
structure Database where
  env : Handle
  handle : Handle
  name : String
  schema : Schema
  termination : Termination
  /-- The token of its merge function. -/
  token? : Option Nat
  deriving DecidableEq, Repr, Inhabited

/-- A transaction. -/
structure Transaction where
  env : Handle
  handle : Handle
  finished : Bool := false
  deriving DecidableEq, Repr, Inhabited

/-- Makes an empty row. -/
def Database.newRow (db : Database) : Attempt Row := do
  ensureOpen db.env
  let handle ← handleOrRefused db.env "create document" (.newRow db.handle)
  return ⟨db.env, handle⟩

/-- Where rows are put and looked up. -/
inductive Store where
  | database (db : Database)
  | transaction (tx : Transaction)
  deriving Inhabited

/-- How a row is written. -/
inductive WriteKind where
  | put
  | upsert
  | delete
  deriving DecidableEq, Repr, Inhabited

namespace WriteKind

/-- The name of the operation. -/
def operation : WriteKind → String
  | .put => "set"
  | .upsert => "upsert"
  | .delete => "delete"

/-- The call that writes a row. -/
def action (store row : Handle) : WriteKind → Engine.Action .flag
  | .put => .put store row
  | .upsert => .upsert store row
  | .delete => .delete store row

end WriteKind

namespace Store

/-- The environment of a store. -/
def env : Store → Handle
  | .database db => db.env
  | .transaction tx => tx.env

/-- The handle of a store. -/
def handle : Store → Handle
  | .database db => db.handle
  | .transaction tx => tx.handle

/-- Why a store takes no rows, if it does not. -/
def obstacle? (store : Store) : Client (Option Failure) := do
  if store matches .transaction { finished := true, .. } then
    return some (.alreadyClosed "transaction")
  if ← isClosed store.env then return some .environmentClosed
  return none

/-- Fails if the store takes no rows, and then releases the row meant for it. -/
def accept (store : Store) (row : Row) : Attempt Unit := do
  match ← store.obstacle? with
  | none => return
  | some failure =>
    row.release
    throw failure

/-- Looks up the record under the key of a row. -/
def lookup (store : Store) (key : Row) : Attempt Row := do
  store.accept key
  match ← call (.lookup store.handle key.handle) with
  | some handle => return ⟨store.env, handle⟩
  | none =>
    match ← diagnostic? store.env with
    | some message => throw (.engine "get" message)
    | none => throw .notFound

/-- Writes a row. -/
def write (store : Store) (row : Row) (kind : WriteKind) : Attempt Unit := do
  store.accept row
  orRefused store.env kind.operation (kind.action store.handle row.handle)

end Store

/-- How a commit ends. -/
inductive CommitStatus where
  | error
  | ok
  /-- A concurrent transaction forced a rollback. -/
  | rollback
  /-- The transaction waits for a concurrent one. -/
  | lock
  deriving DecidableEq, Repr, Inhabited

namespace CommitStatus

/-- The status of a code of the engine. -/
def ofCode (code : Int) : CommitStatus :=
  if code = 0 then .ok else if code = 1 then .rollback else if code = 2 then .lock else .error

/-- Whether the engine no longer has the transaction. -/
def isFinished : CommitStatus → Bool
  | .ok => true
  | .rollback => true
  | _ => false

end CommitStatus

namespace Transaction

/-- Commits. After an error or a lock the transaction is not finished. -/
def commit (tx : Transaction) : Client (CommitStatus × Transaction) := do
  if tx.finished || (← isClosed tx.env) then return (.error, tx)
  let status := CommitStatus.ofCode (← call (.commit tx.handle))
  return (status, { tx with finished := status.isFinished })

/-- Gives up the transaction and its writes. -/
def rollback (tx : Transaction) : Attempt Unit := do
  if tx.finished then throw (.alreadyClosed "transaction")
  ensureOpen tx.env
  orRefused tx.env "rollback" (.destroy tx.handle)

/-- Rolls back a transaction that is not finished. A refusal has no consequence. -/
def release (tx : Transaction) : Client Unit := do
  if tx.finished || (← isClosed tx.env) then return
  discard (call (.destroy tx.handle))

end Transaction
end RowStore.Client
