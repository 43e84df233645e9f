/-
# Point operations

Putting, deleting, looking up and merging a record by the key of a row, through a database or a
transaction. Every operation takes its row. Through a database a write is made at once; through a
transaction it is kept until commit, which makes the writes in the order of their places and stops
at the first that has no database any more. A reader through a transaction sees its writes over
the records of the databases.

Key definitions: `Engine.Store`, `Engine.Objects.visible`, `Engine.Objects.write`,
`Engine.put`, `Engine.delete`, `Engine.lookup`, `Engine.upsert`, `Engine.commit`.
-/
import RowStore.Engine.State

namespace RowStore.Engine

/-- Where a point operation goes: to a database, or to a transaction. -/
inductive Store where
  | database (h : Handle)
  | transaction (h : Handle)
  deriving DecidableEq, Repr

namespace Objects

/-- The store of a handle. -/
def store (objects : Objects) (h : Handle) : Except Refusal Store := do
  match ← objects.find h with
  | .database _ => .ok (.database h)
  | .transaction _ => .ok (.transaction h)
  | _ => .error (.wrongObject h "a database or transaction")

/-- The store that a row goes to. A row goes to its own database, and to any transaction. -/
def target (objects : Objects) (h : Handle) (row : Row) : Except Refusal Store := do
  let db ← objects.database row.db
  objects.ensureOpened db.env
  match ← objects.store h with
  | .database own =>
    if own = row.db then .ok (.database own) else .error (.wrongObject h "the row's database")
  | .transaction tx => .ok (.transaction tx)

/-- What a transaction holds for a place: nothing, a deletion or a record. -/
def pending? (objects : Objects) (place : Place) : Store → Option (Option Record)
  | .database _ => none
  | .transaction tx =>
    match objects.table.get? tx with
    | some (.transaction tx) => tx.writes.get? place
    | _ => none

/-- The record that a reader of a store sees under a key. -/
def visible (objects : Objects) (store : Store) (db : Handle) (key : Key) :
    Except Refusal (Option Record) := do
  match objects.pending? ⟨db, key⟩ store with
  | some write => return write
  | none => return (← objects.database db).records.get? key

/-- Puts a record under a key of a database, or deletes the key. -/
def writeThrough (objects : Objects) (place : Place) (record? : Option Record) :
    Except Refusal Objects := do
  let db ← objects.database place.db
  let records :=
    match record? with
    | some record => db.records.insert place.key record
    | none => db.records.erase place.key
  return objects.put place.db (.database { db with records })

/-- Makes a write through a store. -/
def write (objects : Objects) (store : Store) (place : Place) (record? : Option Record) :
    Except Refusal Objects :=
  match store with
  | .database _ => objects.writeThrough place record?
  | .transaction h => do
    let tx ← objects.transaction h
    return objects.put h (.transaction { tx with writes := tx.writes.insert place record? })

/-- Puts the record of a row. -/
def putRow (objects : Objects) (store : Handle) (row : Row) : Except Refusal Objects := do
  let target ← objects.target store row
  let db ← objects.database row.db
  objects.write target ⟨row.db, ← db.keyOf row⟩ (some (db.recordOf row))

/-- Deletes the key of a row. -/
def deleteRow (objects : Objects) (store : Handle) (row : Row) : Except Refusal Objects := do
  let target ← objects.target store row
  let db ← objects.database row.db
  objects.write target ⟨row.db, ← db.keyOf row⟩ none

/-- Makes a row of the record that a store has under the key of a row. -/
def lookupRow (objects : Objects) (store : Handle) (row : Row) :
    Except Refusal (Option Handle × Objects) := do
  let target ← objects.target store row
  let db ← objects.database row.db
  match ← objects.visible target row.db (← db.keyOf row) with
  | none => return (none, objects)
  | some record =>
    let (h, objects) := objects.add (.row (db.rowOf row.db record))
    return (some h, objects)

/-- A merge to be made: where its result goes, the function, and the images it is called with. -/
structure Merge where
  target : Store
  place : Place
  hook : Hook
  existing : Option Images
  incoming : Images

/-- The merge that an upsert of a row asks for. -/
def mergeOf (objects : Objects) (store : Handle) (row : Row) : Except Refusal Merge := do
  let target ← objects.target store row
  let db ← objects.database row.db
  let some hook := db.hook? | throw (.noMergeFunction db.name)
  let key ← db.keyOf row
  let existing ← objects.visible target row.db key
  return {
    target
    place := ⟨row.db, key⟩
    hook
    existing := existing.map db.encode
    incoming := db.encode (db.recordOf row) }

/-- Stores what a merge function made of a merge, unless it rejected it. -/
def storeMerge (objects : Objects) (merge : Merge) (reply : MergeReply) :
    Except Refusal Objects := do
  match reply.rejection with
  | some message => throw (.mergeRejected message)
  | none =>
    let db ← objects.database merge.place.db
    objects.write merge.target merge.place (some (← db.decode reply.result))

/-- Begins a transaction in an opened environment. -/
def begin (objects : Objects) (env : Handle) : Except Refusal (Handle × Objects) := do
  objects.ensureOpened env
  return objects.add (.transaction { env })

/-- Makes writes one after the other, up to the first that has no database. -/
def writeAll : List (Place × Option Record) → Objects → Except Refusal Unit × Objects
  | [], objects => (.ok (), objects)
  | (place, record?) :: writes, objects =>
    match objects.writeThrough place record? with
    | .ok objects => writeAll writes objects
    | .error refusal => (.error refusal, objects)

/-- Ends a transaction of an opened environment and makes its writes. -/
def commit (objects : Objects) (h : Handle) : Except Refusal Unit × Objects :=
  match (do
    let tx ← objects.transaction h
    objects.ensureOpened tx.env
    return tx) with
  | .error refusal => (.error refusal, objects)
  | .ok tx => writeAll tx.writes.entries (objects.remove h)

end Objects

/-- Puts the record of a row under its key. -/
def put (engine : Engine) (store row : Handle) : Bool × Engine :=
  let (answer, engine) := engine.consume row fun row objects =>
    (objects.putRow store row).map ((), ·)
  (answer.isSome, engine)

/-- Deletes the record under the key of a row. -/
def delete (engine : Engine) (store row : Handle) : Bool × Engine :=
  let (answer, engine) := engine.consume row fun row objects =>
    (objects.deleteRow store row).map ((), ·)
  (answer.isSome, engine)

/-- Finds the record under the key of a row. -/
def lookup (engine : Engine) (store row : Handle) : Option Handle × Engine :=
  let (answer, engine) := engine.consume row fun row objects => objects.lookupRow store row
  (answer.join, engine)

/-- Merges a row into the record under its key, through the merge function of its database. -/
def upsert (functions : Hook → MergeFn) (engine : Engine) (store row : Handle) : Bool × Engine :=
  match engine.objects.row row with
  | .error refusal => (false, { engine with diagnostic? := some refusal })
  | .ok taken =>
    let rest := engine.objects.remove row
    match rest.mergeOf store taken with
    | .error refusal => (false, { engine with objects := rest, diagnostic? := some refusal })
    | .ok merge =>
      let reply := (functions merge.hook).run merge.existing merge.incoming merge.incoming
      { engine with objects := rest, journal := engine.journal ++ reply.journal }.attemptFlag
        (rest.storeMerge merge reply)

/-- Begins a transaction. -/
def begin (engine : Engine) (env : Handle) : Option Handle × Engine :=
  engine.attempt (engine.objects.begin env)

/-- The commit status of success. -/
def commitOk : Int := 0

/-- The commit status of failure. -/
def commitError : Int := -1

/-- Commits a transaction. The writes made before a refusal stay made. -/
def commit (engine : Engine) (tx : Handle) : Int × Engine :=
  match engine.objects.commit tx with
  | (.ok (), objects) => (commitOk, { engine with objects, diagnostic? := none })
  | (.error refusal, objects) => (commitError, { engine with objects, diagnostic? := some refusal })

end RowStore.Engine
