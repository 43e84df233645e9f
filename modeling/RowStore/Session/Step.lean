/-
# Sessions

Carrying out the commands of a session, one after the other. A command that makes something first
drops what the slot for it holds, also if it fails later. Dropping releases: a row is destroyed, an
unfinished transaction rolled back, an open cursor closed, an open environment closed. A row that a
command takes out of its slot, or makes on the way, is given up to a store or released before the
command ends.

Key definitions: `Session`, `Session.step`, `Session.run`.
-/
import RowStore.Session.Command

namespace RowStore

open Client

/-- The world and what the session holds. -/
structure Session where
  world : World := {}
  slots : Table Session.Slot Session.Holding := {}

namespace Session

instance : Inhabited Session := ⟨{}⟩

/-- A command being carried out. What it did before it failed stays done. -/
abbrev Step := ExceptT Trouble (StateM Session)

/-- Carries out an operation of a client. -/
def lift (operation : Client α) : Step α :=
  ExceptT.lift fun session =>
    let (answer, world) := operation.run session.world
    (answer, { session with world })

/-- Carries out an operation of a client that can fail. -/
def attempt (operation : Attempt α) : Step α := do
  match ← lift operation.run with
  | .ok a => return a
  | .error failure => throw (.failure failure)

/-- Builds criteria. -/
def criteria (clauses : List Clause) : Step CriteriaSet :=
  match CriteriaSet.build clauses with
  | .ok criteria => return criteria
  | .error fault => throw (.rejected fault)

/-! ### Slots -/

/-- What a slot holds. -/
def held? (slot : Slot) : Step (Option Holding) := return (← get).slots.get? slot

/-- Puts something into a slot that is empty, or whose content is being replaced. -/
def hold (slot : Slot) (holding : Holding) : Step Unit :=
  modify fun session => { session with slots := session.slots.insert slot holding }

/-- Empties a slot without releasing its content. -/
def empty (slot : Slot) : Step Unit :=
  modify fun session => { session with slots := session.slots.erase slot }

/-- Drops what a slot holds; whether it held anything. -/
def drop (slot : Slot) : Step Bool := do
  match ← held? slot with
  | none => return false
  | some holding =>
    empty slot
    lift holding.release
    return true

/-- The content of a slot, if it is of the kind that `select` picks. -/
def look (slot : Slot) (select : Holding → Option α) : Step α := do
  match (← held? slot).bind select with
  | some a => return a
  | none => throw (.noSlot slot)

/-- The environment in a slot. -/
def environment (slot : Slot) : Step Environment :=
  look slot fun
    | .environment env => some env
    | _ => none

/-- The database in a slot. -/
def database (slot : Slot) : Step Database :=
  look slot fun
    | .database db => some db
    | _ => none

/-- The row in a slot. -/
def row (slot : Slot) : Step Row :=
  look slot fun
    | .row row => some row
    | _ => none

/-- The cursor in a slot, and the layout of its rows. -/
def cursor (slot : Slot) : Step (Cursor × Schema) :=
  look slot fun
    | .cursor cursor schema => some (cursor, schema)
    | _ => none

/-- The transaction in a slot. -/
def transaction (slot : Slot) : Step Transaction :=
  look slot fun
    | .transaction tx => some tx
    | _ => none

/-- The store in a slot. -/
def store (slot : Slot) : Step Store :=
  look slot fun
    | .database db => some (.database db)
    | .transaction tx => some (.transaction tx)
    | _ => none

/-- Takes the row out of a slot. -/
def takeRow (slot : Slot) : Step Row := do
  let taken ← row slot
  empty slot
  return taken

/-- The store in a slot; without one, the row meant for it is released. -/
def storeFor (taken : Row) (slot : Slot) : Step Store :=
  tryCatch (store slot) fun trouble => do
    lift taken.release
    throw trouble

/-! ### Commands -/

/-- The schema of declared fields, added one by one; the standard schema without any. -/
def schemaOf : Option (List Field) → Except Failure Schema
  | none => .ok .standard
  | some fields =>
    fields.foldlM (fun schema field =>
      match schema.add? field with
      | some schema => .ok schema
      | none => .error (.duplicateField field.name)) {}

/-- Makes a row and sets its fields; if that fails, the row is released. -/
def filledRow (db : Database) (fields : Assignments) : Step Row := do
  let made ← attempt db.newRow
  tryCatch (do attempt (made.setAll fields); return made) fun trouble => do
    lift made.release
    throw trouble

/-- Calls on the merge functions of an environment. -/
def callRegistry (env : Environment) : RegistryCall → Step Answer
  | .register f => return .number (← lift (env.register f))
  | .unregister token => return .flag (← lift (env.unregister token))
  | .clear => do
    lift env.clearRegistry
    return .done
  | .look => return .done

/-- Advances the cursor in a slot. -/
def advance (slot : Slot) : Step Answer := do
  let (current, schema) ← cursor slot
  let (result, current) ← lift current.next
  hold slot (.cursor current schema)
  match result with
  | .error failure => throw (.failure failure)
  | .ok none => return .fetched none
  | .ok (some found) => return .fetched (some (found.handle, ← lift (found.dump schema)))

/-- Visits the remaining rows of the cursor in a slot. -/
def visit (slot : Slot) (field : String) : Step Answer := do
  let (current, schema) ← cursor slot
  let (result, current) ← lift (current.collect fun found => found.getText field)
  hold slot (.cursor current schema)
  match result with
  | .error failure => throw (.failure failure)
  | .ok texts => return .visited texts

/-- Opens a cursor, reads its rows and closes it. -/
def scanAll (db : Database) (asked : CriteriaSet) : Step Answer := do
  let opened ← attempt (db.openCursor asked)
  let (result, opened) ← lift (opened.collect fun found => found.dump db.schema)
  match result with
  | .error failure =>
    lift opened.release
    throw (.failure failure)
  | .ok dumps =>
    let (result, _) ← lift opened.close
    match result with
    | .error failure => throw (.failure failure)
    | .ok () => return .dumps dumps

/-- Carries out a command. -/
def perform : Command → Step Answer
  | .createEnvironment into path? policy termination => do
    let _ ← drop into
    let env ← attempt (Environment.create path? policy termination)
    hold into (.environment env)
    return .environment env.path? env.policy env.termination
  | .setSetting env path value => do
    let env ← environment env
    attempt (env.set path value)
    return .done
  | .getSetting env path => do
    let env ← environment env
    let text? ← lift (env.getText path)
    return .setting text? (← lift (env.getInt path))
  | .declareDatabase env into name fields? merge? => do
    let _ ← drop into
    let env ← environment env
    let schema ← attempt (check (schemaOf fields?))
    let db ← attempt (env.newDatabase name schema merge?)
    hold into (.database db)
    return .database db.handle db.name db.token?.isSome db.schema.size
  | .openEnvironment env => do
    attempt (← environment env).openUp
    return .done
  | .closeEnvironment env => do
    attempt (← environment env).close
    return .done
  | .diagnostic env => do
    let env ← environment env
    let text? ← lift env.error?
    return .diagnostic text? (← lift (isClosed env.handle))
  | .registry env call => do
    let env ← environment env
    let answer ← callRegistry env call
    return .registry answer ((← get).world.link env.handle).registry.size
  | .cache env keys => do
    let env ← environment env
    let cache := ((← get).world.link env.handle).cache
    return .cache cache.size (keys.map cache.refs?) cache.stats
  | .advance ns => do
    modify fun session => { session with world := session.world.advance ns }
    return .done
  | .plan primitive entries => do
    modify fun session => { session with world := session.world.plan primitive entries }
    return .done
  | .drop slot => do
    if ← drop slot then return .done else throw (.noSlot slot)
  | .summary slot => do
    look slot fun
      | .row row => some (.text row.summary)
      | .cursor cursor _ => some (.text cursor.summary)
      | _ => none
  | .newRow db into => do
    let _ ← drop into
    let made ← attempt (← database db).newRow
    hold into (.row made)
    return .number made.handle
  | .setField slot field value => do
    attempt ((← row slot).set field value)
    return .done
  | .getField slot field kind => do
    return .field (← lift ((← row slot).get field kind))
  | .readField slot field => do
    let row ← row slot
    let int? ← lift (row.getWord field)
    let uint? ← lift (row.getWord field)
    let bytes? ← lift (row.getBytes field)
    let text? ← lift (row.getText field)
    return .reading (int?.map UInt64.toInt64) uint? bytes? text?
  | .destroyRow slot => do
    attempt (← takeRow slot).destroy
    return .done
  | .write slot into kind => do
    let taken ← takeRow slot
    attempt ((← storeFor taken into).write taken kind)
    return .done
  | .lookup key source into => do
    let _ ← drop into
    let taken ← takeRow key
    let found ← attempt ((← storeFor taken source).lookup taken)
    hold into (.row found)
    return .number found.handle
  | .put db into fields kind => do
    let made ← filledRow (← database db) fields
    attempt ((← storeFor made into).write made kind)
    return .done
  | .find db source fields => do
    let db ← database db
    let key ← filledRow db fields
    let found ← attempt ((← storeFor key source).lookup key)
    let dump ← lift (found.dump db.schema)
    lift found.release
    return .dump dump
  | .openCursor db into clauses => do
    let _ ← drop into
    let asked ← criteria clauses
    let db ← database db
    let opened ← attempt (db.openCursor asked)
    hold into (.cursor opened db.schema)
    return .cursor opened.order opened.termination
  | .next slot => advance slot
  | .forEach slot field => visit slot field
  | .closeCursor slot => do
    let (opened, schema) ← cursor slot
    let (result, opened) ← lift opened.close
    hold slot (.cursor opened schema)
    match result with
    | .error failure => throw (.failure failure)
    | .ok () => return .done
  | .cursorState slot => do
    let (opened, _) ← cursor slot
    return .cursorState opened.closed opened.order opened.termination
  | .scan db clauses => do
    let asked ← criteria clauses
    scanAll (← database db) asked
  | .begin env into => do
    let _ ← drop into
    let tx ← attempt (← environment env).begin
    hold into (.transaction tx)
    return .done
  | .commit slot => do
    let tx ← transaction slot
    let (status, tx) ← lift tx.commit
    hold slot (.transaction tx)
    return .committed status tx.finished
  | .rollback slot => do
    let tx ← transaction slot
    empty slot
    attempt tx.rollback
    return .done

/-- Carries out a command: what it answers or fails with, and the session after it. -/
def step (session : Session) (command : Command) : Except Trouble Answer × Session :=
  (perform command).run.run session

/-- Carries out commands in order. -/
def run (session : Session) : List Command → List (Except Trouble Answer) × Session
  | [] => ([], session)
  | command :: commands =>
    let (answer, session) := session.step command
    let (answers, session) := run session commands
    (answer :: answers, session)

/-- The session with the notes of merge functions put aside, to see those of what comes next. -/
def withoutJournal (session : Session) : Session :=
  { session with world.engine.journal := [] }

end Session
end RowStore
