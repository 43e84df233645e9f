/-
# Environments, databases and the fields of rows

The primitives that make objects, and those that set and read what an environment or a row holds
under a name. An environment takes any setting. A row takes the fields of its database, each in
the type declared for it, and the two pseudo-fields that seed a scan, as byte strings. A database
is declared in an environment under a name of its own, with at least one key field.

Key definitions: `Engine.setBytes`, `Engine.setWord`, `Engine.getBytes`, `Engine.getWord`,
`Engine.declare`, `Engine.destroy`.
-/
import RowStore.Engine.State
import RowStore.Scan.Criteria

namespace RowStore.Engine

/-- The setting that reads as the diagnostic. -/
def diagnosticKey : String := "sophon.error"

/-- The setting that holds the storage directory. -/
def pathKey : String := "sophon.path"

/-- Whether a field of a row seeds a scan instead of holding a value. -/
def isPseudoField (name : String) : Bool := name == orderField || name == prefixField

namespace Objects

/-- Sets a setting. -/
def setSetting (objects : Objects) (h : Handle) (env : Environment) (name : String)
    (cell : Cell) : Objects :=
  objects.put h (.environment { env with settings := env.settings.insert name cell })

/-- Sets a field of a row. -/
def setCell (objects : Objects) (h : Handle) (row : Row) (name : String) (cell : Cell) : Objects :=
  objects.put h (.row { row with cells := row.cells.insert name cell })

/-- The cell that bytes make in a field of a row. -/
def cellOfBytes (objects : Objects) (row : Row) (name : String) (bytes : Bytes) :
    Except Refusal Cell :=
  if isPseudoField name then .ok (.bytes bytes)
  else do
    let field ← (← objects.database row.db).field name
    match Cell.decode? field.type bytes with
    | some cell => .ok cell
    | none => .error (.typeMismatch field.name field.type)

/-- The cell that a word makes in a field of a row. -/
def cellOfWord (objects : Objects) (row : Row) (name : String) (w : UInt64) :
    Except Refusal Cell :=
  if isPseudoField name then .error (.typeMismatch name .string)
  else do
    let field ← (← objects.database row.db).field name
    if field.type.isString then .error (.typeMismatch field.name field.type)
    else .ok (.word (field.type.truncate w))

/-- Sets a setting to a cell, or a field to what a row makes of it. -/
def assign (objects : Objects) (h : Handle) (name : String) (cell : Cell)
    (cellOf : Row → Except Refusal Cell) : Except Refusal Objects := do
  match ← objects.find h with
  | .environment env => return objects.setSetting h env name cell
  | .row row => return objects.setCell h row name (← cellOf row)
  | _ => .error (.wrongObject h "an environment or row")

/-- Sets a setting or a field to bytes. -/
def setBytes (objects : Objects) (h : Handle) (name : String) (bytes : Bytes) :
    Except Refusal Objects :=
  objects.assign h name (.bytes bytes) fun row => objects.cellOfBytes row name bytes

/-- Sets a setting or a field to a word. -/
def setWord (objects : Objects) (h : Handle) (name : String) (w : UInt64) :
    Except Refusal Objects :=
  objects.assign h name (.word w) fun row => objects.cellOfWord row name w

/-- The bytes of a setting or a field. A number among the settings reads as its decimal text, a
number in a field as its image. -/
def getBytes (objects : Objects) (h : Handle) (name : String) :
    Except Refusal (Option Bytes) := do
  match ← objects.find h with
  | .environment env =>
    return (env.settings.get? name).map fun
      | .bytes bytes => bytes
      | .word w => Bytes.ofText (toString w.toInt64.toInt)
  | .row row =>
    match row.cells.get? name with
    | none => return none
    | some cell =>
      let db ← objects.database row.db
      let type :=
        match db.field name with
        | .ok field => field.type
        | .error _ => .string
      return some (cell.encode type)
  | _ => .error (.wrongObject h "an environment or row")

/-- The word of a setting or a field that holds one. -/
def getWord (objects : Objects) (h : Handle) (name : String) :
    Except Refusal (Option UInt64) := do
  match ← objects.find h with
  | .environment env => return word? (env.settings.get? name)
  | .row row => return word? (row.cells.get? name)
  | _ => .error (.wrongObject h "an environment or row")
where
  /-- The word of a cell that holds one. -/
  word? : Option Cell → Option UInt64
    | some (.word w) => some w
    | _ => none

/-- The database that an environment has under a path. -/
def resolve (objects : Objects) (h : Handle) (path : String) : Except Refusal (Option Handle) := do
  let env ← objects.environment h
  match path.toList with
  | 'd' :: 'b' :: '.' :: name => return env.databases.get? (String.ofList name)
  | _ => return none

/-- Declares a database in an environment, its key fields first. -/
def declare (objects : Objects) (h : Handle) (name : String) (fields : List Field) :
    Except Refusal Objects := do
  if name.isEmpty || name.contains '.' then throw (.invalidName name)
  let env ← objects.environment h
  if env.databases.contains name then throw (.duplicateDatabase name)
  if !fields.any (·.isKey) then throw (.noKeyFields name)
  let ordered := fields.filter (·.isKey) ++ fields.filter (!·.isKey)
  let (db, objects) := objects.add (.database { env := h, name, fields := ordered })
  return objects.put h (.environment { env with databases := env.databases.insert name db })

/-- Installs the merge function of a database. -/
def installHook (objects : Objects) (h : Handle) (hook : Hook) : Except Refusal Objects := do
  let db ← objects.database h
  return objects.put h (.database { db with hook? := some hook })

/-- Opens an environment. -/
def openEnvironment (objects : Objects) (h : Handle) : Except Refusal Objects := do
  let env ← objects.environment h
  if env.opened then throw .alreadyOpened
  return objects.put h (.environment { env with opened := true })

/-- Removes an object; with an environment, all that it owns. -/
def destroy (objects : Objects) (h : Handle) : Except Refusal Objects := do
  match ← objects.find h with
  | .database _ => .error (.notDestroyable "database")
  | .environment _ =>
    return { objects with
      table := objects.table.filter fun h' object => objects.owner? h' object != some h }
  | _ => return objects.remove h

/-- Makes an empty row of a database. -/
def newRow (objects : Objects) (db : Handle) : Except Refusal (Handle × Objects) := do
  let _ ← objects.database db
  return objects.add (.row { db })

/-- Makes a cursor in an environment. -/
def newCursor (objects : Objects) (env : Handle) : Except Refusal (Handle × Objects) := do
  let _ ← objects.environment env
  return objects.add (.cursor { env })

end Objects

/-- Makes an environment. -/
def newEnvironment (engine : Engine) : Option Handle × Engine :=
  engine.attempt (.ok (engine.objects.add (.environment {})))

/-- Sets a setting of an environment or a field of a row to bytes. -/
def setBytes (engine : Engine) (h : Handle) (name : String) (bytes : Bytes) : Bool × Engine :=
  engine.attemptFlag (engine.objects.setBytes h name bytes)

/-- Sets a setting of an environment or a field of a row to a word. -/
def setWord (engine : Engine) (h : Handle) (name : String) (w : UInt64) : Bool × Engine :=
  engine.attemptFlag (engine.objects.setWord h name w)

/-- Reads a setting of an environment or a field of a row as bytes. Under the diagnostic key
every handle reads as the diagnostic, which stays as it is. -/
def getBytes (engine : Engine) (h : Handle) (name : String) : Option Bytes × Engine :=
  if name = diagnosticKey then (engine.diagnosticText?.map Bytes.ofText, engine)
  else engine.inquire (engine.objects.getBytes h name)

/-- Reads a setting of an environment or a field of a row as a word. -/
def getWord (engine : Engine) (h : Handle) (name : String) : Option UInt64 × Engine :=
  engine.inquire (engine.objects.getWord h name)

/-- Finds the database that an environment has under a path. -/
def resolve (engine : Engine) (h : Handle) (path : String) : Option Handle × Engine :=
  engine.inquire (engine.objects.resolve h path)

/-- Declares a database. -/
def declare (engine : Engine) (h : Handle) (name : String) (fields : List Field) :
    Bool × Engine :=
  engine.attemptFlag (engine.objects.declare h name fields)

/-- Installs the merge function of a database. -/
def installHook (engine : Engine) (h : Handle) (hook : Hook) : Bool × Engine :=
  engine.attemptFlag (engine.objects.installHook h hook)

/-- Opens an environment. -/
def openEnvironment (engine : Engine) (h : Handle) : Bool × Engine :=
  engine.attemptFlag (engine.objects.openEnvironment h)

/-- Removes an object; with an environment, all that it owns. -/
def destroy (engine : Engine) (h : Handle) : Bool × Engine :=
  engine.attemptFlag (engine.objects.destroy h)

/-- Makes an empty row of a database. -/
def newRow (engine : Engine) (db : Handle) : Option Handle × Engine :=
  engine.attempt (engine.objects.newRow db)

/-- Makes a cursor in an environment. -/
def newCursor (engine : Engine) (env : Handle) : Option Handle × Engine :=
  engine.attempt (engine.objects.newCursor env)

/-- A one-line summary. -/
def summary (engine : Engine) : String :=
  s!"MemoryEngine \x7b live_objects: {engine.objects.size} \x7d"

end RowStore.Engine
