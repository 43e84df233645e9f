/-
# Environments

An environment is created, its databases are declared, it is opened, and it is closed, by hand or
when it is released. Closing it clears its merge functions and its cache of names and destroys it
on the engine with all that it owns; from then on its databases, rows, cursors and transactions
fail, read as empty, and release nothing.

Key definitions: `Client.Environment`, `Client.Environment.create`,
`Client.Environment.newDatabase`, `Client.Environment.close`.
-/
import RowStore.Client.Cursor

namespace RowStore.Client

/-- An environment and what it was created with. -/
structure Environment where
  handle : Handle
  path? : Option String := none
  policy : CachePolicy := .static
  termination : Termination := .early
  deriving DecidableEq, Repr, Inhabited

namespace Environment

/-- Changes the link of an environment. -/
def modifyLink (env : Environment) (f : Link → Link) : Client Unit :=
  modify fun world => world.setLink env.handle (f (world.link env.handle))

/-- Sets a setting to bytes. -/
def setBytes (env : Environment) (path : String) (bytes : Bytes) : Attempt Unit := do
  ensureOpen env.handle
  tryWithName env.handle path fun name =>
    orRefused env.handle "set setting" (.setBytes env.handle name bytes)

/-- Sets a setting to a word. -/
def setWord (env : Environment) (path : String) (w : UInt64) : Attempt Unit := do
  ensureOpen env.handle
  tryWithName env.handle path fun name =>
    orRefused env.handle "set setting" (.setWord env.handle name w)

/-- Sets a setting to a value. -/
def set (env : Environment) (path : String) : Value → Attempt Unit
  | .int v => env.setWord path v.toUInt64
  | .uint v => env.setWord path v
  | .str bytes => env.setBytes path bytes

/-- The text of a setting. -/
def getText (env : Environment) (path : String) : Client (Option String) := do
  if ← isClosed env.handle then return none
  let bytes? ← withName env.handle path fun name => call (.getBytes env.handle name)
  return bytes?.map Text.ofBytes

/-- The number of a setting. -/
def getInt (env : Environment) (path : String) : Client (Option Int64) := do
  if ← isClosed env.handle then return none
  let word? ← withName env.handle path fun name => call (.getWord env.handle name)
  return word?.map UInt64.toInt64

/-- Closes the environment. It counts as closed also if the engine refuses to destroy it. -/
def close (env : Environment) : Attempt Unit := do
  if ← isClosed env.handle then throw (.alreadyClosed "environment")
  env.modifyLink fun link =>
    { closed := true, registry := link.registry.clear, cache := link.cache.clear }
  orRefused env.handle "close environment" (.destroy env.handle)

/-- Closes an environment that is not closed. A refusal has no consequence. -/
def release (env : Environment) : Client Unit := do
  if !(← isClosed env.handle) then discard env.close.run

/-- Creates an environment with an empty cache of the given policy. If its path is refused, it is
closed again. -/
def create (path? : Option String) (policy : CachePolicy) (termination : Termination) :
    Attempt Environment := do
  let some handle ← call .newEnvironment
    | throw (.engine "create environment" "engine returned no handle")
  let env : Environment := { handle, path?, policy, termination }
  modify fun world => world.setLink handle { cache := .ofPolicy policy }
  if let some path := path? then
    tryCatch (env.setBytes Engine.pathKey (Bytes.ofText path)) fun failure => do
      env.release
      throw failure
  return env

/-- Opens the environment. -/
def openUp (env : Environment) : Attempt Unit := do
  ensureOpen env.handle
  orRefused env.handle "open environment" (.openEnvironment env.handle)

/-- The diagnostic of the last call, unless the environment is closed. -/
def error? (env : Environment) : Client (Option String) := do
  if ← isClosed env.handle then return none
  diagnostic? env.handle

/-- Begins a transaction. -/
def begin (env : Environment) : Attempt Transaction := do
  ensureOpen env.handle
  let handle ← handleOrRefused env.handle "begin transaction" (.begin env.handle)
  return { env := env.handle, handle }

/-- Registers a merge function. -/
def register (env : Environment) (f : MergeFn) : Client Nat := do
  let (token, registry) := ((← get).link env.handle).registry.register f
  env.modifyLink fun link => { link with registry }
  return token

/-- Unregisters a merge function; whether there was one. -/
def unregister (env : Environment) (token : Nat) : Client Bool := do
  let known := ((← get).link env.handle).registry.contains token
  env.modifyLink fun link => { link with registry := link.registry.unregister token }
  return known

/-- Unregisters every merge function. -/
def clearRegistry (env : Environment) : Client Unit :=
  env.modifyLink fun link => { link with registry := link.registry.clear }

/-- A database can have a name that is not empty and has neither a dot nor a NUL. -/
def isDatabaseName (name : String) : Bool :=
  !name.isEmpty && !name.contains '.' && !name.contains '\x00'

/-- Registers and installs a merge function; one that the engine refuses is unregistered. -/
def installMerge (env : Environment) (db : Handle) (f : MergeFn) : Attempt Nat := do
  let token ← env.register f
  let hook : Engine.Hook := ⟨env.handle, token⟩
  if !(← call (.installHook db hook)) then
    let _ ← env.unregister token
    refused env.handle "install upsert"
  return token

/-- Declares a database. -/
def newDatabase (env : Environment) (name : String) (schema : Schema) (merge? : Option MergeFn) :
    Attempt Database := do
  ensureOpen env.handle
  if !isDatabaseName name then throw (.invalidName name)
  orRefused env.handle "declare database" (.declare env.handle name schema.fields)
  let handle ← handleOrRefused env.handle "resolve database" (.resolve env.handle ("db." ++ name))
  let token? ← merge?.mapM (env.installMerge handle)
  return { env := env.handle, handle, name, schema, termination := env.termination, token? }

end Environment
end RowStore.Client
