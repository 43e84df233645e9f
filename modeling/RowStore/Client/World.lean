/-
# The world of the client layer

The clients of one engine: the engine, the clock, and for each environment its link, which every
object of the environment shares: whether it is closed, its cache of names, and its merge
functions. Clients reach the engine through its calls only, and the calls that reached it are
recorded. A plan can make calls of a primitive fail: its entries are used up one per call, an empty
entry lets the call through, and a number makes it fail without reaching the engine. Without a
plan every call goes through.

A name goes to the engine in the form the cache has for it, acquired before the call and released
after it. When a call fails, the failure is the diagnostic, read at once.

Key definitions: `World`, `Client`, `Attempt`, `Client.call`, `Client.withName`,
`Client.refused`.
-/
import RowStore.Client.Failure
import RowStore.Engine.Action
import RowStore.NameCache.Basic

namespace RowStore

/-- What the objects of one environment share. -/
structure Link where
  closed : Bool := false
  cache : NameCache
  registry : Registry := {}

/-- The link of an environment that was never made. -/
instance : Inhabited Link := ⟨{ closed := true, cache := default }⟩

/-- The calls of each primitive that are planned to fail. -/
abbrev FaultPlans := Engine.Primitive → List (Option Int)

/-- The engine and what its clients share. -/
structure World where
  engine : Engine := {}
  /-- The calls that reached the engine, the last one first. -/
  calls : List Engine.Call := []
  plans : FaultPlans := fun _ => []
  now : Nat := 0
  links : Table Handle Link := {}

instance : Inhabited World := ⟨{}⟩

namespace World

/-- The link of an environment. -/
def link (world : World) (env : Handle) : Link := (world.links.get? env).getD default

/-- Replaces the link of an environment. -/
def setLink (world : World) (env : Handle) (link : Link) : World :=
  { world with links := world.links.insert env link }

/-- The merge function of a hook, looked up when it is called. -/
def mergeFunctions (world : World) (hook : Engine.Hook) : MergeFn :=
  (world.link hook.registry).registry.function hook.token

/-- Replaces the plan of a primitive. -/
def plan (world : World) (primitive : Engine.Primitive) (entries : List (Option Int)) : World :=
  { world with plans := fun p => if p = primitive then entries else world.plans p }

/-- Carries out a call. -/
def reach (world : World) (action : Engine.Action kind) : kind.Answer × World :=
  let (answer, engine) := world.engine.step world.mergeFunctions action
  (answer, { world with engine, calls := ⟨kind, action⟩ :: world.calls })

/-- Lets time pass. -/
def advance (world : World) (ns : Nat) : World := { world with now := world.now + ns }

end World

/-- An operation of a client that cannot fail. -/
abbrev Client := StateM World

/-- An operation of a client that can fail. What it did before it failed stays done. -/
abbrev Attempt := ExceptT Failure Client

namespace Client

/-- Makes a call, unless the plan makes it fail. -/
def call (action : Engine.Action kind) : Client kind.Answer := fun world =>
  match world.plans action.primitive with
  | [] => world.reach action
  | none :: entries => (world.plan action.primitive entries).reach action
  | some code :: entries => (kind.failed code, world.plan action.primitive entries)

/-- Fails as a check that needs no client fails. -/
def check (result : Except Failure α) : Attempt α := ExceptT.mk (pure result)

/-- Whether an environment is closed. -/
def isClosed (env : Handle) : Client Bool := return (← get).link env |>.closed

/-- Fails if an environment is closed. -/
def ensureOpen (env : Handle) : Attempt Unit := do
  if ← isClosed env then throw .environmentClosed

/-- Acquires the name for a text from the cache of an environment. -/
def acquireName (env : Handle) (key : String) : Client SharedName :=
  fun world =>
    let link := world.link env
    let (name, cache) := link.cache.acquire world.now key
    (name, world.setLink env { link with cache })

/-- Releases the name for a text to the cache of an environment. -/
def releaseName (env : Handle) (key : String) : Client Unit :=
  modify fun world =>
    let link := world.link env
    world.setLink env { link with cache := link.cache.release world.now key }

/-- Holds the name for a text during an operation. -/
def withName (env : Handle) (key : String) (body : String → Client α) : Client α := do
  let name ← acquireName env key
  let answer ← body name.text
  releaseName env key
  return answer

/-- Holds the name for a text during an operation that can fail. -/
def tryWithName (env : Handle) (key : String) (body : String → Attempt α) : Attempt α :=
  ExceptT.mk (withName env key fun name => (body name).run)

/-- The diagnostic of the last call. -/
def diagnostic? (env : Handle) : Client (Option String) :=
  return (← call (.getBytes env Engine.diagnosticKey)).map Text.ofBytes

/-- Fails with the diagnostic of the call that an operation made. -/
def refused (env : Handle) (operation : String) : Attempt α := do
  let message ← diagnostic? env
  throw (.engine operation (message.getD "engine reported no diagnostic"))

/-- Fails an operation whose call did not succeed. -/
def orRefused (env : Handle) (operation : String) (action : Engine.Action .flag) :
    Attempt Unit := do
  if !(← call action) then refused env operation

/-- Fails an operation whose call answered with no handle. -/
def handleOrRefused (env : Handle) (operation : String) (action : Engine.Action .handle) :
    Attempt Handle := do
  match ← call action with
  | some h => return h
  | none => refused env operation

end Client
end RowStore
