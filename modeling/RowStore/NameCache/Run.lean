/-
# Runs of a name cache

A cache in use: its clock, and the guards that are open. A guard acquires its name when it is
opened and releases it when it is dropped; the newest open guard is dropped first.

Key definitions: `CacheRun`, `CacheRun.Action`, `CacheRun.step`.
-/
import RowStore.NameCache.Basic

namespace RowStore

/-- A guard: the text it was opened for and the name it holds. -/
structure Guard where
  key : String
  name : SharedName
  deriving DecidableEq, Repr, Inhabited

/-- A cache, the time, and the open guards, the newest first. -/
structure CacheRun where
  cache : NameCache
  now : Nat := 0
  guards : List Guard := []

namespace CacheRun

/-- A call of a cache, a guard opened or dropped, or time that passes. -/
inductive Action where
  | acquire (key : String)
  | release (key : String)
  | clear
  | advance (ns : Nat)
  | openGuard (key : String)
  | dropGuard
  /-- Looks at the cache only. -/
  | probe
  deriving DecidableEq, Repr, Inhabited

/-- What an action answers. -/
inductive Answer where
  | nothing
  | name (name : SharedName)
  | guarded (guard : Guard)
  | dropped (key? : Option String)
  deriving DecidableEq, Repr, Inhabited

/-- Carries out an action. -/
def step (run : CacheRun) : Action → Answer × CacheRun
  | .acquire key =>
    let (name, cache) := run.cache.acquire run.now key
    (.name name, { run with cache })
  | .release key => (.nothing, { run with cache := run.cache.release run.now key })
  | .clear => (.nothing, { run with cache := run.cache.clear })
  | .advance ns => (.nothing, { run with now := run.now + ns })
  | .openGuard key =>
    let (name, cache) := run.cache.acquire run.now key
    (.guarded ⟨key, name⟩, { run with cache, guards := ⟨key, name⟩ :: run.guards })
  | .dropGuard =>
    match run.guards with
    | [] => (.dropped none, run)
    | guard :: guards =>
      (.dropped (some guard.key),
        { run with cache := run.cache.release run.now guard.key, guards })
  | .probe => (.nothing, run)

end CacheRun
end RowStore
