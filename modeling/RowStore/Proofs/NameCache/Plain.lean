/-
# A cache with a time to live and no queue

The same cache said without a queue. A name is stamped when its last acquisition is released. Before
every acquisition and after every release the whole table is looked through, and every name without
acquisitions whose stamp is more than the time to live ago goes; with a time to live of zero no name
does. What a cache shows of itself are its names, their acquisitions and its counters.

Key definitions: `PlainCache`, `PlainCache.evict`, `PlainCache.acquire`, `PlainCache.release`,
`PlainRun.step`, `CacheView`, `CacheRun.trace`, `PlainRun.trace`.
-/
import RowStore.NameCache.Run

namespace RowStore

/-- Whether a name has no acquisitions and has been idle for more than the time to live. -/
def NameCache.Entry.isExpired (ttl now : Nat) (entry : NameCache.Entry) : Bool :=
  entry.refs == 0 && entry.idleSince?.any fun since => decide (ttl < now - since)

/-- A name that was handed out once less. Its last acquisition given back, it is idle from now on. -/
def NameCache.Entry.released (now : Nat) (entry : NameCache.Entry) : NameCache.Entry :=
  { entry with
    refs := entry.refs - 1
    idleSince? := if entry.refs = 1 then some now else entry.idleSince? }

/-- A cache of names that are given up once they have been idle for more than `ttl`. -/
structure PlainCache where
  ttl : Nat
  entries : NameCache.Entries := {}
  /-- The number of allocations made. -/
  allocated : Nat := 0
  stats : CacheStats := {}

namespace PlainCache

/-- Looks through the whole table and gives up the names that have been idle for too long. -/
def evict (cache : PlainCache) (now : Nat) : PlainCache :=
  if cache.ttl = 0 then cache
  else
    let kept := cache.entries.filter fun _ entry => !entry.isExpired cache.ttl now
    { cache with
      entries := kept
      stats := { cache.stats with
        evictions := cache.stats.evictions + (cache.entries.size - kept.size) } }

/-- Acquires a name at time `now`. -/
def acquire (cache : PlainCache) (now : Nat) (key : String) : SharedName × PlainCache :=
  let cache := cache.evict now
  match cache.entries.get? key with
  | some entry =>
    (entry.name, { cache with
      entries := cache.entries.insert key { entry with refs := entry.refs + 1 }
      stats := { cache.stats with hits := cache.stats.hits + 1 } })
  | none =>
    let name := SharedName.make cache.allocated key
    (name, { cache with
      entries := cache.entries.insert key { name, refs := 1 }
      allocated := cache.allocated + 1
      stats := { cache.stats with misses := cache.stats.misses + 1 } })

/-- Gives one acquisition of a name back, if it has any, at time `now`. -/
def giveBack (cache : PlainCache) (now : Nat) (key : String) : PlainCache :=
  match cache.entries.get? key with
  | some entry => { cache with entries := cache.entries.insert key (entry.released now) }
  | none => cache

/-- Releases a name at time `now`. -/
def release (cache : PlainCache) (now : Nat) (key : String) : PlainCache :=
  (cache.giveBack now key).evict now

/-- Gives up every name. -/
def clear (cache : PlainCache) : PlainCache :=
  { cache with
    entries := {}
    stats := { cache.stats with clears := cache.stats.clears + 1 } }

end PlainCache

/-- A plain cache in use: the time, and the open guards, the newest first. -/
structure PlainRun where
  cache : PlainCache
  now : Nat := 0
  guards : List Guard := []

/-- Carries out an action. -/
def PlainRun.step (run : PlainRun) : CacheRun.Action → CacheRun.Answer × PlainRun
  | .acquire key =>
    let (name, cache) := run.cache.acquire run.now key
    (.name name, { run with cache })
  | .release key => (.nothing, { run with cache := run.cache.release run.now key })
  | .clear => (.nothing, { run with cache := run.cache.clear })
  | .advance ns => (.nothing, { run with now := run.now + ns })
  | .openGuard key =>
    let (name, cache) := run.cache.acquire run.now key
    (.guarded ⟨key, name⟩, { run with cache, guards := ⟨key, name⟩ :: run.guards })
  | .dropGuard =>
    match run.guards with
    | [] => (.dropped none, run)
    | guard :: guards =>
      (.dropped (some guard.key),
        { run with cache := run.cache.release run.now guard.key, guards })
  | .probe => (.nothing, run)

/-! ### What is seen of a run -/

/-- What a cache shows of itself: its names by the texts they were asked for under, each with its
acquisitions, and its counters. -/
structure CacheView where
  names : List (String × SharedName × Nat)
  stats : CacheStats
  deriving DecidableEq, Repr

/-- The view of a table of names and counters. -/
def CacheView.of (entries : NameCache.Entries) (stats : CacheStats) : CacheView where
  names := entries.entries.map fun e => (e.1, e.2.name, e.2.refs)
  stats := stats

/-- The answers of a run and what the cache shows after each of its actions. -/
def CacheRun.trace : List CacheRun.Action → CacheRun → List (CacheRun.Answer × CacheView)
  | [], _ => []
  | action :: actions, run =>
    let (answer, run) := run.step action
    (answer, .of run.cache.entries run.cache.stats) :: trace actions run

/-- The answers of a run and what the plain cache shows after each of its actions. -/
def PlainRun.trace : List CacheRun.Action → PlainRun → List (CacheRun.Answer × CacheView)
  | [], _ => []
  | action :: actions, run =>
    let (answer, run) := run.step action
    (answer, .of run.cache.entries run.cache.stats) :: trace actions run

/-- A run after some actions. -/
def CacheRun.after (run : CacheRun) (actions : List CacheRun.Action) : CacheRun :=
  actions.foldl (fun run action => (run.step action).2) run

/-- Whether an action acquires or releases a name. -/
def CacheRun.calls (run : CacheRun) : CacheRun.Action → Bool
  | .acquire _ | .release _ | .openGuard _ => true
  | .dropGuard => !run.guards.isEmpty
  | .clear | .advance _ | .probe => false

end RowStore
