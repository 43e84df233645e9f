/-
# Name caches

A cache of names in the form the engine takes. Acquiring a name hands out the one allocation the
cache has for it; releasing it gives the acquisition back. A sized cache and one with a time to
live count the acquisitions of each name and give up names that are idle, those with none. A cache
with a time to live stamps a name when it becomes idle and queues it. Every acquisition and
release first (a release last) sweeps the front of the queue: names idle for too long go, items
whose name was acquired again or stamped anew are dropped, and the first name that may stay ends
the sweep.

Key definitions: `NameCache`, `NameCache.acquire`, `NameCache.release`, `NameCache.clear`,
`NameCache.sweep`.
-/
import RowStore.Data.Table
import RowStore.NameCache.Policy
import RowStore.NameCache.SharedName

namespace RowStore

namespace NameCache

/-- A cached name, its acquisitions, and since when it has been idle. -/
structure Entry where
  name : SharedName
  /-- The acquisitions that were not given back. The count is unbounded; in 64 bits it is the same
  for fewer than `2 ^ 64` acquisitions. -/
  refs : Nat
  idleSince? : Option Nat := none
  deriving DecidableEq, Repr, Inhabited

/-- The names of a cache, by the text they were asked for under. -/
abbrev Entries := Table String Entry

end NameCache

/-- A cache of names. -/
structure NameCache where
  policy : CachePolicy
  entries : NameCache.Entries := {}
  /-- Names in the order they became idle, with the time they did. -/
  idle : List (String × Nat) := []
  /-- The number of allocations made. -/
  allocated : Nat := 0
  stats : CacheStats := {}

namespace NameCache

/-- The empty cache of a policy. -/
def ofPolicy (policy : CachePolicy) : NameCache := { policy }

instance : Inhabited NameCache := ⟨ofPolicy default⟩

/-- The number of names. -/
def size (cache : NameCache) : Nat := cache.entries.size

/-- The acquisitions of a cached name. -/
def refs? (cache : NameCache) (key : String) : Option Nat :=
  (cache.entries.get? key).map (·.refs)

/-- Whether a queued item still tells when its name became idle. -/
def isCurrent (entries : Entries) (key : String) (stamp : Nat) : Bool :=
  match entries.get? key with
  | some entry => entry.refs == 0 && entry.idleSince? == some stamp
  | none => false

/-- Sweeps a queue at time `now`: the queue and the names left, and the number of names given
up. -/
def sweepQueue (ttl now : Nat) :
    List (String × Nat) → Entries → List (String × Nat) × Entries × Nat
  | [], entries => ([], entries, 0)
  | (key, stamp) :: rest, entries =>
    if isCurrent entries key stamp then
      if now - stamp ≤ ttl then ((key, stamp) :: rest, entries, 0)
      else
        let (queue, entries, evicted) := sweepQueue ttl now rest (entries.erase key)
        (queue, entries, evicted + 1)
    else sweepQueue ttl now rest entries

/-- Gives up the names that have been idle for too long. -/
def sweep (cache : NameCache) (now : Nat) : NameCache :=
  match cache.policy with
  | .ttl (ns + 1) =>
    let (idle, entries, evicted) := sweepQueue (ns + 1) now cache.idle cache.entries
    { cache with
      idle, entries
      stats := { cache.stats with evictions := cache.stats.evictions + evicted } }
  | _ => cache

/-- Whether the policy counts acquisitions. -/
def counts (cache : NameCache) : Bool := cache.policy != .static

/-- Hands out a cached name. -/
def hit (cache : NameCache) (key : String) (entry : Entry) : SharedName × NameCache :=
  let refs := if cache.counts then entry.refs + 1 else entry.refs
  (entry.name, { cache with
    entries := cache.entries.insert key { entry with refs, idleSince? := none }
    stats := { cache.stats with hits := cache.stats.hits + 1 } })

/-- Makes a name and hands it out. -/
def miss (cache : NameCache) (key : String) : SharedName × NameCache :=
  let name := SharedName.make cache.allocated key
  (name, { cache with
    entries := cache.entries.insert key { name, refs := if cache.counts then 1 else 0 }
    allocated := cache.allocated + 1
    stats := { cache.stats with misses := cache.stats.misses + 1 } })

/-- Acquires a name at time `now`. A name idle for too long is made anew, not revived. -/
def acquire (cache : NameCache) (now : Nat) (key : String) : SharedName × NameCache :=
  let cache := cache.sweep now
  match cache.entries.get? key with
  | some entry => cache.hit key entry
  | none => cache.miss key

/-- A cache of the given capacity is full. -/
def isFull (cache : NameCache) (capacity : Nat) : Bool :=
  decide (0 < capacity) && decide (capacity ≤ cache.size)

/-- Releases a name at time `now`. Releasing a name that is not cached, or not acquired, changes
no count. -/
def release (cache : NameCache) (now : Nat) (key : String) : NameCache :=
  match cache.policy with
  | .static => cache
  | .sized capacity =>
    match cache.entries.get? key with
    | none => cache
    | some entry =>
      if entry.refs = 1 ∧ cache.isFull capacity then
        { cache with
          entries := cache.entries.erase key
          stats := { cache.stats with evictions := cache.stats.evictions + 1 } }
      else
        { cache with entries := cache.entries.insert key { entry with refs := entry.refs - 1 } }
  | .ttl ns =>
    let released :=
      match cache.entries.get? key with
      | none => cache
      | some entry =>
        if entry.refs = 1 ∧ 0 < ns then
          { cache with
            entries := cache.entries.insert key { entry with refs := 0, idleSince? := some now }
            idle := cache.idle ++ [(key, now)] }
        else
          { cache with entries := cache.entries.insert key { entry with refs := entry.refs - 1 } }
    released.sweep now

/-- Gives up every name. -/
def clear (cache : NameCache) : NameCache :=
  { cache with
    entries := {}
    idle := []
    stats := { cache.stats with clears := cache.stats.clears + 1 } }

end NameCache
end RowStore
