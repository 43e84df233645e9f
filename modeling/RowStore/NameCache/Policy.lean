/-
# Policies and counters of a name cache

When a name cache gives up a name: never; once it is idle in a cache of at least so many names;
or once it has been idle for longer than a time. The counters of a cache only grow.

Key definitions: `CachePolicy`, `CacheStats`, `CacheStats.hitRatio`.
-/
import RowStore.Text.Elapsed

namespace RowStore

/-- When a cache gives up a name. -/
inductive CachePolicy where
  /-- Never; acquisitions are not counted. -/
  | static
  /-- When it becomes idle while the cache holds `capacity` names or more; never if that is 0. -/
  | sized (capacity : Nat)
  /-- When it has been idle for more than `ns` nanoseconds; never if that is 0. -/
  | ttl (ns : Nat)
  deriving DecidableEq, Repr

instance : Inhabited CachePolicy := ⟨.static⟩

/-- The text of a policy. -/
def CachePolicy.text : CachePolicy → String
  | .static => "static"
  | .sized capacity => s!"sized({capacity})"
  | .ttl ns => s!"ttl({Text.elapsed ns})"

/-- What a cache has counted. The counters are unbounded; in 64 bits each would be taken modulo
`2 ^ 64`. -/
structure CacheStats where
  hits : Nat := 0
  misses : Nat := 0
  evictions : Nat := 0
  clears : Nat := 0
  deriving DecidableEq, Repr, Inhabited

/-- The share of acquisitions that found their name; 0 without acquisitions. Both counts are
rounded to doubles before the division. -/
def CacheStats.hitRatio (stats : CacheStats) : Float :=
  let total := stats.hits + stats.misses
  if total = 0 then 0 else stats.hits.toUInt64.toFloat / total.toUInt64.toFloat

end RowStore
