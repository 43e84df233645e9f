/-
# The counters of a cache account for its names

Every acquisition is counted as a hit or as a miss, and every clear as a clear. A name is made by a
miss, and goes by an eviction or by a clear, which does not count the names it takes. So under every
policy and at every moment the cached names are as many as there were misses, less the evictions,
less the names that were cached when the cache was cleared (`stats_after`). What one call does to the
counters is said for the sweep, the acquisition and the release, whichever of their branches is
taken, and adds up along a run.

Key definitions: `NameCache.Books`, `CacheRun.acquisitions`, `CacheRun.clears`, `CacheRun.cleared`.
Key theorems: `NameCache.Books.sweep`, `NameCache.Books.acquire`, `NameCache.Books.release`,
`CacheRun.books_step`, `CacheRun.books_after`, `CacheRun.stats_after`.
-/
import Mathlib
import RowStore.Proofs.NameCache.Capacity

namespace RowStore

namespace Table

variable {κ : Type} {α : Type} [Ord κ] [Std.TransOrd κ] [Std.LawfulEqOrd κ] {t : Table κ α} {k : κ}

omit [Std.TransOrd κ] in
theorem erase_of_get?_none (hget : t.get? k = none) : t.erase k = t :=
  filter_eq_self fun e he => by
    have hne : e.1 ≠ k := by
      rintro rfl
      exact get?_eq_none_iff.1 hget e.2 he
    simpa using hne

theorem size_insert (t : Table κ α) (k : κ) (a : α) :
    (t.insert k a).size = (t.erase k).size + 1 := (perm_insert t k a).length_eq

/-- An entry that is replaced leaves as many. -/
theorem size_insert_of_some {a : α} (b : α) (hget : t.get? k = some a) :
    (t.insert k b).size = t.size := (size_insert t k b).trans (size_erase hget)

/-- An entry under a new key is one more. -/
theorem size_insert_of_none (a : α) (hget : t.get? k = none) :
    (t.insert k a).size = t.size + 1 := by
  rw [size_insert, erase_of_get?_none hget]

end Table

namespace NameCache

/-- From one cache to another: so many acquisitions were counted, each as a hit or a miss, and so many
clears; and every name that was made at a miss is there, was given up and counted, or is one of the
`cleared` names that a clear took. -/
structure Books (acquired clears cleared : Nat) (cache cache' : NameCache) : Prop where
  acquired : cache'.stats.hits + cache'.stats.misses =
    cache.stats.hits + cache.stats.misses + acquired
  clears : cache'.stats.clears = cache.stats.clears + clears
  names : cache'.size + cache'.stats.evictions + cleared + cache.stats.misses =
    cache.size + cache.stats.evictions + cache'.stats.misses

variable {cache cache' : NameCache} {key : String} {now : Nat} {entry : Entry}

/-- A sweep counts the names it gives up. -/
theorem size_sweepQueue (ttl now : Nat) : ∀ (queue : List (String × Nat)) (entries : Entries),
    (sweepQueue ttl now queue entries).2.1.size + (sweepQueue ttl now queue entries).2.2 =
      entries.size
  | [], _ => rfl
  | (key, stamp) :: rest, entries => by
    rw [sweepQueue]
    by_cases hcurrent : isCurrent entries key stamp = true
    · rw [if_pos hcurrent]
      by_cases hyoung : now - stamp ≤ ttl
      · rw [if_pos hyoung]
        rfl
      · rw [if_neg hyoung]
        obtain ⟨entry, hget, -⟩ := isCurrent_iff.1 hcurrent
        have herase := Table.size_erase hget
        have hrest := size_sweepQueue ttl now rest (entries.erase key)
        generalize sweepQueue ttl now rest (entries.erase key) = result at hrest ⊢
        obtain ⟨queue, left, evicted⟩ := result
        dsimp only at hrest ⊢
        omega
    · rw [if_neg hcurrent]
      exact size_sweepQueue ttl now rest entries

namespace Books

theorem refl (cache : NameCache) : Books 0 0 0 cache cache := ⟨rfl, rfl, rfl⟩

theorem trans {cache'' : NameCache} {a a' c c' n n' : Nat} (h : Books a c n cache cache')
    (h' : Books a' c' n' cache' cache'') : Books (a + a') (c + c') (n + n') cache cache'' := by
  obtain ⟨hacquired, hclears, hnames⟩ := h
  obtain ⟨hacquired', hclears', hnames'⟩ := h'
  exact ⟨by omega, by omega, by omega⟩

/-- Nothing is counted where an entry is replaced. -/
theorem replace (hget : cache.entries.get? key = some entry) (entry' : Entry)
    (hentries : cache'.entries = cache.entries.insert key entry')
    (hstats : cache'.stats = cache.stats) : Books 0 0 0 cache cache' := by
  have hsize : cache'.size = cache.size :=
    (congrArg Table.size hentries).trans (Table.size_insert_of_some entry' hget)
  exact ⟨by rw [hstats]; rfl, by rw [hstats]; rfl, by rw [hstats, hsize]; rfl⟩

theorem sweep (cache : NameCache) (now : Nat) : Books 0 0 0 cache (cache.sweep now) := by
  unfold NameCache.sweep
  split
  · next ns _ =>
    have hsize := size_sweepQueue (ns + 1) now cache.idle cache.entries
    generalize sweepQueue (ns + 1) now cache.idle cache.entries = result at hsize ⊢
    obtain ⟨queue, left, evicted⟩ := result
    refine ⟨rfl, rfl, ?_⟩
    unfold NameCache.size
    dsimp only at hsize ⊢
    omega
  · exact refl cache

theorem hit (hget : cache.entries.get? key = some entry) :
    Books 1 0 0 cache (cache.hit key entry).2 := by
  have hsize : (cache.hit key entry).2.size = cache.size := Table.size_insert_of_some _ hget
  have hstats : (cache.hit key entry).2.stats =
    { cache.stats with hits := cache.stats.hits + 1 } := rfl
  constructor <;> simp only [hstats] <;> omega

theorem miss (hget : cache.entries.get? key = none) : Books 1 0 0 cache (cache.miss key).2 := by
  have hsize : (cache.miss key).2.size = cache.size + 1 := Table.size_insert_of_none _ hget
  have hstats : (cache.miss key).2.stats =
    { cache.stats with misses := cache.stats.misses + 1 } := rfl
  constructor <;> simp only [hstats] <;> omega

theorem acquire (cache : NameCache) (now : Nat) (key : String) :
    Books 1 0 0 cache (cache.acquire now key).2 := by
  have hsweep := sweep cache now
  unfold NameCache.acquire
  dsimp only
  generalize cache.sweep now = swept at hsweep ⊢
  split
  · next entry hget => exact hsweep.trans (hit hget)
  · next hget => exact hsweep.trans (miss hget)

/-- A name that is given up is counted. -/
theorem evict (hget : cache.entries.get? key = some entry) :
    Books 0 0 0 cache { cache with
      entries := cache.entries.erase key
      stats := { cache.stats with evictions := cache.stats.evictions + 1 } } := by
  have hsize := Table.size_erase hget
  refine ⟨rfl, rfl, ?_⟩
  unfold NameCache.size
  dsimp only
  omega

theorem release (cache : NameCache) (now : Nat) (key : String) :
    Books 0 0 0 cache (cache.release now key) := by
  unfold NameCache.release
  split
  · exact refl cache
  · split
    · exact refl cache
    · next entry hget =>
      split
      · exact evict hget
      · exact replace hget { entry with refs := entry.refs - 1 } rfl rfl
  · refine Books.trans ?_ (sweep _ now)
    split
    · exact refl cache
    · next entry hget =>
      split
      · exact replace hget { entry with refs := 0, idleSince? := some now } rfl rfl
      · exact replace hget { entry with refs := entry.refs - 1 } rfl rfl

/-- A clear takes the names that are there, and counts none as given up. -/
theorem clear (cache : NameCache) : Books 0 1 cache.size cache cache.clear := by
  have hsize : cache.clear.size = 0 := rfl
  have hstats : cache.clear.stats = { cache.stats with clears := cache.stats.clears + 1 } := rfl
  constructor <;> simp only [hstats] <;> omega

end Books

end NameCache

namespace CacheRun

open NameCache

/-- The number of actions that acquire a name. -/
def acquisitions (actions : List Action) : Nat := actions.countP fun action => (acquires? action).isSome

/-- The number of clears. -/
def clears (actions : List Action) : Nat := actions.count .clear

/-- How many names a clear takes, and any other action none. -/
def clearedBy (run : CacheRun) (action : Action) : Nat :=
  if action = .clear then run.cache.size else 0

/-- How many names the clears of a run take in all. -/
def cleared (run : CacheRun) : List Action → Nat
  | [] => 0
  | action :: actions => run.clearedBy action + (run.step action).2.cleared actions

/-- What one action does to the counters. -/
theorem books_step (run : CacheRun) (action : Action) :
    Books (acquisitions [action]) (clears [action]) (run.clearedBy action) run.cache
      (run.step action).2.cache := by
  unfold acquisitions clears clearedBy
  rw [List.countP_singleton, List.count_singleton]
  by_cases hclear : action = .clear
  · subst hclear
    exact .clear run.cache
  · have hne : (action == .clear) ≠ true := by simpa using hclear
    rw [if_neg hclear, if_neg hne]
    obtain ⟨key, hacquires, -, hcache⟩ | ⟨key, -, hnone, hcache⟩ | ⟨heq, -⟩ | ⟨hnone, hcache⟩ :=
      step_cases run action
    · rw [hcache, hacquires]
      exact .acquire run.cache run.now key
    · rw [hcache, hnone]
      exact .release run.cache run.now key
    · exact absurd heq hclear
    · rw [hcache, hnone]
      exact .refl run.cache

theorem books_after (actions : List Action) (run : CacheRun) :
    Books (acquisitions actions) (clears actions) (run.cleared actions) run.cache
      (run.after actions).cache := by
  induction actions generalizing run with
  | nil => exact .refl run.cache
  | cons action actions ih =>
    have hacquired : acquisitions (action :: actions) =
        acquisitions [action] + acquisitions actions := by
      unfold acquisitions
      rw [← List.countP_append]
      rfl
    have hclears : clears (action :: actions) = clears [action] + clears actions := by
      unfold clears
      rw [← List.count_append]
      rfl
    rw [hacquired, hclears]
    exact (books_step run action).trans (ih (run.step action).2)

/-- Under every policy, whatever its capacity or its time to live, after any actions: the hits and
misses are the acquisitions, the clears are the calls to clear, and the names are as many as were
made at misses, less the evictions, less those that were cached when the cache was cleared. No counter
is higher than the number of actions. -/
theorem stats_after (policy : CachePolicy) (actions : List Action) :
    let start : CacheRun := { cache := .ofPolicy policy }
    let cache := (start.after actions).cache
    cache.stats.hits + cache.stats.misses = acquisitions actions ∧
      cache.stats.clears = clears actions ∧
      (cache.size : ℤ) = cache.stats.misses - cache.stats.evictions - start.cleared actions ∧
      cache.stats.hits ≤ actions.length ∧ cache.stats.misses ≤ actions.length ∧
      cache.stats.evictions ≤ actions.length ∧ cache.stats.clears ≤ actions.length := by
  intro start cache
  obtain ⟨hacquired, hclears, hnames⟩ : Books _ _ _ start.cache cache := books_after actions start
  have hmost : acquisitions actions ≤ actions.length := List.countP_le_length
  have hmost' : clears actions ≤ actions.length := List.count_le_length
  have hstats : start.cache.stats = {} := rfl
  have hsize : start.cache.size = 0 := rfl
  simp only [hstats, hsize] at hacquired hclears hnames
  exact ⟨by omega, by omega, by omega, by omega, by omega, by omega, by omega⟩

end CacheRun
end RowStore
