/-
# A sized cache keeps fewer idle names than its capacity

A sized cache grows past its capacity while names are held and gives a name up only at the release
that makes it idle, if there are `capacity` names or more. That is enough to bound the idle names: a
name stays idle only if at its release there were fewer names than the capacity, and no other action
makes a name idle. A name goes otherwise only when the cache is cleared, so as long as it is held the
same allocation is handed out.

Key definitions: `NameCache.idleCount`, `NameCache.heldCount`, `NameCache.Bounded`,
`CacheRun.acquires?`, `CacheRun.givesBack?`.
Key theorems: `NameCache.Bounded.release`, `CacheRun.removes_cases`, `CacheRun.held?_step`,
`CacheRun.sized_after`.
-/
import Mathlib
import RowStore.Proofs.Data.Tables
import RowStore.Proofs.NameCache.Holding

namespace RowStore

namespace NameCache

/-- The number of cached names without acquisitions. -/
def idleCount (cache : NameCache) : Nat := cache.entries.entries.countP fun e => e.2.refs == 0

/-- The number of cached names with acquisitions. -/
def heldCount (cache : NameCache) : Nat := cache.entries.entries.countP fun e => decide (0 < e.2.refs)

/-- Whether a name is cached under a text. -/
def contains (cache : NameCache) (key : String) : Bool := (cache.refs? key).isSome

/-- A cache of capacity `c` whose idle names are fewer than `c`. -/
structure Bounded (c : Nat) (cache : NameCache) : Prop where
  policy : cache.policy = .sized c
  idle : 0 < c → cache.idleCount < c

variable {cache cache' : NameCache} {c now : Nat} {key key' : String} {entry : Entry}

theorem size_eq (cache : NameCache) : cache.size = cache.idleCount + cache.heldCount := by
  refine (List.length_eq_countP_add_countP fun e => e.2.refs == 0).trans ?_
  refine congrArg _ (List.countP_congr fun e _ => ?_)
  simp [Nat.pos_iff_ne_zero]

theorem contains_eq (cache : NameCache) (key : String) :
    cache.contains key = (cache.entries.get? key).isSome := by
  unfold contains refs?
  rw [Option.isSome_map]

/-! ### Counting idle names -/

theorem idleCount_erase_le (h : cache'.entries = cache.entries.erase key) :
    cache'.idleCount ≤ cache.idleCount := by
  unfold idleCount
  rw [h]
  exact List.Sublist.countP_le List.filter_sublist

/-- An entry that is stored counts beside those under the other texts. -/
theorem idleCount_insert (h : cache'.entries = cache.entries.insert key entry) :
    cache'.idleCount = (cache.entries.erase key).entries.countP (fun e => e.2.refs == 0) +
      if entry.refs = 0 then 1 else 0 := by
  unfold idleCount
  rw [h, (Table.perm_insert cache.entries key entry).countP_eq, List.countP_cons]
  simp

/-- Storing a name that is held leaves no more idle ones. -/
theorem idleCount_insert_le (h : cache'.entries = cache.entries.insert key entry)
    (hheld : entry.refs ≠ 0) : cache'.idleCount ≤ cache.idleCount := by
  rw [idleCount_insert h, if_neg hheld]
  exact List.Sublist.countP_le List.filter_sublist

theorem idleCount_of_get? (hget : cache.entries.get? key = some entry) :
    cache.idleCount = (cache.entries.erase key).entries.countP (fun e => e.2.refs == 0) +
      if entry.refs = 0 then 1 else 0 := by
  unfold idleCount
  rw [(Table.perm_of_get? hget).countP_eq, List.countP_cons]
  simp

/-! ### One call -/

theorem sweep_of_sized (h : cache.policy = .sized c) : cache.sweep now = cache := by
  unfold NameCache.sweep
  rw [h]

theorem counts_of_sized (h : cache.policy = .sized c) : cache.counts = true := by
  unfold NameCache.counts
  rw [h]
  rfl

/-- A release gives one acquisition back, and then gives the name up if that was the last one and
the cache is full. -/
theorem release_of_sized (h : cache.policy = .sized c) :
    (cache.release now key).entries =
      if cache.refs? key = some 1 ∧ cache.isFull c then cache.entries.erase key
      else (cache.giveBack key).entries := by
  unfold NameCache.release giveBack refs?
  rw [h]
  dsimp only
  split
  · next hget => rw [hget, if_neg (by simp)]
  · next entry hget =>
    simp only [hget, Option.map_some, Option.some.injEq]
    split <;> rfl

theorem contains_giveBack (cache : NameCache) (key key' : String) :
    (cache.giveBack key).contains key' = cache.contains key' := by
  rw [contains_eq, contains_eq]
  unfold giveBack
  split
  · rfl
  · next entry hget =>
    rw [Table.get?_insert]
    split
    · next heq =>
      rw [heq, hget]
      rfl
    · rfl

/-- Only the name that is released may be given up, its last acquisition given back, and only by a
full cache. -/
theorem release_removes (h : cache.policy = .sized c) (hcached : cache.contains key' = true)
    (hgone : (cache.release now key).contains key' = false) :
    key' = key ∧ (cache.giveBack key).refs? key = some 0 ∧ cache.isFull c = true := by
  by_cases hlast : cache.refs? key = some 1 ∧ cache.isFull c = true
  · rw [contains_eq, release_of_sized h, if_pos hlast, Table.get?_erase] at hgone
    have heq : key' = key := by
      by_contra hne
      rw [if_neg hne, ← contains_eq, hcached] at hgone
      cases hgone
    refine ⟨heq, ?_, hlast.2⟩
    obtain ⟨entry, hget, hrefs⟩ := Option.map_eq_some_iff.1 hlast.1
    unfold giveBack refs?
    rw [hget]
    dsimp only
    rw [Table.get?_insert, if_pos rfl, hrefs]
    rfl
  · rw [contains_eq, release_of_sized h, if_neg hlast, ← contains_eq, contains_giveBack,
      hcached] at hgone
    cases hgone

theorem contains_acquire (h : cache.policy = .sized c) (hcached : cache.contains key' = true) :
    (cache.acquire now key).2.contains key' = true := by
  rw [contains_eq] at hcached ⊢
  unfold NameCache.acquire
  rw [sweep_of_sized h]
  dsimp only
  split
  · next entry hget =>
    show ((cache.entries.insert key _).get? key').isSome = true
    rw [Table.get?_insert]
    split
    · rfl
    · exact hcached
  · show ((cache.entries.insert key _).get? key').isSome = true
    rw [Table.get?_insert]
    split
    · rfl
    · exact hcached

namespace Bounded

theorem start (c : Nat) : (ofPolicy (.sized c)).Bounded c := ⟨rfl, fun hpos => hpos⟩

/-- What is acquired is not idle. -/
theorem acquire (h : cache.Bounded c) (now : Nat) (key : String) :
    (cache.acquire now key).2.Bounded c := by
  refine ⟨(policy_acquire cache now key).trans h.policy, fun hpos => ?_⟩
  refine Nat.lt_of_le_of_lt ?_ (h.idle hpos)
  unfold NameCache.acquire
  rw [sweep_of_sized h.policy]
  have hcounts := counts_of_sized h.policy
  dsimp only
  split
  · next entry hget => exact idleCount_insert_le rfl (by rw [hcounts]; simp)
  · exact idleCount_insert_le rfl (by rw [hcounts]; simp)

/-- A name that becomes idle and stays was released when there were fewer names than the
capacity. -/
theorem release (h : cache.Bounded c) (now : Nat) (key : String) :
    (cache.release now key).Bounded c := by
  refine ⟨(policy_release cache now key).trans h.policy, fun hpos => ?_⟩
  have hidle := h.idle hpos
  by_cases hlast : cache.refs? key = some 1 ∧ cache.isFull c = true
  · have herase : (cache.release now key).entries = _ := release_of_sized h.policy
    rw [if_pos hlast] at herase
    exact Nat.lt_of_le_of_lt (idleCount_erase_le herase) hidle
  · have hgive : (cache.release now key).entries = _ := release_of_sized h.policy
    rw [if_neg hlast] at hgive
    unfold giveBack at hgive
    split at hgive
    · unfold idleCount
      rw [hgive]
      exact hidle
    · next entry hget =>
      rw [idleCount_insert hgive]
      rw [idleCount_of_get? hget] at hidle
      by_cases hone : entry.refs = 1
      · -- The name was not counted, and there are fewer names than the capacity.
        have hroom : cache.size < c := by
          unfold refs? isFull at hlast
          simp only [hget, Option.map_some, hone, hpos] at hlast
          simpa using hlast
        have hsize : cache.entries.size = cache.size := rfl
        have herase := Table.size_erase hget
        have hle : (cache.entries.erase key).entries.countP (fun e => e.2.refs == 0) ≤
          (cache.entries.erase key).size := List.countP_le_length
        split <;> omega
      · split
        · next hzero =>
          dsimp only at hzero
          rw [if_pos (by omega)] at hidle
          exact hidle
        · omega

theorem clear (h : cache.Bounded c) : cache.clear.Bounded c := ⟨h.policy, fun hpos => hpos⟩

end Bounded

end NameCache

namespace CacheRun

open NameCache

/-- The text that an action acquires a name for. -/
def acquires? : Action → Option String
  | .acquire key | .openGuard key => some key
  | .release _ | .clear | .advance _ | .dropGuard | .probe => none

/-- The text that an action gives an acquisition back of. -/
def givesBack? (run : CacheRun) : Action → Option String
  | .release key => some key
  | .dropGuard => run.guards.head?.map (·.key)
  | .acquire _ | .clear | .advance _ | .openGuard _ | .probe => none

/-- The name that an action hands out. -/
def Answer.handed? : Answer → Option SharedName
  | .name handed => some handed
  | .guarded guard => some guard.name
  | .nothing | .dropped _ => none

variable {run : CacheRun} {action : Action} {c : Nat} {key : String} {name : SharedName}

/-- What an action does to the cache: it acquires, it releases, it clears, or it leaves it. -/
theorem step_cases (run : CacheRun) (action : Action) :
    (∃ key, acquires? action = some key ∧
      (run.step action).1.handed? = some (run.cache.acquire run.now key).1 ∧
      (run.step action).2.cache = (run.cache.acquire run.now key).2) ∨
    (∃ key, run.givesBack? action = some key ∧ acquires? action = none ∧
      (run.step action).2.cache = run.cache.release run.now key) ∨
    (action = .clear ∧ (run.step action).2.cache = run.cache.clear) ∨
    (acquires? action = none ∧ (run.step action).2.cache = run.cache) := by
  cases action with
  | acquire key => exact .inl ⟨key, rfl, rfl, rfl⟩
  | openGuard key => exact .inl ⟨key, rfl, rfl, rfl⟩
  | release key => exact .inr (.inl ⟨key, rfl, rfl, rfl⟩)
  | clear => exact .inr (.inr (.inl ⟨rfl, rfl⟩))
  | advance ns => exact .inr (.inr (.inr ⟨rfl, rfl⟩))
  | probe => exact .inr (.inr (.inr ⟨rfl, rfl⟩))
  | dropGuard =>
    obtain ⟨cache, now, guards⟩ := run
    cases guards with
    | nil => exact .inr (.inr (.inr ⟨rfl, rfl⟩))
    | cons guard guards => exact .inr (.inl ⟨guard.key, rfl, rfl, rfl⟩)

/-- What an action that acquires a name answers and leaves. -/
theorem step_of_acquires (h : acquires? action = some key) :
    (run.step action).1.handed? = some (run.cache.acquire run.now key).1 ∧
      (run.step action).2.cache = (run.cache.acquire run.now key).2 := by
  cases action <;> cases h <;> exact ⟨rfl, rfl⟩

theorem bounded_step (h : run.cache.Bounded c) (action : Action) :
    (run.step action).2.cache.Bounded c := by
  obtain ⟨key, -, -, heq⟩ | ⟨key, -, -, heq⟩ | ⟨-, heq⟩ | ⟨-, heq⟩ := step_cases run action
  · exact heq ▸ h.acquire run.now key
  · exact heq ▸ h.release run.now key
  · exact heq ▸ h.clear
  · exact heq ▸ h

theorem bounded_after (h : run.cache.Bounded c) (actions : List Action) :
    (run.after actions).cache.Bounded c := by
  induction actions generalizing run with
  | nil => exact h
  | cons action actions ih => exact ih (bounded_step h action)

/-- A name goes by a clear, or when its last acquisition is given back to a full cache. -/
theorem removes_cases (h : run.cache.Bounded c) (hcached : run.cache.contains key = true)
    (hgone : (run.step action).2.cache.contains key = false) :
    action = .clear ∨ run.givesBack? action = some key ∧
      (run.cache.giveBack key).refs? key = some 0 ∧ run.cache.isFull c = true := by
  obtain ⟨key', -, -, heq⟩ | ⟨key', hgives, -, heq⟩ | ⟨hclear, -⟩ | ⟨-, heq⟩ :=
    step_cases run action
  · rw [heq, contains_acquire h.policy hcached] at hgone
    cases hgone
  · rw [heq] at hgone
    obtain ⟨rfl, hrest⟩ := release_removes h.policy hcached hgone
    exact .inr ⟨hgives, hrest⟩
  · exact .inl hclear
  · rw [heq, hcached] at hgone
    cases hgone

/-- A name that is held before an action and after it is the same name. -/
theorem held?_step {refs refs' : Nat} {name' : SharedName} (hcounts : run.cache.counts = true)
    (hheld : run.cache.held? key = some (name, refs))
    (hheld' : (run.step action).2.cache.held? key = some (name', refs')) : name' = name := by
  obtain ⟨key', -, -, heq⟩ | ⟨key', -, -, heq⟩ | ⟨-, heq⟩ | ⟨-, heq⟩ := step_cases run action
  · rw [heq, held?_acquire hcounts] at hheld'
    split at hheld'
    · next hkey =>
      subst hkey
      rw [acquire_of_held hheld] at hheld'
      cases hheld'
      rfl
    · rw [hheld] at hheld'
      cases hheld'
      rfl
  · rw [heq, held?_release hcounts] at hheld'
    split at hheld'
    · next hkey =>
      subst hkey
      rw [hheld, Option.bind_some] at hheld'
      unfold lessOne at hheld'
      split at hheld'
      · cases hheld'
      · cases hheld'
        rfl
    · rw [hheld] at hheld'
      cases hheld'
      rfl
  · rw [heq] at hheld'
    cases hheld'
  · rw [heq, hheld] at hheld'
    cases hheld'
    rfl

/-- A name that stays held through actions is the same name at their end. -/
theorem held?_after {refs : Nat} (h : run.cache.Bounded c) (actions : List Action)
    (hheld : run.cache.held? key = some (name, refs))
    (hstays : ∀ n ≤ actions.length, 0 < (run.after (actions.take n)).cache.heldFor key) :
    ∃ refs, (run.after actions).cache.held? key = some (name, refs) := by
  induction actions generalizing run refs with
  | nil => exact ⟨refs, hheld⟩
  | cons action actions ih =>
    obtain ⟨name', hheld'⟩ := held?_of_heldFor (hstays 1 (by simp))
    have hname : name' = name := held?_step (counts_of_sized h.policy) hheld hheld'
    subst hname
    exact ih (bounded_step h action) hheld' fun n hn => hstays (n + 1) (by simpa using hn)

/-- In a sized cache, after any actions: if the capacity `c` is positive, at most `c - 1` names are
idle, hence there are at most `c - 1` more names than are held, and fewer than `c` if none is held.
The next action removes a name only if it is a clear, or `c` is positive and the action gives back
the last acquisition of that name while there are `c` names or more. And as long as a name stays
held after it was acquired, every acquisition hands out the same allocation. -/
theorem sized_after (c : Nat) (actions : List Action) (key : String) :
    let run := after { cache := .ofPolicy (.sized c) } actions
    (0 < c → run.cache.idleCount ≤ c - 1 ∧
      run.cache.size ≤ c - 1 + run.cache.heldCount ∧
      (run.cache.heldCount = 0 → run.cache.size < c)) ∧
    (∀ action, run.cache.contains key = true →
      (run.step action).2.cache.contains key = false →
      action = .clear ∨ 0 < c ∧ c ≤ run.cache.size ∧ run.givesBack? action = some key ∧
        (run.cache.giveBack key).refs? key = some 0) ∧
    (∀ first during last, acquires? first = some key → acquires? last = some key →
      (∀ n ≤ during.length,
        0 < ((run.step first).2.after (during.take n)).cache.heldFor key) →
      ∃ name, (run.step first).1.handed? = some name ∧
        (((run.step first).2.after during).step last).1.handed? = some name) := by
  intro run
  have hbounded : run.cache.Bounded c := bounded_after (.start c) actions
  clear_value run
  refine ⟨fun hpos => ?_, fun action hcached hgone => ?_, fun first during last hfirst hlast hstays =>
    ?_⟩
  · have hidle := hbounded.idle hpos
    have hsize := size_eq run.cache
    exact ⟨by omega, by omega, fun hnone => by omega⟩
  · obtain hclear | ⟨hgives, hzero, hfull⟩ := removes_cases hbounded hcached hgone
    · exact .inl hclear
    · unfold isFull at hfull
      obtain ⟨hpos, hsize⟩ := Bool.and_eq_true_iff.1 hfull
      exact .inr ⟨of_decide_eq_true hpos, of_decide_eq_true hsize, hgives, hzero⟩
  · obtain ⟨hname, hcache⟩ : _ ∧ (run.step first).2.cache = _ := step_of_acquires hfirst
    have hheld : (run.step first).2.cache.held? key =
        some ((run.cache.acquire run.now key).1, run.cache.heldFor key + 1) := by
      rw [hcache, held?_acquire (counts_of_sized hbounded.policy), if_pos rfl]
    obtain ⟨refs, hheld'⟩ := held?_after (bounded_step hbounded first) during hheld hstays
    refine ⟨_, hname, ?_⟩
    rw [(step_of_acquires hlast).1, acquire_of_held hheld']

/-- With room for one name, a name stays while it is held, though others come and go. -/
theorem sized_one_keeps : ∃ name,
    (step { cache := .ofPolicy (.sized 1) } (.acquire "a")).1.handed? = some name ∧
      ((after { cache := .ofPolicy (.sized 1) } [.acquire "a", .acquire "b", .release "b"]).step
        (.openGuard "a")).1.handed? = some name :=
  (sized_after 1 [] "a").2.2 (.acquire "a") [.acquire "b", .release "b"] (.openGuard "a") rfl rfl
    (by decide)

end CacheRun
end RowStore
