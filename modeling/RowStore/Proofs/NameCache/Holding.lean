/-
# The names that are held

A name is held while acquisitions of it are outstanding. In a cache that counts acquisitions, who
holds what does not depend on the policy: an acquisition of a name adds one to those of its text and
hands out the name that is held, a release takes one back, a clear takes all, and a sweep or an
eviction, which only takes idle names, is not seen.

Key definitions: `NameCache.held?`, `NameCache.heldFor`.
Key theorems: `NameCache.held?_acquire`, `NameCache.held?_release`, `NameCache.acquire_of_held`.
-/
import Mathlib
import RowStore.Proofs.NameCache.Expiry
import RowStore.Proofs.NameCache.Faithful

namespace RowStore.NameCache

/-- What is held of an entry: its name and its acquisitions, if it has any. -/
def Entry.held? (entry : Entry) : Option (SharedName × Nat) :=
  if entry.refs = 0 then none else some (entry.name, entry.refs)

/-- The name that is held under a text, with its acquisitions. -/
def held? (cache : NameCache) (key : String) : Option (SharedName × Nat) :=
  (cache.entries.get? key).bind Entry.held?

/-- The acquisitions that are outstanding of the name under a text. -/
def heldFor (cache : NameCache) (key : String) : Nat := (cache.refs? key).getD 0

/-- What is held of a name once one acquisition of it is given back. -/
def lessOne (held : SharedName × Nat) : Option (SharedName × Nat) :=
  if held.2 ≤ 1 then none else some (held.1, held.2 - 1)

variable {cache : NameCache} {key key' : String} {now : Nat} {name : SharedName} {refs : Nat}

theorem held?_eq_some_iff : cache.held? key = some (name, refs) ↔
    ∃ entry, cache.entries.get? key = some entry ∧ entry.name = name ∧ entry.refs = refs ∧
      0 < refs := by
  unfold held?
  cases cache.entries.get? key with
  | none => simp
  | some entry =>
    simp only [Option.bind_some, Option.some.injEq, exists_eq_left']
    unfold Entry.held?
    split
    · next hzero =>
      constructor
      · simp
      · rintro ⟨-, rfl, hpos⟩
        omega
    · next hpos =>
      rw [Option.some.injEq, Prod.mk.injEq]
      constructor
      · rintro ⟨rfl, rfl⟩
        exact ⟨rfl, rfl, Nat.pos_of_ne_zero hpos⟩
      · rintro ⟨rfl, rfl, -⟩
        exact ⟨rfl, rfl⟩

theorem heldFor_eq (cache : NameCache) (key : String) :
    cache.heldFor key = (cache.held? key).elim 0 (·.2) := by
  unfold heldFor refs? held?
  cases cache.entries.get? key with
  | none => rfl
  | some entry =>
    show entry.refs = entry.held?.elim 0 (·.2)
    unfold Entry.held?
    split
    · next hzero => exact hzero
    · rfl

/-- A name with acquisitions is held. -/
theorem held?_of_heldFor (h : 0 < cache.heldFor key) :
    ∃ name, cache.held? key = some (name, cache.heldFor key) := by
  rw [heldFor_eq] at h ⊢
  cases hheld : cache.held? key with
  | none =>
    rw [hheld] at h
    exact absurd h (Nat.lt_irrefl 0)
  | some held => exact ⟨held.1, rfl⟩

/-- An insertion is seen under its own text only. -/
theorem held?_of_insert {cache' : NameCache} {entry : Entry}
    (h : cache'.entries = cache.entries.insert key entry) (key' : String) :
    cache'.held? key' = if key' = key then entry.held? else cache.held? key' := by
  unfold held?
  rw [h, Table.get?_insert]
  split
  · rfl
  · rfl

/-! ### The sweep -/

/-- A sweep takes idle names only. -/
theorem get?_sweepQueue_of_held {ttl : Nat} {entry : Entry} (hheld : entry.refs ≠ 0) :
    ∀ {queue : List (String × Nat)} {entries : Entries}, entries.get? key = some entry →
      (sweepQueue ttl now queue entries).2.1.get? key = some entry
  | [], _, hget => hget
  | (key', stamp) :: rest, entries, hget => by
    rw [sweepQueue]
    split
    · next hcurrent =>
      split
      · exact hget
      · have hne : key ≠ key' := by
          rintro rfl
          obtain ⟨idle, hidle, hrefs, -⟩ := isCurrent_iff.1 hcurrent
          rw [hget] at hidle
          cases hidle
          exact hheld hrefs
        refine get?_sweepQueue_of_held hheld ?_
        rw [Table.get?_erase, if_neg hne]
        exact hget
    · exact get?_sweepQueue_of_held hheld hget

theorem held?_sweep (cache : NameCache) (now : Nat) (key : String) :
    (cache.sweep now).held? key = cache.held? key := by
  unfold NameCache.sweep
  split
  · apply Option.ext
    rintro ⟨name, refs⟩
    rw [held?_eq_some_iff, held?_eq_some_iff]
    constructor
    · rintro ⟨entry, hget, hrest⟩
      exact ⟨entry, get?_of_sweepQueue hget, hrest⟩
    · rintro ⟨entry, hget, hname, hrefs, hpos⟩
      exact ⟨entry, get?_sweepQueue_of_held (by omega) hget, hname, hrefs, hpos⟩
  · rfl

theorem counts_congr {cache' : NameCache} (h : cache'.policy = cache.policy) :
    cache'.counts = cache.counts := by
  unfold NameCache.counts
  rw [h]

theorem policy_sweep (cache : NameCache) (now : Nat) : (cache.sweep now).policy = cache.policy := by
  unfold NameCache.sweep
  split <;> rfl

/-! ### Acquisitions -/

theorem policy_acquire (cache : NameCache) (now : Nat) (key : String) :
    (cache.acquire now key).2.policy = cache.policy := by
  unfold NameCache.acquire
  dsimp only
  split
  · exact policy_sweep cache now
  · exact policy_sweep cache now

/-- An acquisition adds one to those of its text, and hands out the name they are of. -/
theorem held?_acquire (hcounts : cache.counts = true) (key' : String) :
    (cache.acquire now key).2.held? key' =
      if key' = key then some ((cache.acquire now key).1, cache.heldFor key + 1)
      else cache.held? key' := by
  have hcounts' : (cache.sweep now).counts = true :=
    (counts_congr (policy_sweep cache now)).trans hcounts
  have hsweep : cache.heldFor key = (cache.sweep now).heldFor key := by
    rw [heldFor_eq, heldFor_eq, held?_sweep]
  rw [hsweep, ← held?_sweep cache now key']
  unfold NameCache.acquire
  dsimp only
  generalize cache.sweep now = cache at hcounts' ⊢
  split
  · next entry hget =>
    refine (held?_of_insert rfl key').trans ?_
    unfold heldFor refs?
    rw [hget, hcounts', if_pos rfl]
    rfl
  · next hget =>
    refine (held?_of_insert rfl key').trans ?_
    unfold heldFor refs?
    rw [hget, hcounts', if_pos rfl]
    rfl

/-- A name that is held is the one handed out. -/
theorem acquire_of_held (hheld : cache.held? key = some (name, refs)) :
    (cache.acquire now key).1 = name := by
  rw [← held?_sweep cache now key] at hheld
  obtain ⟨entry, hget, hname, -⟩ := held?_eq_some_iff.1 hheld
  unfold NameCache.acquire
  dsimp only
  rw [hget]
  exact hname

/-! ### Releases -/

/-- One acquisition of a text given back, if it has any, and nothing given up. -/
def giveBack (cache : NameCache) (key : String) : NameCache :=
  match cache.entries.get? key with
  | none => cache
  | some entry =>
    { cache with entries := cache.entries.insert key { entry with refs := entry.refs - 1 } }

theorem Entry.held?_lessOne {entry entry' : Entry} (hname : entry'.name = entry.name)
    (hrefs : entry'.refs = entry.refs - 1) : entry'.held? = entry.held?.bind lessOne := by
  unfold Entry.held?
  rw [hname, hrefs]
  by_cases hzero : entry.refs = 0
  · rw [if_pos (by omega), if_pos hzero]
    rfl
  · rw [if_neg hzero]
    show _ = lessOne (entry.name, entry.refs)
    unfold lessOne
    by_cases hlast : entry.refs ≤ 1
    · rw [if_pos (by omega), if_pos hlast]
    · rw [if_neg (by omega), if_neg hlast]

/-- Storing an entry with one acquisition less takes one back. -/
theorem held?_of_lessOne {cache' : NameCache} {entry : Entry} (entry' : Entry)
    (hget : cache.entries.get? key = some entry)
    (h : cache'.entries = cache.entries.insert key entry') (hname : entry'.name = entry.name)
    (hrefs : entry'.refs = entry.refs - 1) (key' : String) :
    cache'.held? key' =
      if key' = key then (cache.held? key).bind lessOne else cache.held? key' := by
  rw [held?_of_insert h, Entry.held?_lessOne hname hrefs]
  unfold held?
  rw [hget]
  rfl

theorem held?_of_vacant (hget : cache.entries.get? key = none) (key' : String) :
    cache.held? key' =
      if key' = key then (cache.held? key).bind lessOne else cache.held? key' := by
  split
  · next heq =>
    rw [heq]
    unfold held?
    rw [hget]
    rfl
  · rfl

theorem held?_giveBack (cache : NameCache) (key key' : String) :
    (cache.giveBack key).held? key' =
      if key' = key then (cache.held? key).bind lessOne else cache.held? key' := by
  unfold giveBack
  split
  · next hget => exact held?_of_vacant hget key'
  · next entry hget => exact held?_of_lessOne { entry with refs := entry.refs - 1 } hget rfl rfl rfl key'

theorem policy_release (cache : NameCache) (now : Nat) (key : String) :
    (cache.release now key).policy = cache.policy := by
  unfold NameCache.release
  split
  · rfl
  · split
    · rfl
    · split <;> rfl
  · refine (policy_sweep _ now).trans ?_
    split
    · rfl
    · split <;> rfl

/-- A release takes one acquisition of its text back, whether or not the name is then given up. -/
theorem held?_release (hcounts : cache.counts = true) (key' : String) :
    (cache.release now key).held? key' =
      if key' = key then (cache.held? key).bind lessOne else cache.held? key' := by
  unfold NameCache.release
  split
  · next hpolicy =>
    unfold NameCache.counts at hcounts
    rw [hpolicy] at hcounts
    cases hcounts
  · split
    · next hget => exact held?_of_vacant hget key'
    · next entry hget =>
      split
      · next hlast =>
        -- The name has no acquisitions left when it is given up.
        rw [← held?_giveBack]
        have hgiven : (cache.giveBack key).held? key = none := by
          rw [held?_giveBack, if_pos rfl]
          unfold held?
          rw [hget, Option.bind_some]
          unfold Entry.held?
          rw [hlast.1]
          rfl
        by_cases heq : key' = key
        · subst heq
          rw [hgiven]
          unfold held?
          rw [Table.get?_erase, if_pos rfl]
          rfl
        · rw [held?_giveBack, if_neg heq]
          unfold held?
          rw [Table.get?_erase, if_neg heq]
      · exact held?_of_lessOne { entry with refs := entry.refs - 1 } hget rfl rfl rfl key'
  · rw [held?_sweep]
    split
    · next hget => exact held?_of_vacant hget key'
    · next entry hget =>
      split
      · next hlast =>
        refine held?_of_lessOne { entry with refs := 0, idleSince? := some now } hget rfl rfl ?_ key'
        rw [hlast.1]
      · exact held?_of_lessOne { entry with refs := entry.refs - 1 } hget rfl rfl rfl key'

end RowStore.NameCache
