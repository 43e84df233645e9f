/-
# A cache that counts is a counter

What is outstanding in a cache needs no table of names to tell. A tally keeps one number for each
text: an acquisition adds one, a release takes one away unless none is left, a clear sets all to
zero, and nothing else changes any. A sized cache and one with a time to live give names up and make
them anew at moments that depend on the policy, and yet a text has as many acquisitions in them as
the tally says, a text that is not cached having none (`refs?_after`). So a name with outstanding
acquisitions is never given up, nothing that was given up comes back with old acquisitions, and two
policies never disagree on what is outstanding (`heldFor_after_eq`).

Key definitions: `Tally`, `Tally.step`, `CacheRun.Tallied`.
Key theorems: `CacheRun.Tallied.step`, `CacheRun.Tallied.after`, `CacheRun.refs?_after`.
-/
import Mathlib
import RowStore.Proofs.NameCache.Capacity
import RowStore.Proofs.NameCache.Guards

namespace RowStore

/-- What a run of a cache leaves outstanding, whatever names are given up: a number for each text,
and the texts of the open guards, the newest first. -/
structure Tally where
  count : String → Nat := fun _ => 0
  guards : List String := []

namespace Tally

/-- One acquisition of a text more. -/
def add (tally : Tally) (key : String) : Tally :=
  { tally with count := Function.update tally.count key (tally.count key + 1) }

/-- One acquisition of a text less, if it has any. -/
def takeBack (tally : Tally) (key : String) : Tally :=
  { tally with count := Function.update tally.count key (tally.count key - 1) }

/-- Follows an action. -/
def step (tally : Tally) : CacheRun.Action → Tally
  | .acquire key => tally.add key
  | .release key => tally.takeBack key
  | .clear => { tally with count := fun _ => 0 }
  | .openGuard key => { tally.add key with guards := key :: tally.guards }
  | .dropGuard =>
    match tally.guards with
    | [] => tally
    | key :: guards => { tally.takeBack key with guards }
  | .advance _ | .probe => tally

/-- A tally after some actions. -/
def after (tally : Tally) (actions : List CacheRun.Action) : Tally := actions.foldl step tally

theorem count_add (tally : Tally) (key key' : String) :
    (tally.add key).count key' =
      if key' = key then tally.count key + 1 else tally.count key' :=
  Function.update_apply ..

theorem count_takeBack (tally : Tally) (key key' : String) :
    (tally.takeBack key).count key' =
      if key' = key then tally.count key - 1 else tally.count key' :=
  Function.update_apply ..

end Tally

namespace CacheRun

open NameCache

/-- The tally of a run: the acquisitions of every text, and the texts of the open guards. -/
structure Tallied (run : CacheRun) (tally : Tally) : Prop where
  counts : run.cache.counts = true
  heldFor : ∀ key, run.cache.heldFor key = tally.count key
  guards : run.guards.map (·.key) = tally.guards

variable {run : CacheRun} {tally : Tally} {policy policy' : CachePolicy}

namespace Tallied

theorem start (hpolicy : policy ≠ .static) : Tallied { cache := .ofPolicy policy } {} where
  counts := bne_iff_ne.2 hpolicy
  heldFor _ := rfl
  guards := rfl

theorem heldFor_acquire (h : run.Tallied tally) (key key' : String) :
    (run.cache.acquire run.now key).2.heldFor key' = (tally.add key).count key' := by
  rw [NameCache.heldFor_acquire h.counts, h.heldFor, h.heldFor, Tally.count_add]

theorem heldFor_release (h : run.Tallied tally) (key key' : String) :
    (run.cache.release run.now key).heldFor key' = (tally.takeBack key).count key' := by
  rw [NameCache.heldFor_release h.counts, h.heldFor, h.heldFor, Tally.count_takeBack]

theorem counts_acquire (h : run.Tallied tally) (key : String) :
    (run.cache.acquire run.now key).2.counts = true :=
  (counts_congr (policy_acquire _ _ _)).trans h.counts

theorem counts_release (h : run.Tallied tally) (key : String) :
    (run.cache.release run.now key).counts = true :=
  (counts_congr (policy_release _ _ _)).trans h.counts

/-- The tally follows every action, whatever the action gives up. -/
theorem step (h : run.Tallied tally) (action : Action) :
    (run.step action).2.Tallied (tally.step action) := by
  cases action with
  | acquire key => exact ⟨h.counts_acquire key, h.heldFor_acquire key, h.guards⟩
  | release key => exact ⟨h.counts_release key, h.heldFor_release key, h.guards⟩
  | clear => exact ⟨h.counts, fun _ => rfl, h.guards⟩
  | advance ns => exact ⟨h.counts, h.heldFor, h.guards⟩
  | openGuard key =>
    exact ⟨h.counts_acquire key, h.heldFor_acquire key, congrArg (key :: ·) h.guards⟩
  | probe => exact h
  | dropGuard =>
    obtain ⟨cache, now, guards⟩ := run
    obtain ⟨count, keys⟩ := tally
    obtain rfl : guards.map (·.key) = keys := h.guards
    cases guards with
    | nil => exact h
    | cons guard guards =>
      exact ⟨h.counts_release guard.key, h.heldFor_release guard.key, rfl⟩

theorem after (h : run.Tallied tally) (actions : List Action) :
    (run.after actions).Tallied (tally.after actions) := by
  induction actions generalizing run tally with
  | nil => exact h
  | cons action actions ih => exact ih (h.step action)

end Tallied

/-- In a cache that counts acquisitions, whatever its capacity or its time to live, after any
actions: every text has the acquisitions that the tally says, none if it is not cached. -/
theorem refs?_after (hpolicy : policy ≠ .static) (actions : List Action) (key : String) :
    ((after { cache := .ofPolicy policy } actions).cache.refs? key).getD 0 =
      (Tally.after {} actions).count key :=
  ((Tallied.start hpolicy).after actions).heldFor key

/-- A name given up at its release and made anew has the one acquisition it was made with. -/
theorem refs?_after_eviction :
    ((after { cache := .ofPolicy (.sized 1) }
      [.acquire "a", .acquire "a", .release "a", .release "a", .release "a", .acquire "a"]).cache.refs?
        "a").getD 0 = 1 :=
  refs?_after (by decide)
    [.acquire "a", .acquire "a", .release "a", .release "a", .release "a", .acquire "a"] "a"

/-- What is outstanding does not depend on the capacity or on the time to live. -/
theorem heldFor_after_eq (hpolicy : policy ≠ .static) (hpolicy' : policy' ≠ .static)
    (actions : List Action) (key : String) :
    (after { cache := .ofPolicy policy } actions).cache.heldFor key =
      (after { cache := .ofPolicy policy' } actions).cache.heldFor key := by
  calc (after { cache := .ofPolicy policy } actions).cache.heldFor key
      = (Tally.after {} actions).count key := ((Tallied.start hpolicy).after actions).heldFor key
    _ = _ := (((Tallied.start hpolicy').after actions).heldFor key).symm

end CacheRun
end RowStore
