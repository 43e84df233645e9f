/-
# Guards and clears

A guard is an acquisition that is released when the guard is dropped, and guards may be dropped in
any order. A release says only which text it is for, so a guard that was opened before the cache was
cleared, dropped later, takes an acquisition back from whoever acquired the text since. That is the
only thing that can go wrong: in a sized cache and in one with a time to live, the guards opened
since the last clear have the name they hold cached, with at least as many acquisitions as there are
such guards, exactly if no guard from before the clear is dropped while one of them holds a name
under the same text (`protects_iff`).

Key definitions: `GuardRun`, `GuardRun.step`, `GuardRun.Protects`, `GuardRun.Robs`,
`GuardRun.Exact`.
Key theorems: `GuardRun.Exact.step`, `GuardRun.not_protects_of_robs`, `GuardRun.protects_iff`.
-/
import Mathlib
import RowStore.Proofs.NameCache.Holding

namespace RowStore

namespace NameCache

variable {cache : NameCache} {key : String} {now : Nat}

theorem heldFor_acquire (hcounts : cache.counts = true) (key' : String) :
    (cache.acquire now key).2.heldFor key' =
      if key' = key then cache.heldFor key + 1 else cache.heldFor key' := by
  rw [heldFor_eq, held?_acquire hcounts]
  split
  · rfl
  · exact (heldFor_eq cache key').symm

theorem heldFor_release (hcounts : cache.counts = true) (key' : String) :
    (cache.release now key).heldFor key' =
      if key' = key then cache.heldFor key - 1 else cache.heldFor key' := by
  rw [heldFor_eq, held?_release hcounts]
  split
  · rw [heldFor_eq]
    cases cache.held? key with
    | none => rfl
    | some held =>
      show (lessOne held).elim 0 (·.2) = held.2 - 1
      unfold lessOne
      split
      · exact (Nat.sub_eq_zero_of_le ‹_›).symm
      · rfl
  · exact (heldFor_eq cache key').symm

/-- What is still held after a release is the name that was held. -/
theorem held?_of_release {name : SharedName} {refs refs' : Nat} {name' : SharedName} {key' : String}
    (hcounts : cache.counts = true) (hheld : cache.held? key' = some (name, refs))
    (hheld' : (cache.release now key).held? key' = some (name', refs')) : name' = name := by
  rw [held?_release hcounts] at hheld'
  split at hheld'
  · next heq =>
    subst heq
    rw [hheld, Option.bind_some] at hheld'
    unfold lessOne at hheld'
    split at hheld'
    · cases hheld'
    · cases hheld'
      rfl
  · rw [hheld] at hheld'
    cases hheld'
    rfl

end NameCache

/-- A cache in use whose guards are dropped in any order: the open guards of the run are those
opened since the cache was last cleared, the older ones are kept beside them. -/
structure GuardRun where
  run : CacheRun
  older : List Guard := []

namespace GuardRun

/-- A guard opened or dropped, a clear, or time that passes. Guards are counted from the newest. -/
inductive Action where
  | openGuard (key : String)
  /-- Drops one of the guards opened since the last clear. -/
  | drop (i : Nat)
  /-- Drops one of the guards opened before the last clear. -/
  | dropOlder (i : Nat)
  | clear
  | advance (ns : Nat)
  deriving DecidableEq, Repr

/-- The empty cache of a policy, without guards. -/
def start (policy : CachePolicy) : GuardRun := { run := { cache := .ofPolicy policy } }

/-- Carries out an action. Any guard that is dropped releases its text. -/
def step (guarded : GuardRun) : Action → GuardRun
  | .openGuard key => { guarded with run := (guarded.run.step (.openGuard key)).2 }
  | .drop i =>
    match guarded.run.guards[i]? with
    | none => guarded
    | some guard =>
      let newest := { guarded.run with guards := guard :: guarded.run.guards.eraseIdx i }
      { guarded with run := (newest.step .dropGuard).2 }
  | .dropOlder i =>
    match guarded.older[i]? with
    | none => guarded
    | some guard =>
      { run := (guarded.run.step (.release guard.key)).2, older := guarded.older.eraseIdx i }
  | .clear =>
    { run := { (guarded.run.step .clear).2 with guards := [] }
      older := guarded.run.guards ++ guarded.older }
  | .advance ns => { guarded with run := (guarded.run.step (.advance ns)).2 }

/-- A run after some actions. -/
def after (guarded : GuardRun) (actions : List Action) : GuardRun := actions.foldl step guarded

/-- The number of guards on a text that were opened since the last clear and are open. -/
def openOn (guarded : GuardRun) (key : String) : Nat :=
  guarded.run.guards.countP fun guard => guard.key == key

/-- The cache has at least as many acquisitions of a text as guards on it were opened since the last
clear and are open, and the name these hold is the one that is cached. -/
structure Protects (guarded : GuardRun) (key : String) : Prop where
  refs : guarded.openOn key ≤ (guarded.run.cache.refs? key).getD 0
  cached : ∀ guard ∈ guarded.run.guards, guard.key = key →
    ∃ entry, guarded.run.cache.entries.get? key = some entry ∧ entry.name = guard.name

/-- The action drops a guard from before the last clear while a guard on the same text that was
opened since is open. -/
def Robs (guarded : GuardRun) (action : Action) : Prop :=
  ∃ i guard, action = .dropOlder i ∧ guarded.older[i]? = some guard ∧ 0 < guarded.openOn guard.key

/-- The acquisitions are those of the guards opened since the last clear, and what is held is the
name these have. -/
structure Exact (guarded : GuardRun) : Prop where
  counts : guarded.run.cache.counts = true
  heldFor : ∀ key, guarded.run.cache.heldFor key = guarded.openOn key
  named : ∀ guard ∈ guarded.run.guards,
    ∃ refs, guarded.run.cache.held? guard.key = some (guard.name, refs)

variable {guarded : GuardRun} {action : Action} {key : String}

theorem openOn_pos {guard : Guard} (hmem : guard ∈ guarded.run.guards) :
    0 < guarded.openOn guard.key :=
  List.countP_pos_iff.2 ⟨guard, hmem, beq_self_eq_true _⟩

/-- A guard among others, and the others. -/
theorem perm_eraseIdx {guards : List Guard} {guard : Guard} {i : Nat}
    (h : guards[i]? = some guard) : guards.Perm (guard :: guards.eraseIdx i) := by
  obtain ⟨hlt, rfl⟩ := List.getElem?_eq_some_iff.1 h
  exact (List.getElem_cons_eraseIdx_perm hlt).symm

namespace Exact

theorem start {policy : CachePolicy} (hpolicy : policy ≠ .static) : (start policy).Exact where
  counts := by
    show (policy != .static) = true
    rw [bne_iff_ne]
    exact hpolicy
  heldFor _ := rfl
  named := nofun

theorem protects (h : guarded.Exact) (key : String) : guarded.Protects key where
  refs := Nat.le_of_eq (h.heldFor key).symm
  cached := by
    rintro guard hmem rfl
    obtain ⟨refs, hheld⟩ := h.named guard hmem
    obtain ⟨entry, hget, hname, -⟩ := NameCache.held?_eq_some_iff.1 hheld
    exact ⟨entry, hget, hname⟩

theorem openGuard (h : guarded.Exact) (key : String) : (guarded.step (.openGuard key)).Exact where
  counts := (NameCache.counts_congr (NameCache.policy_acquire _ _ _)).trans h.counts
  heldFor key' := by
    refine (NameCache.heldFor_acquire h.counts key').trans ?_
    show _ = List.countP _ (⟨key, _⟩ :: guarded.run.guards)
    rw [List.countP_cons, h.heldFor key, h.heldFor key']
    by_cases heq : key' = key
    · subst heq
      rw [if_pos rfl, if_pos (beq_self_eq_true _)]
      rfl
    · rw [if_neg heq, if_neg (by simpa using Ne.symm heq)]
      rfl
  named guard hmem := by
    have hheld : (guarded.step (.openGuard key)).run.cache.held? guard.key = _ :=
      NameCache.held?_acquire h.counts guard.key
    rw [hheld]
    rcases List.mem_cons.1 hmem with rfl | hmem
    · exact ⟨_, if_pos rfl⟩
    · obtain ⟨refs, hname⟩ := h.named guard hmem
      split
      · next heq =>
        rw [heq] at hname
        rw [NameCache.acquire_of_held hname]
        exact ⟨_, rfl⟩
      · exact ⟨refs, hname⟩

/-- A guard that is dropped gives back its own acquisition. -/
theorem drop (h : guarded.Exact) (i : Nat) : (guarded.step (.drop i)).Exact := by
  unfold GuardRun.step
  dsimp only
  split
  · exact h
  · next guard hget =>
    have hperm := perm_eraseIdx hget
    have hopen : ∀ key', guarded.openOn key' =
        (guarded.run.guards.eraseIdx i).countP (fun guard => guard.key == key') +
          if guard.key == key' then 1 else 0 := fun key' => by
      unfold openOn
      rw [hperm.countP_eq, List.countP_cons]
    have hleft : ∀ key', (guarded.run.cache.release guarded.run.now guard.key).heldFor key' =
        (guarded.run.guards.eraseIdx i).countP fun guard => guard.key == key' := by
      intro key'
      rw [NameCache.heldFor_release h.counts, h.heldFor, h.heldFor, hopen, hopen]
      by_cases heq : key' = guard.key
      · subst heq
        rw [if_pos rfl, if_pos (beq_self_eq_true _), Nat.add_sub_cancel]
      · rw [if_neg heq, if_neg (by simpa using Ne.symm heq), Nat.add_zero]
    refine {
      counts := (NameCache.counts_congr (NameCache.policy_release _ _ _)).trans h.counts
      heldFor := hleft
      named := fun other hmem => ?_ }
    -- Another guard on the text is still open, so an acquisition is left.
    have hpos : 0 < (guarded.run.cache.release guarded.run.now guard.key).heldFor other.key := by
      rw [hleft]
      exact List.countP_pos_iff.2 ⟨other, hmem, beq_self_eq_true _⟩
    obtain ⟨name, hheld⟩ := NameCache.held?_of_heldFor hpos
    obtain ⟨refs, hname⟩ := h.named other (List.mem_of_mem_eraseIdx hmem)
    rw [NameCache.held?_of_release h.counts hname hheld] at hheld
    exact ⟨_, hheld⟩

/-- An older guard on a text that no guard was opened for since gives back nothing. -/
theorem dropOlder (h : guarded.Exact) {i : Nat} (hrobs : ¬ guarded.Robs (.dropOlder i)) :
    (guarded.step (.dropOlder i)).Exact := by
  unfold GuardRun.step
  dsimp only
  split
  · exact h
  · next guard hget =>
    have hzero : guarded.run.cache.heldFor guard.key = 0 := by
      rw [h.heldFor]
      exact Nat.eq_zero_of_not_pos fun hpos => hrobs ⟨i, guard, rfl, hget, hpos⟩
    refine {
      counts := (NameCache.counts_congr (NameCache.policy_release _ _ _)).trans h.counts
      heldFor := fun key' => ?_
      named := fun other hmem => ?_ }
    · refine (NameCache.heldFor_release h.counts key').trans ?_
      split
      · next heq =>
        have hheld := h.heldFor guard.key
        rw [hzero] at hheld
        rw [hzero, heq]
        exact hheld
      · exact h.heldFor key'
    · obtain ⟨refs, hname⟩ := h.named other hmem
      refine ⟨refs, (NameCache.held?_release h.counts other.key).trans ?_⟩
      have hne : other.key ≠ guard.key := fun heq => by
        have hpos : 0 < guarded.openOn other.key := openOn_pos hmem
        rw [heq, ← h.heldFor, hzero] at hpos
        exact absurd hpos (Nat.lt_irrefl 0)
      rw [if_neg hne]
      exact hname

/-- What an action leaves of the invariant. -/
theorem step (h : guarded.Exact) (hrobs : ¬ guarded.Robs action) : (guarded.step action).Exact := by
  cases action with
  | openGuard key => exact h.openGuard key
  | drop i => exact h.drop i
  | dropOlder i => exact h.dropOlder hrobs
  | clear => exact ⟨h.counts, fun _ => rfl, nofun⟩
  | advance ns => exact ⟨h.counts, h.heldFor, h.named⟩

end Exact

/-- An older guard dropped at the wrong time takes an acquisition of a guard that is open. -/
theorem not_protects_of_robs (h : guarded.Exact) (hrobs : guarded.Robs action) :
    ∃ key, ¬ (guarded.step action).Protects key := by
  obtain ⟨i, guard, rfl, hget, hpos⟩ := hrobs
  refine ⟨guard.key, fun hprotects => ?_⟩
  have hrefs := hprotects.refs
  unfold GuardRun.step at hrefs
  dsimp only at hrefs
  rw [hget] at hrefs
  have hleft : (guarded.run.cache.release guarded.run.now guard.key).heldFor guard.key =
      guarded.openOn guard.key - 1 := by
    rw [NameCache.heldFor_release h.counts, if_pos rfl, h.heldFor]
  have hle : guarded.openOn guard.key ≤ guarded.openOn guard.key - 1 := hleft ▸ hrefs
  omega

theorem Exact.throughout_iff (h : guarded.Exact) (actions : List Action) :
    (∀ before, before <+: actions → ∀ key, (guarded.after before).Protects key) ↔
      ∀ before action, before ++ [action] <+: actions → ¬ (guarded.after before).Robs action := by
  induction actions generalizing guarded with
  | nil =>
    constructor
    · intro _ before action hprefix
      simp at hprefix
    · intro _ before hprefix
      rw [List.prefix_nil.1 hprefix]
      exact h.protects
  | cons action actions ih =>
    by_cases hrobs : guarded.Robs action
    · constructor
      · intro hall
        obtain ⟨key, hnot⟩ := not_protects_of_robs h hrobs
        exact absurd (hall [action] (by simp) key) hnot
      · intro hall
        exact absurd hrobs (hall [] action (by simp))
    · have hnext := ih (h.step hrobs)
      constructor
      · intro hall before action' hprefix
        cases before with
        | nil =>
          obtain rfl : action' = action := by simpa using hprefix
          exact hrobs
        | cons first before =>
          obtain ⟨rfl, hrest⟩ := List.cons_prefix_cons.1 hprefix
          exact hnext.1 (fun before hbefore => hall (first :: before)
            (List.cons_prefix_cons.2 ⟨rfl, hbefore⟩)) before action' hrest
      · intro hall before hprefix
        cases before with
        | nil => exact h.protects
        | cons first before =>
          obtain ⟨rfl, hrest⟩ := List.cons_prefix_cons.1 hprefix
          exact hnext.2 (fun before action' hbefore => hall (first :: before) action'
            (List.cons_prefix_cons.2 ⟨rfl, hbefore⟩)) before hrest

/-- Guards protect their names. In a cache that counts acquisitions, guards opened and dropped in
any order between clears and as time passes: at every moment of the run every text has at least as
many acquisitions as guards on it were opened since the last clear and are open, and these hold the
name that is cached, exactly if the run never drops a guard from before the last clear while one on
the same text that was opened since is open. -/
theorem protects_iff {policy : CachePolicy} (hpolicy : policy ≠ .static) (actions : List Action) :
    (∀ before, before <+: actions → ∀ key, ((start policy).after before).Protects key) ↔
      ∀ before action, before ++ [action] <+: actions →
        ¬ ((start policy).after before).Robs action :=
  (Exact.start hpolicy).throughout_iff actions

/-- With room for one name, a guard from before a clear, dropped after one was opened on the same
text, has the name given up that the new guard holds. -/
theorem robbed_name_is_given_up :
    (∃ before, before <+: [.openGuard "k", .clear, .openGuard "k", .dropOlder 0] ∧
      ∃ key, ¬ ((start (.sized 1)).after before).Protects key) ∧
    let run := (start (.sized 1)).after [.openGuard "k", .clear, .openGuard "k", .dropOlder 0]
    run.run.guards = [⟨"k", ⟨"k", 1⟩⟩] ∧ run.run.cache.refs? "k" = none := by
  refine ⟨?_, by decide, by decide⟩
  by_contra hall
  push Not at hall
  refine (protects_iff (by decide) _).1 hall [.openGuard "k", .clear, .openGuard "k"] (.dropOlder 0)
    (List.prefix_refl _) ?_
  exact ⟨0, ⟨"k", ⟨"k", 0⟩⟩, rfl, by decide, by decide⟩

end GuardRun
end RowStore
