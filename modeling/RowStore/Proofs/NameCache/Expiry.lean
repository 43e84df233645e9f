/-
# The idle queue gives up the names that have expired

A cache with a time to live sweeps only the front of its queue, and the queue holds items of names
that were acquired again, stamped anew or given up since. Its stamps never fall, and every idle name
has an item with its own stamp. So the sweep removes exactly what a look through the whole table
removes (`swept_sweepQueue`), and a cache with a queue cannot be told from the plain one, whatever is
acquired, released or cleared and whatever time passes (`trace_eq_plain`).

Key definitions: `NameCache.HasItems`, `NameCache.Swept`, `NameCache.Expires`, `NameCache.Refines`.
Key theorems: `NameCache.swept_sweepQueue`, `NameCache.Refines.sweep`, `NameCache.Refines.acquire`,
`NameCache.Refines.release`, `CacheRun.trace_eq_plain`.
-/
import Mathlib
import RowStore.Proofs.NameCache.Plain

namespace RowStore

/-! ### Tables of names -/

namespace Table

variable {κ : Type} {α : Type} [Ord κ] {t : Table κ α}

theorem ext_entries {t' : Table κ α} (h : t.entries = t'.entries) : t = t' := by
  cases t
  cases t'
  cases h
  rfl

theorem filter_eq_self {p : κ → α → Bool} (h : ∀ e ∈ t.entries, p e.1 e.2 = true) :
    t.filter p = t :=
  ext_entries (List.filter_eq_self.2 h)

variable [Std.LawfulEqOrd κ]

/-- What is removed in any case may be removed before. -/
theorem filter_erase {p : κ → α → Bool} {k : κ} {a : α} (hget : t.get? k = some a)
    (hp : p k a = false) : (t.erase k).filter p = t.filter p := by
  refine ext_entries ?_
  show (t.entries.filter _).filter _ = t.entries.filter _
  rw [List.filter_filter]
  refine List.filter_congr fun e he => ?_
  by_cases hk : e.1 = k
  · subst hk
    have ha : t.get? e.1 = some e.2 := get?_eq_some_iff.2 he
    rw [hget] at ha
    rw [Option.some.inj ha] at hp
    simp [hp]
  · simp [hk]

variable [Std.TransOrd κ]

theorem length_filter_of_sorted {k : κ} {a : α} : ∀ {entries : List (κ × α)},
    entries.Pairwise (fun e e' => compare e.1 e'.1 = .lt) → (k, a) ∈ entries →
      (entries.filter fun e => !(compare e.1 k == .eq)).length + 1 = entries.length
  | e :: rest, hsorted, hmem => by
    rw [List.pairwise_cons] at hsorted
    rcases List.mem_cons.1 hmem with rfl | hmem
    · have hrest : rest.filter (fun e => !(compare e.1 k == .eq)) = rest :=
        List.filter_eq_self.2 fun e' he' => by
          simp [Std.OrientedCmp.gt_of_lt (hsorted.1 e' he')]
      rw [List.filter_cons_of_neg (by simp), hrest, List.length_cons]
    · have hlt : compare e.1 k = .lt := hsorted.1 _ hmem
      rw [List.filter_cons_of_pos (by simp [hlt]), List.length_cons, List.length_cons,
        length_filter_of_sorted hsorted.2 hmem]

/-- An erasure takes one entry. -/
theorem size_erase {k : κ} {a : α} (hget : t.get? k = some a) : (t.erase k).size + 1 = t.size :=
  length_filter_of_sorted t.sorted (get?_eq_some_iff.1 hget)

/-- Two tables with the same keys that hold related values under each. -/
def Rel (R : α → α → Prop) (t t' : Table κ α) : Prop :=
  List.Forall₂ (fun e e' => e.1 = e'.1 ∧ R e.2 e'.2) t.entries t'.entries

namespace Rel

variable {R : α → α → Prop} {t' : Table κ α}

omit [Std.LawfulEqOrd κ] [Std.TransOrd κ] in
theorem filter (h : Rel R t t') {p p' : κ → α → Bool} (hp : ∀ k a a', R a a' → p k a = p' k a') :
    Rel R (t.filter p) (t'.filter p') := by
  refine List.rel_filter (p := fun e => p e.1 e.2) (q := fun e => p' e.1 e.2) ?_ h
  rintro ⟨k, a⟩ ⟨k', a'⟩ ⟨hk, hr⟩
  cases hk
  exact Bool.eq_iff_iff.1 (hp k a a' hr)

omit [Std.LawfulEqOrd κ] in
theorem insert (h : Rel R t t') (k : κ) {a a' : α} (hr : R a a') :
    Rel R (t.insert k a) (t'.insert k a') := by
  have hbelow := h.filter (p := fun k' _ => compare k' k == .lt) fun _ _ _ _ => rfl
  have habove := h.filter (p := fun k' _ => compare k k' == .lt) fun _ _ _ _ => rfl
  exact List.rel_append hbelow (.cons ⟨rfl, hr⟩ habove)

omit [Std.LawfulEqOrd κ] [Std.TransOrd κ] in
theorem size_eq (h : Rel R t t') : t.size = t'.size := h.length_eq

omit [Std.LawfulEqOrd κ] [Std.TransOrd κ] in
theorem get? (h : Rel R t t') (k : κ) : Option.Rel R (t.get? k) (t'.get? k) := by
  unfold Table.get?
  unfold Rel at h
  generalize t.entries = entries, t'.entries = entries' at h
  induction h with
  | nil => exact .none
  | @cons e e' _ _ he _ ih =>
    rw [List.find?_cons, List.find?_cons, ← he.1]
    cases compare e.1 k == .eq with
    | true => exact .some he.2
    | false => exact ih

end Rel

end Table

namespace NameCache

variable {ttl ns now : Nat} {queue : List (String × Nat)} {entries : Entries} {key : String}

/-! ### The sweep -/

/-- Every idle name has an item with its stamp in the queue. -/
def HasItems (queue : List (String × Nat)) (entries : Entries) : Prop :=
  ∀ key entry, entries.get? key = some entry → entry.refs = 0 →
    ∃ stamp, entry.idleSince? = some stamp ∧ (key, stamp) ∈ queue

/-- What a sweep leaves: a rear part of the queue without outdated items, and the names that have
not expired, the idle ones with their items. -/
structure Swept (ttl now : Nat) (queue : List (String × Nat)) (entries : Entries)
    (result : List (String × Nat) × Entries × Nat) : Prop where
  suffix : result.1 <:+ queue
  fresh : ∀ item ∈ result.1, now - item.2 ≤ ttl
  kept : result.2.1 = entries.filter fun _ entry => !entry.isExpired ttl now
  evicted : result.2.2 + result.2.1.size = entries.size
  hasItems : HasItems result.1 result.2.1

theorem isCurrent_iff {stamp : Nat} : isCurrent entries key stamp = true ↔
    ∃ entry, entries.get? key = some entry ∧ entry.refs = 0 ∧ entry.idleSince? = some stamp := by
  unfold isCurrent
  cases entries.get? key <;> simp

theorem isExpired_iff {entry : Entry} {stamp : Nat} (hrefs : entry.refs = 0)
    (hidle : entry.idleSince? = some stamp) :
    entry.isExpired ttl now = true ↔ ttl < now - stamp := by
  simp [Entry.isExpired, hrefs, hidle]

/-- If no item of the queue is outdated, no name has expired. -/
theorem filter_of_fresh (hitems : HasItems queue entries)
    (hfresh : ∀ item ∈ queue, now - item.2 ≤ ttl) :
    entries.filter (fun _ entry => !entry.isExpired ttl now) = entries := by
  refine Table.filter_eq_self fun e he => ?_
  rw [Bool.not_eq_true', ← Bool.not_eq_true]
  intro hexpired
  have hrefs : e.2.refs = 0 := by
    have := Bool.and_elim_left hexpired
    simpa using this
  obtain ⟨stamp, hidle, hmem⟩ := hitems e.1 e.2 (Table.get?_eq_some_iff.2 he) hrefs
  have := hfresh _ hmem
  rw [isExpired_iff hrefs hidle] at hexpired
  omega

/-- Without a name, the items of the others are enough. -/
theorem HasItems.erase {stamp : Nat} (hitems : HasItems ((key, stamp) :: queue) entries) :
    HasItems queue (entries.erase key) := by
  intro key' entry hget hrefs
  rw [Table.get?_erase] at hget
  split at hget
  · simp at hget
  · next hne =>
    obtain ⟨stamp', hidle, hmem⟩ := hitems key' entry hget hrefs
    refine ⟨stamp', hidle, ?_⟩
    rcases List.mem_cons.1 hmem with heq | hmem
    · exact absurd (Prod.mk.inj heq).1 hne
    · exact hmem

/-- An item that is not current belongs to no idle name. -/
theorem HasItems.drop {stamp : Nat} (hitems : HasItems ((key, stamp) :: queue) entries)
    (hstale : isCurrent entries key stamp = false) : HasItems queue entries := by
  intro key' entry hget hrefs
  obtain ⟨stamp', hidle, hmem⟩ := hitems key' entry hget hrefs
  refine ⟨stamp', hidle, ?_⟩
  rcases List.mem_cons.1 hmem with heq | hmem
  · cases heq
    rw [isCurrent_iff.2 ⟨entry, hget, hrefs, hidle⟩] at hstale
    simp at hstale
  · exact hmem

/-- The sweep of the front of a queue gives up exactly the names that have expired. -/
theorem swept_sweepQueue : ∀ {queue : List (String × Nat)} {entries : Entries},
    queue.Pairwise (fun a b => a.2 ≤ b.2) → HasItems queue entries →
      Swept ttl now queue entries (sweepQueue ttl now queue entries)
  | [], entries, _, hitems => {
      suffix := List.suffix_refl _
      fresh := nofun
      kept := (filter_of_fresh hitems nofun).symm
      evicted := Nat.zero_add _
      hasItems := hitems }
  | (key, stamp) :: rest, entries, hsorted, hitems => by
    have hrest := List.pairwise_cons.1 hsorted
    rw [sweepQueue]
    split
    · next hcurrent =>
      obtain ⟨entry, hget, hrefs, hidle⟩ := isCurrent_iff.1 hcurrent
      split
      · next hyoung =>
        -- The first item may stay, and the others are not older.
        have hfresh : ∀ item ∈ (key, stamp) :: rest, now - item.2 ≤ ttl := by
          intro item hmem
          rcases List.mem_cons.1 hmem with rfl | hmem
          · exact hyoung
          · have := hrest.1 item hmem
            omega
        exact {
          suffix := List.suffix_refl _
          fresh := hfresh
          kept := (filter_of_fresh hitems hfresh).symm
          evicted := Nat.zero_add _
          hasItems := hitems }
      · next hold =>
        have hexpired : entry.isExpired ttl now = true :=
          (isExpired_iff hrefs hidle).2 (Nat.lt_of_not_le hold)
        have ih : Swept ttl now rest _ _ := swept_sweepQueue hrest.2 hitems.erase
        generalize sweepQueue ttl now rest (entries.erase key) = result at ih ⊢
        obtain ⟨queue, left, evicted⟩ := result
        have hsize := Table.size_erase hget
        have hevicted := ih.evicted
        exact {
          suffix := ih.suffix.trans (List.suffix_cons _ _)
          fresh := ih.fresh
          kept := ih.kept.trans (Table.filter_erase hget (by rw [hexpired]; rfl))
          evicted := by
            dsimp only at hevicted ⊢
            omega
          hasItems := ih.hasItems }
    · next hstale =>
      have ih : Swept ttl now rest _ _ := swept_sweepQueue hrest.2
        (hitems.drop (Bool.not_eq_true _ ▸ hstale))
      exact { ih with suffix := ih.suffix.trans (List.suffix_cons _ _) }

/-! ### Against the plain cache -/

/-- The same name with the same acquisitions; if it is idle and names can expire, since the same
time. -/
structure Entry.Same (ns : Nat) (entry plain : Entry) : Prop where
  name : entry.name = plain.name
  refs : entry.refs = plain.refs
  idleSince : 0 < ns → entry.refs = 0 → entry.idleSince? = plain.idleSince?

/-- A cache with a time to live at some time. -/
structure Expires (ns now : Nat) (cache : NameCache) : Prop where
  policy : cache.policy = .ttl ns
  ordered : cache.idle.Pairwise fun a b => a.2 ≤ b.2
  past : ∀ item ∈ cache.idle, item.2 ≤ now
  hasItems : 0 < ns → HasItems cache.idle cache.entries
  unqueued : ns = 0 → cache.idle = []

/-- The cache holds what the plain cache holds, and has counted the same. -/
structure Refines (ns now : Nat) (cache : NameCache) (plain : PlainCache) : Prop where
  expires : cache.Expires ns now
  ttl : plain.ttl = ns
  entries : cache.entries.Rel (Entry.Same ns) plain.entries
  allocated : cache.allocated = plain.allocated
  stats : cache.stats = plain.stats

/-- No item of the queue is older than the time to live. -/
def IsSwept (ns now : Nat) (cache : NameCache) : Prop :=
  0 < ns → ∀ item ∈ cache.idle, now - item.2 ≤ ns

variable {cache : NameCache} {plain : PlainCache}

theorem sweep_of_pos (h : cache.policy = .ttl (ns + 1)) : cache.sweep now =
    { cache with
      idle := (sweepQueue (ns + 1) now cache.idle cache.entries).1
      entries := (sweepQueue (ns + 1) now cache.idle cache.entries).2.1
      stats := { cache.stats with
        evictions := cache.stats.evictions +
          (sweepQueue (ns + 1) now cache.idle cache.entries).2.2 } } := by
  unfold NameCache.sweep
  rw [h]

theorem release_of_ttl (h : cache.policy = .ttl ns) : cache.release now key =
    (match cache.entries.get? key with
    | none => cache
    | some entry =>
      if entry.refs = 1 ∧ 0 < ns then
        { cache with
          entries := cache.entries.insert key { entry with refs := 0, idleSince? := some now }
          idle := cache.idle ++ [(key, now)] }
      else
        { cache with
          entries := cache.entries.insert key { entry with refs := entry.refs - 1 } }).sweep now := by
  obtain ⟨policy, entries, idle, allocated, stats⟩ := cache
  obtain rfl : policy = .ttl ns := h
  rfl

theorem evict_of_pos (h : plain.ttl = ns + 1) : plain.evict now =
    { plain with
      entries := plain.entries.filter fun _ entry => !entry.isExpired (ns + 1) now
      stats := { plain.stats with
        evictions := plain.stats.evictions + (plain.entries.size -
          (plain.entries.filter fun _ entry => !entry.isExpired (ns + 1) now).size) } } := by
  unfold PlainCache.evict
  rw [h, if_neg (Nat.succ_ne_zero ns)]

theorem Entry.Same.isExpired_eq {entry entry' : Entry} (h : Entry.Same (ns + 1) entry entry') :
    entry.isExpired ttl now = entry'.isExpired ttl now := by
  unfold Entry.isExpired
  rw [← h.refs]
  cases hrefs : entry.refs == 0 with
  | false => rfl
  | true => rw [h.idleSince (Nat.succ_pos ns) (by simpa using hrefs)]

/-- A name that is held needs no item. -/
theorem HasItems.insert_held {entry : Entry} (h : HasItems queue entries) (hheld : entry.refs ≠ 0) :
    HasItems queue (entries.insert key entry) := by
  intro key' entry' hget hrefs
  rw [Table.get?_insert] at hget
  split at hget
  · cases hget
    exact absurd hrefs hheld
  · exact h key' entry' hget hrefs

namespace Refines

theorem counts (h : Refines ns now cache plain) : cache.counts = true := by
  unfold NameCache.counts
  rw [h.expires.policy]
  rfl

theorem get? (h : Refines ns now cache plain) (key : String) :
    (cache.entries.get? key = none ∧ plain.entries.get? key = none) ∨
      ∃ entry entry', cache.entries.get? key = some entry ∧
        plain.entries.get? key = some entry' ∧ Entry.Same ns entry entry' := by
  have hrel := h.entries.get? key
  generalize cache.entries.get? key = a, plain.entries.get? key = b at hrel
  cases hrel with
  | none => exact .inl ⟨rfl, rfl⟩
  | some hsame => exact .inr ⟨_, _, rfl, rfl, hsame⟩

/-- Time passes. -/
theorem later (h : Refines ns now cache plain) {later : Nat} (hle : now ≤ later) :
    Refines ns later cache plain :=
  { h with expires := { h.expires with
      past := fun item hmem => Nat.le_trans (h.expires.past item hmem) hle } }

/-- The sweep of the queue is the look through the table. -/
theorem sweep (h : Refines ns now cache plain) :
    Refines ns now (cache.sweep now) (plain.evict now) ∧ (cache.sweep now).IsSwept ns now := by
  obtain _ | ns := ns
  · have hsweep : cache.sweep now = cache := by
      unfold NameCache.sweep
      rw [h.expires.policy]
    have hevict : plain.evict now = plain := by
      unfold PlainCache.evict
      rw [if_pos h.ttl]
    rw [hsweep, hevict]
    exact ⟨h, nofun⟩
  · have hswept : Swept (ns + 1) now _ _ _ :=
      swept_sweepQueue h.expires.ordered (h.expires.hasItems (Nat.succ_pos ns))
    have hkept : Table.Rel (Entry.Same (ns + 1))
        (sweepQueue (ns + 1) now cache.idle cache.entries).2.1 (plain.entries.filter _) :=
      hswept.kept ▸ h.entries.filter fun _ _ _ hsame => congrArg not hsame.isExpired_eq
    have hevicted := hswept.evicted
    have hsize := h.entries.size_eq
    have hsize' := hkept.size_eq
    rw [sweep_of_pos h.expires.policy, evict_of_pos h.ttl]
    refine ⟨{
      expires := {
        policy := h.expires.policy
        ordered := h.expires.ordered.sublist hswept.suffix.sublist
        past := fun item hmem => h.expires.past item (hswept.suffix.subset hmem)
        hasItems := fun _ => hswept.hasItems
        unqueued := fun hzero => absurd hzero (Nat.succ_ne_zero ns) }
      ttl := h.ttl
      entries := hkept
      allocated := h.allocated
      stats := ?_ }, fun _ => hswept.fresh⟩
    dsimp only
    rw [h.stats]
    congr 2
    omega

/-- Both hand out the same name. -/
theorem acquire (h : Refines ns now cache plain) (key : String) :
    (cache.acquire now key).1 = (plain.acquire now key).1 ∧
      Refines ns now (cache.acquire now key).2 (plain.acquire now key).2 ∧
      (cache.acquire now key).2.IsSwept ns now := by
  obtain ⟨hrefines, hswept⟩ := h.sweep
  unfold NameCache.acquire PlainCache.acquire
  generalize cache.sweep now = cache, plain.evict now = plain at hrefines hswept ⊢
  rcases hrefines.get? key with ⟨hnone, hnone'⟩ | ⟨entry, entry', hsome, hsome', hsame⟩
  · dsimp only
    rw [hnone, hnone']
    dsimp only [NameCache.miss]
    rw [hrefines.counts, hrefines.allocated, hrefines.stats]
    exact ⟨rfl, {
      expires := { hrefines.expires with
        hasItems := fun hpos => (hrefines.expires.hasItems hpos).insert_held (by simp) }
      ttl := hrefines.ttl
      entries := hrefines.entries.insert key ⟨rfl, rfl, fun _ _ => rfl⟩
      allocated := rfl
      stats := rfl }, hswept⟩
  · dsimp only
    rw [hsome, hsome']
    dsimp only [NameCache.hit]
    rw [hrefines.counts, hrefines.stats]
    refine ⟨hsame.name, {
      expires := { hrefines.expires with
        hasItems := fun hpos => (hrefines.expires.hasItems hpos).insert_held (by simp) }
      ttl := hrefines.ttl
      entries := hrefines.entries.insert key ⟨hsame.name, ?_, fun _ hzero => by simp at hzero⟩
      allocated := hrefines.allocated
      stats := rfl }, hswept⟩
    dsimp only
    rw [hsame.refs]
    rfl

/-- The last acquisition of a name that can expire goes to the end of the queue. -/
theorem stamp (h : Refines ns now cache plain) (hpos : 0 < ns) {entry entry' : Entry}
    (hsame : Entry.Same ns entry entry') (hrefs : entry.refs = 1) (key : String) :
    Refines ns now
      { cache with
        entries := cache.entries.insert key { entry with refs := 0, idleSince? := some now }
        idle := cache.idle ++ [(key, now)] }
      { plain with entries := plain.entries.insert key (entry'.released now) } where
  expires := {
    policy := h.expires.policy
    ordered := by
      refine List.pairwise_append.2 ⟨h.expires.ordered, List.pairwise_singleton _ _, ?_⟩
      intro item hmem last hlast
      rw [List.mem_singleton.1 hlast]
      exact h.expires.past item hmem
    past := by
      intro item hmem
      rcases List.mem_append.1 hmem with hmem | hlast
      · exact h.expires.past item hmem
      · exact Nat.le_of_eq (congrArg Prod.snd (List.mem_singleton.1 hlast))
    hasItems := by
      intro _ key' other hget hzero
      rw [Table.get?_insert] at hget
      split at hget
      · next heq =>
        cases hget
        exact ⟨now, rfl, List.mem_append_right _ (by rw [heq]; exact List.mem_singleton_self _)⟩
      · obtain ⟨since, hidle, hmem⟩ := h.expires.hasItems hpos key' other hget hzero
        exact ⟨since, hidle, List.mem_append_left _ hmem⟩
    unqueued := fun hzero => absurd hzero (Nat.pos_iff_ne_zero.1 hpos) }
  ttl := h.ttl
  entries := by
    have hone : entry'.refs = 1 := hsame.refs.symm.trans hrefs
    refine h.entries.insert key ⟨hsame.name, ?_, fun _ _ => ?_⟩
    · simp [Entry.released, hone]
    · simp [Entry.released, hone]
  allocated := h.allocated
  stats := h.stats

/-- Any other acquisition given back, and one too many, stamps nothing. -/
theorem lower (h : Refines ns now cache plain) {entry entry' : Entry}
    (hget : cache.entries.get? key = some entry) (hsame : Entry.Same ns entry entry')
    (hrefs : ¬ (entry.refs = 1 ∧ 0 < ns)) :
    Refines ns now
      { cache with entries := cache.entries.insert key { entry with refs := entry.refs - 1 } }
      { plain with entries := plain.entries.insert key (entry'.released now) } where
  expires := { h.expires with
    hasItems := by
      intro hpos key' other hother hzero
      rw [Table.get?_insert] at hother
      split at hother
      · next heq =>
        cases hother
        subst heq
        dsimp only at hzero
        have hidle : entry.refs = 0 := by
          have : entry.refs ≠ 1 := fun hone => hrefs ⟨hone, hpos⟩
          omega
        exact h.expires.hasItems hpos key' entry hget hidle
      · exact h.expires.hasItems hpos key' other hother hzero }
  ttl := h.ttl
  entries := by
    refine h.entries.insert key ⟨hsame.name, ?_, fun hpos hzero => ?_⟩
    · exact congrArg (· - 1) hsame.refs
    · dsimp only at hzero ⊢
      have hone : entry.refs ≠ 1 := fun hone => hrefs ⟨hone, hpos⟩
      have hone' : ¬ entry'.refs = 1 := hsame.refs ▸ hone
      rw [hsame.idleSince hpos (by omega)]
      exact (if_neg hone').symm
  allocated := h.allocated
  stats := h.stats

theorem release (h : Refines ns now cache plain) (key : String) :
    Refines ns now (cache.release now key) (plain.release now key) ∧
      (cache.release now key).IsSwept ns now := by
  rw [release_of_ttl h.expires.policy]
  unfold PlainCache.release PlainCache.giveBack
  rcases h.get? key with ⟨hnone, hnone'⟩ | ⟨entry, entry', hsome, hsome', hsame⟩
  · rw [hnone, hnone']
    exact h.sweep
  · rw [hsome, hsome']
    dsimp only
    split
    · next hlast => exact (h.stamp hlast.2 hsame hlast.1 key).sweep
    · next hlast => exact (h.lower hsome hsame hlast).sweep

theorem clear (h : Refines ns now cache plain) : Refines ns now cache.clear plain.clear where
  expires := {
    policy := h.expires.policy
    ordered := List.Pairwise.nil
    past := nofun
    hasItems := nofun
    unqueued := fun _ => rfl }
  ttl := h.ttl
  entries := .nil
  allocated := h.allocated
  stats := by
    unfold NameCache.clear PlainCache.clear
    rw [h.stats]

/-- What the caches hold alike looks alike. -/
theorem view_eq (h : Refines ns now cache plain) :
    CacheView.of cache.entries cache.stats = CacheView.of plain.entries plain.stats := by
  have hrel := h.entries
  unfold Table.Rel at hrel
  unfold CacheView.of
  rw [h.stats]
  congr 1
  generalize cache.entries.entries = names, plain.entries.entries = names' at hrel
  induction hrel with
  | nil => rfl
  | cons he _ ih => rw [List.map_cons, List.map_cons, ih, he.1, he.2.name, he.2.refs]

end Refines

end NameCache

namespace CacheRun

variable {ns : Nat} {run : CacheRun} {plain : PlainRun}

/-- Two runs at the same time with the same open guards, the one on a cache with a queue, the other
on a plain one. -/
structure Refines (ns : Nat) (run : CacheRun) (plain : PlainRun) : Prop where
  cache : run.cache.Refines ns run.now plain.cache
  now : run.now = plain.now
  guards : run.guards = plain.guards

/-- An action has the same answer in both runs, and an acquisition or release sweeps the queue. -/
theorem Refines.step (h : Refines ns run plain) (action : Action) :
    (run.step action).1 = (plain.step action).1 ∧
      Refines ns (run.step action).2 (plain.step action).2 ∧
      (run.calls action = true → (run.step action).2.cache.IsSwept ns run.now) := by
  obtain ⟨cache, now, guards⟩ := run
  obtain ⟨plain, now', guards'⟩ := plain
  obtain ⟨hcache, rfl, rfl⟩ := h
  cases action with
  | acquire key =>
    obtain ⟨hname, hnext, hswept⟩ := hcache.acquire key
    exact ⟨congrArg Answer.name hname, ⟨hnext, rfl, rfl⟩, fun _ => hswept⟩
  | release key =>
    obtain ⟨hnext, hswept⟩ := hcache.release key
    exact ⟨rfl, ⟨hnext, rfl, rfl⟩, fun _ => hswept⟩
  | clear => exact ⟨rfl, ⟨hcache.clear, rfl, rfl⟩, nofun⟩
  | advance ns => exact ⟨rfl, ⟨hcache.later (Nat.le_add_right _ _), rfl, rfl⟩, nofun⟩
  | openGuard key =>
    obtain ⟨hname, hnext, hswept⟩ := hcache.acquire key
    exact ⟨congrArg (fun name => Answer.guarded ⟨key, name⟩) hname,
      ⟨hnext, rfl, congrArg (fun name => (⟨key, name⟩ : Guard) :: guards) hname⟩, fun _ => hswept⟩
  | dropGuard =>
    cases guards with
    | nil => exact ⟨rfl, ⟨hcache, rfl, rfl⟩, nofun⟩
    | cons guard guards =>
      obtain ⟨hnext, hswept⟩ := hcache.release guard.key
      exact ⟨rfl, ⟨hnext, rfl, rfl⟩, fun _ => hswept⟩
  | probe => exact ⟨rfl, ⟨hcache, rfl, rfl⟩, nofun⟩

theorem Refines.trace_eq (h : Refines ns run plain) (actions : List Action) :
    trace actions run = PlainRun.trace actions plain := by
  induction actions generalizing run plain with
  | nil => rfl
  | cons action actions ih =>
    obtain ⟨hanswer, hnext, -⟩ := h.step action
    rw [trace, PlainRun.trace]
    exact congrArg₂ List.cons (Prod.ext hanswer hnext.cache.view_eq) (ih hnext)

theorem Refines.after (h : Refines ns run plain) (actions : List Action) :
    ∃ plain, Refines ns (run.after actions) plain := by
  induction actions generalizing run plain with
  | nil => exact ⟨plain, h⟩
  | cons action actions ih => exact ih (h.step action).2.1

theorem refines_start (ns : Nat) :
    Refines ns { cache := .ofPolicy (.ttl ns) } { cache := { ttl := ns } } where
  cache := {
    expires := {
      policy := rfl
      ordered := List.Pairwise.nil
      past := nofun
      hasItems := nofun
      unqueued := fun _ => rfl }
    ttl := rfl
    entries := .nil
    allocated := rfl
    stats := rfl }
  now := rfl
  guards := rfl

/-- A cache with a time to live answers and shows at every action what the plain cache does. An
acquisition or a release leaves no item in the queue that is older than the time to live, and with
a time to live of zero there never is one. -/
theorem trace_eq_plain (ns : Nat) (actions : List Action) :
    trace actions { cache := .ofPolicy (.ttl ns) } =
        PlainRun.trace actions { cache := { ttl := ns } } ∧
      ∀ run : CacheRun, run = after { cache := .ofPolicy (.ttl ns) } actions →
        (0 < ns → ∀ action, run.calls action = true →
          ∀ item ∈ (run.step action).2.cache.idle, run.now - item.2 ≤ ns) ∧
        (ns = 0 → run.cache.idle = []) := by
  refine ⟨(refines_start ns).trace_eq actions, ?_⟩
  rintro run rfl
  obtain ⟨plain, hrefines⟩ := (refines_start ns).after actions
  exact ⟨fun hpos action hcalls => (hrefines.step action).2.2 hcalls hpos,
    hrefines.cache.expires.unqueued⟩

end CacheRun
end RowStore
