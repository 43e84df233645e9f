/-
# Names that a cache hands out

A cache hands out names under the texts they were asked for under. Whatever was acquired, released
or given up before, the name for a text is the text up to its first NUL, hence the text itself if
it has none (`acquire_fst`).

Key definitions: `NameCache.Faithful`.
Key theorems: `NameCache.Faithful.acquire`, `NameCache.Faithful.release`,
`NameCache.Faithful.acquire_fst`.
-/
import Mathlib
import RowStore.NameCache.Basic

namespace RowStore

/-- A text without a NUL is a name as it stands. -/
theorem SharedName.beforeNul_eq {text : String} (h : '\x00' ∉ text.toList) :
    beforeNul text = text := by
  have hall : ∀ c ∈ text.toList, (c != '\x00') = true := by
    intro c hc
    rw [bne_iff_ne]
    rintro rfl
    exact h hc
  unfold beforeNul
  rw [List.takeWhile_eq_self_iff.2 hall, String.ofList_toList]

namespace NameCache

/-- Every cached name is the one for its text. -/
def Faithful (cache : NameCache) : Prop :=
  ∀ key entry, cache.entries.get? key = some entry → entry.name.text = SharedName.beforeNul key

variable {cache : NameCache} {key : String} {now : Nat}

theorem ofPolicy_faithful (policy : CachePolicy) : (ofPolicy policy).Faithful := nofun

theorem Faithful.of_get? {cache' : NameCache} (hf : cache.Faithful)
    (h : ∀ key entry, cache'.entries.get? key = some entry →
      cache.entries.get? key = some entry) : cache'.Faithful :=
  fun key entry hget => hf key entry (h key entry hget)

theorem Faithful.insert {cache' : NameCache} {entry : Entry} (hf : cache.Faithful)
    (h : cache'.entries = cache.entries.insert key entry)
    (hentry : entry.name.text = SharedName.beforeNul key) : cache'.Faithful := by
  intro key' entry' hget
  rw [h, Table.get?_insert] at hget
  split at hget
  · next heq =>
    cases hget
    rw [heq]
    exact hentry
  · exact hf key' entry' hget

theorem get?_of_erase {entries : Entries} {key key' : String} {entry : Entry}
    (h : (entries.erase key).get? key' = some entry) : entries.get? key' = some entry := by
  rw [Table.get?_erase] at h
  split at h
  · simp at h
  · exact h

/-- A sweep only gives names up. -/
theorem get?_of_sweepQueue {ttl : Nat} : ∀ {queue : List (String × Nat)} {entries : Entries}
    {key : String} {entry : Entry},
    (sweepQueue ttl now queue entries).2.1.get? key = some entry → entries.get? key = some entry
  | [], _, _, _, h => h
  | (key', stamp) :: rest, entries, key, entry, h => by
    rw [sweepQueue] at h
    split at h
    · split at h
      · exact h
      · exact get?_of_erase (get?_of_sweepQueue h)
    · exact get?_of_sweepQueue h

theorem Faithful.sweep (hf : cache.Faithful) (now : Nat) : (cache.sweep now).Faithful := by
  unfold NameCache.sweep
  split
  · exact hf.of_get? fun _ _ h => get?_of_sweepQueue h
  · exact hf

theorem Faithful.acquire (hf : cache.Faithful) : (cache.acquire now key).2.Faithful := by
  have hsweep := hf.sweep now
  unfold NameCache.acquire
  dsimp only
  split
  · next entry hget => exact hsweep.insert rfl (hsweep key entry hget)
  · exact hsweep.insert rfl rfl

/-- The name handed out for a text. -/
theorem Faithful.acquire_fst (hf : cache.Faithful) :
    (cache.acquire now key).1.text = SharedName.beforeNul key := by
  have hsweep := hf.sweep now
  unfold NameCache.acquire
  dsimp only
  split
  · next entry hget => exact hsweep key entry hget
  · rfl

theorem Faithful.release (hf : cache.Faithful) : (cache.release now key).Faithful := by
  unfold NameCache.release
  split
  · exact hf
  · split
    · exact hf
    · next entry hget =>
      split
      · exact hf.of_get? fun _ _ h => get?_of_erase h
      · exact hf.insert rfl (hf key entry hget)
  · refine Faithful.sweep ?_ now
    split
    · exact hf
    · next entry hget =>
      split
      · exact hf.insert rfl (hf key entry hget)
      · exact hf.insert rfl (hf key entry hget)

theorem clear_faithful : cache.clear.Faithful := nofun

end NameCache
end RowStore
