/-
# Tables as lookups

A table is told by what is found in it: two tables with the same lookups have the same entries. So an
insertion of what is already there, and an erasure of what is not, change nothing. An entry that is
inserted stands beside those under the other keys.

Key theorems: `Table.ext_get?`, `Table.perm_insert`, `Table.perm_of_get?`.
-/
import Mathlib.Data.List.Perm.Basic
import RowStore.Data.Table

namespace RowStore.Table

variable {κ : Type} {α : Type} [Ord κ] [Std.TransOrd κ] [Std.LawfulEqOrd κ] {t t' : Table κ α}

omit [Std.TransOrd κ] in
theorem nodup_entries (t : Table κ α) : t.entries.Nodup :=
  t.sorted.imp fun {a b} hlt heq => by
    subst heq
    simp [Std.ReflCmp.compare_self] at hlt

omit [Std.TransOrd κ] [Std.LawfulEqOrd κ] in
theorem nodup_keys [Std.ReflOrd κ] (t : Table κ α) : t.keys.Nodup :=
  List.pairwise_map.2 (t.sorted.imp fun {a b} hlt heq => by
    simp [heq, Std.ReflCmp.compare_self] at hlt)

omit [Std.TransOrd κ] in
theorem mem_keys {k : κ} : k ∈ t.keys ↔ ∃ a, t.get? k = some a := by
  simp [keys, get?_eq_some_iff]

omit [Std.TransOrd κ] in
/-- The key of an entry is not found again behind it. -/
theorem notMem_of_entries_eq {before rest : List (κ × α)} {e : κ × α}
    (h : t.entries = before ++ e :: rest) : e.1 ∉ rest.map Prod.fst := by
  have hsorted := t.sorted
  rw [h, List.pairwise_append, List.pairwise_cons] at hsorted
  intro hmem
  obtain ⟨e', he', heq⟩ := List.mem_map.1 hmem
  have hlt := hsorted.2.1.1 e' he'
  simp [heq, Std.ReflCmp.compare_self] at hlt

/-- Tables with the same lookups are the same. -/
theorem ext_get? (h : ∀ k, t.get? k = t'.get? k) : t = t' := by
  have hmem : ∀ e, e ∈ t.entries ↔ e ∈ t'.entries := fun e => by
    rw [← get?_eq_some_iff, ← get?_eq_some_iff, h]
  have hperm : t.entries.Perm t'.entries :=
    (List.perm_ext_iff_of_nodup t.nodup_entries t'.nodup_entries).2 hmem
  obtain ⟨entries, hsorted⟩ := t
  obtain ⟨entries', hsorted'⟩ := t'
  have hentries : entries = entries' := hperm.eq_of_pairwise
    (fun a b _ _ hab hba => by simp [Std.OrientedCmp.gt_of_lt hab] at hba) hsorted hsorted'
  cases hentries
  rfl

/-- An entry that is inserted stands beside those under the other keys. -/
theorem perm_insert (t : Table κ α) (k : κ) (a : α) :
    (t.insert k a).entries.Perm ((k, a) :: (t.erase k).entries) := by
  refine (List.perm_ext_iff_of_nodup (nodup_entries _) ?_).2 fun e => ?_
  · rw [List.nodup_cons]
    exact ⟨fun hm => (mem_entries_erase.1 hm).1 rfl, nodup_entries _⟩
  · obtain ⟨k', b⟩ := e
    rw [mem_entries_insert, List.mem_cons, mem_entries_erase, Prod.mk.injEq]

omit [Std.TransOrd κ] in
/-- An entry that is found stands beside those under the other keys. -/
theorem perm_of_get? {k : κ} {a : α} (h : t.get? k = some a) :
    t.entries.Perm ((k, a) :: (t.erase k).entries) := by
  refine (List.perm_ext_iff_of_nodup (nodup_entries _) ?_).2 fun e => ?_
  · rw [List.nodup_cons]
    exact ⟨fun hm => (mem_entries_erase.1 hm).1 rfl, nodup_entries _⟩
  · obtain ⟨k', b⟩ := e
    rw [List.mem_cons, mem_entries_erase, Prod.mk.injEq]
    constructor
    · intro hm
      by_cases hk : k' = k
      · subst hk
        rw [← get?_eq_some_iff, h, Option.some.injEq] at hm
        exact .inl ⟨rfl, hm.symm⟩
      · exact .inr ⟨hk, hm⟩
    · rintro (⟨rfl, rfl⟩ | ⟨-, hm⟩)
      · exact get?_eq_some_iff.1 h
      · exact hm

end RowStore.Table
