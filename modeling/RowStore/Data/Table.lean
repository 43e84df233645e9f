/-
# Tables

A table is a finite map kept as the list of its entries in increasing key order, no key twice.
The order is part of the type, so a table is determined by what it holds, and reading its entries
from the front is a scan in key order.

Key definitions: `Table`, `Table.get?`, `Table.insert`, `Table.erase`.
Key theorems: `Table.get?_eq_some_iff`, `Table.get?_insert`, `Table.get?_erase`.
-/

namespace RowStore

universe u v

/-- A finite map from `κ` to `α`: its entries in strictly increasing key order. -/
structure Table (κ : Type u) (α : Type v) [Ord κ] where
  entries : List (κ × α)
  sorted : entries.Pairwise fun a b => compare a.1 b.1 = .lt

namespace Table

variable {κ : Type u} {α : Type v} [Ord κ]

/-- The table without entries. -/
def empty : Table κ α := ⟨[], List.Pairwise.nil⟩

instance : EmptyCollection (Table κ α) := ⟨empty⟩

instance : Inhabited (Table κ α) := ⟨empty⟩

/-- What the table holds under `k`. -/
def get? (t : Table κ α) (k : κ) : Option α :=
  (t.entries.find? fun e => compare e.1 k == .eq).map (·.2)

/-- Whether the table holds anything under `k`. -/
def contains (t : Table κ α) (k : κ) : Bool := (t.get? k).isSome

/-- The keys in increasing order. -/
def keys (t : Table κ α) : List κ := t.entries.map (·.1)

/-- The values in key order. -/
def values (t : Table κ α) : List α := t.entries.map (·.2)

/-- The number of entries. -/
def size (t : Table κ α) : Nat := t.entries.length

/-- Keeps the entries that satisfy `p`. -/
def filter (t : Table κ α) (p : κ → α → Bool) : Table κ α :=
  ⟨t.entries.filter fun e => p e.1 e.2, t.sorted.filter _⟩

/-- Removes what is held under `k`. -/
def erase (t : Table κ α) (k : κ) : Table κ α :=
  t.filter fun k' _ => !(compare k' k == .eq)

/-- The entries below `k`, the new one, the entries above `k`. -/
def insert [Std.TransOrd κ] (t : Table κ α) (k : κ) (a : α) : Table κ α where
  entries := (t.entries.filter fun e => compare e.1 k == .lt) ++
    (k, a) :: t.entries.filter fun e => compare k e.1 == .lt
  sorted := by
    rw [List.pairwise_append, List.pairwise_cons]
    refine ⟨t.sorted.filter _, ⟨fun e he => ?_, t.sorted.filter _⟩, fun e he f hf => ?_⟩
    · simpa using (List.mem_filter.1 he).2
    · have hek : compare e.1 k = .lt := by simpa using (List.mem_filter.1 he).2
      rcases List.mem_cons.1 hf with rfl | hf
      · exact hek
      · exact Std.TransCmp.lt_trans hek (by simpa using (List.mem_filter.1 hf).2)

/-- The table with the given entries, a later one replacing an earlier one of the same key. -/
def ofList [Std.TransOrd κ] (entries : List (κ × α)) : Table κ α :=
  entries.foldl (fun t e => t.insert e.1 e.2) empty

@[simp] theorem get?_empty (k : κ) : (empty : Table κ α).get? k = none := rfl

section Lookup

variable [Std.LawfulEqOrd κ]

/-- Looking up is membership of the entry: no key occurs twice. -/
theorem get?_eq_some_iff {t : Table κ α} {k : κ} {a : α} :
    t.get? k = some a ↔ (k, a) ∈ t.entries := by
  obtain ⟨entries, sorted⟩ := t
  simp only [get?]
  induction entries with
  | nil => simp
  | cons e rest ih =>
    rw [List.pairwise_cons] at sorted
    by_cases hk : compare e.1 k = .eq
    · have : e.1 = k := Std.LawfulEqCmp.eq_of_compare hk
      subst this
      simp only [List.find?_cons, Std.ReflCmp.compare_self, beq_self_eq_true, Option.map_some,
        Option.some.injEq, List.mem_cons]
      constructor
      · rintro rfl
        exact Or.inl rfl
      · rintro (h | h)
        · rw [← h]
        · have := sorted.1 _ h
          simp [Std.ReflCmp.compare_self] at this
    · have hne : (compare e.1 k == Ordering.eq) = false := by simpa using hk
      simp only [List.find?_cons, hne, List.mem_cons]
      rw [ih sorted.2]
      constructor
      · exact Or.inr
      · rintro (h | h)
        · rw [← h] at hk
          simp [Std.ReflCmp.compare_self] at hk
        · exact h

/-- Nothing is found exactly under the keys that no entry has. -/
theorem get?_eq_none_iff {t : Table κ α} {k : κ} :
    t.get? k = none ↔ ∀ a, (k, a) ∉ t.entries := by
  rw [Option.eq_none_iff_forall_ne_some]
  exact forall_congr' fun a => not_congr get?_eq_some_iff

/-- An erasure removes the entry of its own key only. -/
theorem mem_entries_erase {t : Table κ α} {k k' : κ} {a : α} :
    (k', a) ∈ (t.erase k).entries ↔ k' ≠ k ∧ (k', a) ∈ t.entries := by
  simp [erase, filter, and_comm, Std.LawfulEqCmp.compare_eq_iff_eq]

/-- An insertion replaces the entry of its own key only. -/
theorem mem_entries_insert [Std.TransOrd κ] {t : Table κ α} {k k' : κ} {a b : α} :
    (k', b) ∈ (t.insert k a).entries ↔ (k' = k ∧ b = a) ∨ (k' ≠ k ∧ (k', b) ∈ t.entries) := by
  simp only [insert, List.mem_append, List.mem_cons, List.mem_filter, Prod.mk.injEq, beq_iff_eq]
  constructor
  · rintro (⟨h, hlt⟩ | h | ⟨h, hlt⟩)
    · exact Or.inr ⟨fun e => by simp [e, Std.ReflCmp.compare_self] at hlt, h⟩
    · exact Or.inl h
    · exact Or.inr ⟨fun e => by simp [e, Std.ReflCmp.compare_self] at hlt, h⟩
  · rintro (h | ⟨hne, h⟩)
    · exact Or.inr (Or.inl h)
    · cases hc : compare k' k with
      | lt => exact Or.inl ⟨h, rfl⟩
      | eq => exact absurd (Std.LawfulEqCmp.eq_of_compare hc) hne
      | gt => exact Or.inr (Or.inr ⟨h, Std.OrientedCmp.lt_of_gt hc⟩)

/-- An insertion is seen under its own key only. -/
theorem get?_insert [Std.TransOrd κ] [DecidableEq κ] (t : Table κ α) (k k' : κ) (a : α) :
    (t.insert k a).get? k' = if k' = k then some a else t.get? k' := by
  apply Option.ext
  intro b
  rw [get?_eq_some_iff, mem_entries_insert]
  by_cases h : k' = k
  · simp [h, eq_comm]
  · simp only [h, false_and, false_or, ne_eq, not_false_eq_true, true_and, if_false]
    exact get?_eq_some_iff.symm

/-- An erasure is seen under its own key only. -/
theorem get?_erase [DecidableEq κ] (t : Table κ α) (k k' : κ) :
    (t.erase k).get? k' = if k' = k then none else t.get? k' := by
  apply Option.ext
  intro b
  rw [get?_eq_some_iff, mem_entries_erase]
  by_cases h : k' = k
  · simp [h]
  · simp only [h, ne_eq, not_false_eq_true, true_and, if_false]
    exact get?_eq_some_iff.symm

end Lookup

end Table
end RowStore
