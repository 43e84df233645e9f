/-
# The successor of a byte string

A scan by prefix is a scan of a half-open range: the byte strings that start with some bytes are
those from the bytes on and below their successor, or all from the bytes on when there is no
successor. The successor drops the run of `0xFF` at the end and raises the byte before it by one.
It is missing only where there is no such byte, and no lower string is above every extension.

Key theorems: `Bytes.successor?_eq_some_iff`, `Bytes.isPrefix_iff_between`,
`Bytes.successor?_le`.
-/
import RowStore.Proofs.Data.Keys

namespace RowStore
namespace Bytes

/-! ### The order of byte strings -/

/-- Byte strings compare by their first differing byte, the shorter one first. -/
theorem compare_eq_lt_iff : ∀ {a b : Bytes}, compare a b = .lt ↔ a < b
  | [], [] => by simp
  | [], _ :: _ => by simp
  | _ :: _, [] => by simp
  | x :: a, y :: b => by
    rw [compare_cons, Ordering.then_eq_lt, Std.compare_eq_lt, Std.LawfulEqOrd.compare_eq_iff_eq,
      compare_eq_lt_iff, List.cons_lt_cons_iff]

theorem compare_ne_lt_iff_le {a b : Bytes} : compare a b ≠ .lt ↔ b ≤ a := by
  rw [ne_eq, compare_eq_lt_iff, List.not_lt]

/-! ### What the successor is -/

/-- The successor carries over a run of `0xFF` into the byte before it. -/
theorem successor?_carry (front : Bytes) {b : UInt8} (hb : b ≠ 0xFF) (run : Nat) :
    successor? (front ++ b :: List.replicate run 0xFF) = some (front ++ [b + 1]) := by
  have hrun : successor? (List.replicate run 0xFF) = none := by
    rw [successor?_eq_none_iff]
    exact fun c hc => List.eq_of_mem_replicate hc
  induction front with
  | nil => simp [successor?, hrun, hb]
  | cons c front ih => simp [successor?, ih]

/-- A byte string that has a byte other than `0xFF` ends in such a byte and a run of `0xFF`. -/
theorem exists_carry {bytes : Bytes} (h : ¬∀ b ∈ bytes, b = 0xFF) :
    ∃ front b run, b ≠ 0xFF ∧ bytes = front ++ b :: List.replicate run 0xFF := by
  induction bytes with
  | nil => simp at h
  | cons c rest ih =>
    by_cases hrest : ∀ b ∈ rest, b = 0xFF
    · have hc : c ≠ 0xFF := by
        rintro rfl
        exact h (List.forall_mem_cons.2 ⟨rfl, hrest⟩)
      exact ⟨[], c, rest.length, hc, by simp [← List.eq_replicate_iff.2 ⟨rfl, hrest⟩]⟩
    · obtain ⟨front, b, run, hb, rfl⟩ := ih hrest
      exact ⟨c :: front, b, run, hb, rfl⟩

theorem successor?_eq_some_iff {bytes next : Bytes} : bytes.successor? = some next ↔
    ∃ front b run, b ≠ 0xFF ∧ bytes = front ++ b :: List.replicate run 0xFF ∧
      next = front ++ [b + 1] := by
  constructor
  · intro h
    have hmissed : ¬∀ b ∈ bytes, b = 0xFF := by
      rw [← successor?_eq_none_iff, h]
      exact Option.some_ne_none next
    obtain ⟨front, b, run, hb, rfl⟩ := exists_carry hmissed
    rw [successor?_carry front hb run, Option.some_inj] at h
    exact ⟨front, b, run, hb, rfl, h.symm⟩
  · rintro ⟨front, b, run, hb, rfl, rfl⟩
    exact successor?_carry front hb run

/-! ### What lies below it -/

theorem isPrefix_iff {bytes key : Bytes} : bytes <+: key ↔
    bytes ≤ key ∧ ∀ next, bytes.successor? = some next → key < next := by
  rw [← List.isPrefixOf_iff_prefix, isPrefixOf_iff, compare_ne_lt_iff_le]
  simp only [compare_eq_lt_iff]

/-- Nothing below the successor is above every extension. -/
theorem successor?_le {bytes next bound : Bytes} (h : bytes.successor? = some next)
    (hbound : ∀ key, bytes <+: key → key < bound) : next ≤ bound := by
  rw [← List.not_lt]
  intro hlt
  have hle : bytes ≤ bound := List.le_of_lt (hbound bytes List.prefix_rfl)
  have hext : bytes <+: bound := by
    refine isPrefix_iff.2 ⟨hle, fun other hother => ?_⟩
    obtain rfl : next = other := Option.some.inj (h.symm.trans hother)
    exact hlt
  exact List.lt_irrefl bound (hbound bound hext)

/-- **The successor delimits the extensions.** A byte string starts with some bytes exactly if it
is not below them and is below their successor, where there is one. There is none exactly for the
empty string and the runs of `0xFF`. -/
theorem isPrefix_iff_between (bytes key : Bytes) :
    (bytes <+: key ↔ bytes ≤ key ∧
      (bytes.successor? = none ∨ ∃ next, bytes.successor? = some next ∧ key < next)) ∧
    (bytes.successor? = none ↔ bytes = [] ∨ ∀ b ∈ bytes, b = 0xFF) := by
  constructor
  · rw [isPrefix_iff]
    cases bytes.successor? with
    | none => simp
    | some next => simp
  · rw [successor?_eq_none_iff]
    constructor
    · exact Or.inr
    · rintro (rfl | h)
      · simp
      · exact h

end Bytes
end RowStore
