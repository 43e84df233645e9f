/-
# The order of byte strings and keys

The byte strings that start with some bytes are those from these bytes up to their successor, which
is not one of them. The lowest parts of the key fields fill a seed up to the least key that the seed
does not lie behind.

Key definitions: `Key.isBefore`.
Key theorems: `Bytes.isPrefixOf_iff`, `Key.compareOn_gt_mono`, `Key.compare_pad`,
`Key.compareOn_lt_mono`.
-/
import RowStore.Proofs.Engine.Fit

namespace RowStore

section Comparisons

variable {α : Type} [Ord α] [Std.TransOrd α] {a b c : α}

theorem compare_ne_gt_trans (h : compare a b ≠ .gt) (h' : compare b c ≠ .gt) :
    compare a c ≠ .gt :=
  Ordering.ne_gt_iff_isLE.2 (Std.TransCmp.isLE_trans (Ordering.ne_gt_iff_isLE.1 h)
    (Ordering.ne_gt_iff_isLE.1 h'))

theorem compare_ne_lt_iff : compare a b ≠ .lt ↔ compare b a ≠ .gt := by
  rw [show compare a b = (compare b a).swap from Std.OrientedCmp.eq_swap]
  cases compare b a <;> simp

end Comparisons

section Lists

variable {α : Type} [Ord α]

theorem compare_cons (a b : α) (as bs : List α) :
    compare (a :: as) (b :: bs) = (compare a b).then (compare as bs) :=
  List.compareLex_cons_cons

theorem compare_nil_cons (b : α) (bs : List α) : compare ([] : List α) (b :: bs) = .lt :=
  List.compareLex_nil_cons

theorem compare_cons_nil (a : α) (as : List α) : compare (a :: as) ([] : List α) = .gt :=
  List.compareLex_cons_nil

theorem compare_nil_ne_gt : ∀ as : List α, compare ([] : List α) as ≠ .gt
  | [] => nofun
  | a :: as => by
    rw [compare_nil_cons]
    nofun

theorem compare_nil_ne_lt : ∀ as : List α, compare as ([] : List α) ≠ .lt
  | [] => nofun
  | a :: as => by
    rw [compare_cons_nil]
    nofun

end Lists

namespace Bytes

/-- A byte that is not `0xFF` and the next one: nothing lies between. -/
theorem compare_succ_eq_lt {b c : UInt8} (hb : b ≠ 0xFF) :
    compare c (b + 1) = .lt ↔ compare c b ≠ .gt := by
  have hne : b.toNat ≠ 255 := fun h => hb (UInt8.toNat_inj.1 h)
  have hlt : b.toNat < 256 := b.toNat_lt
  have hsucc : (b + 1).toNat = b.toNat + 1 := by
    rw [UInt8.toNat_add]
    exact Nat.mod_eq_of_lt (by show b.toNat + 1 < 256; omega)
  rw [Std.compare_eq_lt, UInt8.lt_iff_toNat_lt, hsucc, ne_eq, Std.compare_eq_gt,
    UInt8.lt_iff_toNat_lt]
  omega

/-- The strings that start with the bytes are those from the bytes up to their successor. -/
theorem isPrefixOf_iff {bytes key : Bytes} : bytes.isPrefixOf key = true ↔
    compare key bytes ≠ .lt ∧ ∀ next, bytes.successor? = some next → compare key next = .lt := by
  induction bytes generalizing key with
  | nil => simp [successor?, compare_nil_ne_lt]
  | cons b rest ih =>
    rcases key with _ | ⟨c, key⟩
    · simp [List.isPrefixOf]
    have ih := @ih key
    rw [List.isPrefixOf, Bool.and_eq_true, beq_iff_eq, ih, compare_cons]
    cases hc : compare c b with
    | lt =>
      -- The first byte falls short: the string is below the bytes.
      have hne : b ≠ c := by
        rintro rfl
        rw [Std.compare_self] at hc
        simp at hc
      simp [hne]
    | eq =>
      obtain rfl : c = b := Std.LawfulEqCmp.eq_of_compare hc
      cases hrest : successor? rest with
      | some next => simp [successor?, hrest]
      | none =>
        by_cases hff : c = 0xFF
        · simp [successor?, hrest, hff]
        · have hlt : compare c (c + 1) = .lt := by
            rw [compare_succ_eq_lt hff, hc]
            exact Ordering.noConfusion
          simp [successor?, hrest, hff, hlt]
    | gt =>
      -- The first byte goes past: the string is not below the successor.
      have hne : b ≠ c := by
        rintro rfl
        rw [Std.compare_self] at hc
        simp at hc
      suffices hnext : ∃ next, successor? (b :: rest) = some next ∧
          compare (c :: key) next ≠ .lt by
        obtain ⟨next, hsome, hpast⟩ := hnext
        simp [hne, hsome, hpast]
      cases hrest : successor? rest with
      | some next => exact ⟨b :: next, by simp [successor?, hrest], by simp [hc]⟩
      | none =>
        have hff : b ≠ 0xFF := by
          rintro rfl
          have hlt : c.toNat < 256 := c.toNat_lt
          rw [Std.compare_eq_gt, UInt8.lt_iff_toNat_lt] at hc
          have h255 : (0xFF : UInt8).toNat = 255 := rfl
          omega
        refine ⟨[b + 1], by simp [successor?, hrest, hff], ?_⟩
        rw [compare_cons]
        cases hs : compare c (b + 1) with
        | lt =>
          rw [compare_succ_eq_lt hff] at hs
          exact absurd hc hs
        | eq => exact compare_nil_ne_lt key
        | gt => exact Ordering.noConfusion

/-- What lies between two strings, the upper one starting with the bytes and the lower one not
below them, starts with them. -/
theorem isPrefixOf_of_between {bytes low high : Bytes} (hlow : compare low bytes ≠ .lt)
    (hle : compare low high ≠ .gt) (hhigh : bytes.isPrefixOf high = true) :
    bytes.isPrefixOf low = true := by
  rw [isPrefixOf_iff] at hhigh ⊢
  refine ⟨hlow, fun next hnext => ?_⟩
  have hlt := hhigh.2 next hnext
  exact Std.TransCmp.lt_of_isLE_of_lt (Ordering.ne_gt_iff_isLE.1 hle) hlt

end Bytes

namespace Key

/-- Whether a key lies before a seed, as seen from a scan in the given direction. -/
def isBefore (key : Key) (descending : Bool) (seed : Key) : Bool :=
  key.compareOn seed == if descending then .gt else .lt

/-- Nothing is before an empty seed. -/
@[simp] theorem compareOn_nil : ∀ key : Key, key.compareOn [] = .eq
  | [] => rfl
  | _ :: _ => rfl

theorem compareOn_gt_mono : ∀ {seed a b : Key}, compare a b ≠ .gt → a.compareOn seed = .gt →
    b.compareOn seed = .gt
  | [], a, _, _, h => by
    rw [compareOn_nil] at h
    simp at h
  | _ :: _, [], _, _, h => by cases h
  | _ :: _, x :: a, [], hle, _ => absurd (compare_cons_nil x a) hle
  | s :: seed, x :: a, y :: b, hle, h => by
    rw [compare_cons] at hle
    rw [compareOn] at h ⊢
    cases hxy : compare x y with
    | gt => simp [hxy] at hle
    | eq =>
      obtain rfl : x = y := Std.LawfulEqCmp.eq_of_compare hxy
      rw [hxy] at hle
      cases hxs : compare x s with
      | lt => simp [hxs] at h
      | gt => rfl
      | eq =>
        rw [hxs] at h
        exact compareOn_gt_mono hle h
    | lt =>
      have hys : compare y s = .gt := by
        have hsx : (compare s x).isLE := by
          rw [show compare s x = (compare x s).swap from Std.OrientedCmp.eq_swap]
          cases hxs : compare x s with
          | lt => simp [hxs] at h
          | eq => rfl
          | gt => rfl
        exact Std.OrientedCmp.gt_of_lt (Std.TransCmp.lt_of_isLE_of_lt hsx hxy)
      rw [hys]
      rfl

end Key

/-- Nothing of the kind of a key field sorts below its lowest part. -/
theorem KeyPart.compare_least {type : FieldType} {part : KeyPart} (h : part.OfKind type) :
    compare (KeyPart.least type) part ≠ .gt := by
  rcases type with ⟨width, _ | _⟩ | _ <;> rcases part with w | w | b
  · rw [KeyPart.least, compare_up, ne_eq, Std.compare_eq_gt]
    exact UInt64.not_lt.2 UInt64.zero_le
  · cases h.2
  · cases h
  · cases h.2
  · have hw : w.toNat < 2 ^ 64 := w.toNat_lt
    have hmax : (-1 : UInt64).toNat = 2 ^ 64 - 1 := rfl
    rw [KeyPart.least, compare_down, ne_eq, Std.compare_eq_gt, UInt64.lt_iff_toNat_lt]
    omega
  · cases h
  · cases h.1
  · cases h.1
  · exact compare_nil_ne_gt b

namespace Key

/-- The lowest parts of the remaining fields decide nothing. -/
theorem compare_leasts {types : List FieldType} {key : Key} (h : Key.OfKinds types key) :
    compare (types.map KeyPart.least) key ≠ .gt := by
  induction h with
  | nil => nofun
  | @cons type part types key hpart _ ih =>
    have hpart := KeyPart.compare_least hpart
    rw [List.map_cons, compare_cons]
    cases hc : compare (KeyPart.least type) part with
    | lt => nofun
    | eq => exact ih
    | gt => exact absurd hc hpart

/-- A padded seed is above exactly the keys that lie before the seed. -/
theorem compare_pad : ∀ {types : List FieldType} {seed key : Key}, Key.OfKinds types key →
    seed.length ≤ types.length →
    (compare (Key.pad types seed) key = .gt ↔ key.compareOn seed = .lt)
  | types, [], key, h, _ => by
    rw [compareOn_nil]
    exact iff_of_false (compare_leasts h) nofun
  | type :: types, s :: seed, part :: key, .cons _ h, hle => by
    have ih := compare_pad h (Nat.le_of_succ_le_succ hle)
    have hpad : Key.pad (type :: types) (s :: seed) = s :: Key.pad types seed := rfl
    rw [hpad, compare_cons, compareOn,
      show compare s part = (compare part s).swap from Std.OrientedCmp.eq_swap]
    cases compare part s with
    | lt => simp
    | gt => simp
    | eq => exact ih
  | [], _ :: _, _, _, hle => absurd hle (Nat.not_succ_le_zero _)

/-- What is not above a key that lies before a seed lies before it too. -/
theorem compareOn_lt_mono {types : List FieldType} {seed a b : Key} (ha : Key.OfKinds types a)
    (hb : Key.OfKinds types b) (hlength : seed.length ≤ types.length) (hle : compare a b ≠ .gt)
    (h : b.compareOn seed = .lt) : a.compareOn seed = .lt := by
  rw [← compare_pad ha hlength]
  rw [← compare_pad hb hlength] at h
  by_contra hnot
  exact compare_ne_gt_trans hnot hle h

end Key

end RowStore
