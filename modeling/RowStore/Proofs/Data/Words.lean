/-
# Words as numbers

A word read as signed is the same number without its sign bit, and 2 ^ 64 less with it. A signed
number stands in a word as itself, or 2 ^ 64 above itself if it is negative. Comparisons of words
are those of the numbers. The image of a word holds its low bytes, so a cell that fits its field
reads back from its image. A sum that wraps at 64 bits and is cut to a width is the sum modulo the size
of the width, wherever it was cut on the way.

Key theorems: `toInt_toInt64`, `toNat_toUInt64`, `compare_int64`, `compare_uint64_toNat`,
`Cell.decode?_encode`, `FieldType.toNat_truncate_sum`.
-/
import RowStore.Proofs.Engine.Fit

namespace RowStore

theorem toInt_toInt64 (w : UInt64) :
    w.toInt64.toInt = if w.toNat < 2 ^ 63 then (w.toNat : Int) else w.toNat - 2 ^ 64 := by
  have h : w.toInt64.toInt = w.toBitVec.toInt := rfl
  rw [h, BitVec.toInt_eq_toNat_cond]
  have hw : w.toBitVec.toNat = w.toNat := rfl
  rw [hw]
  split <;> split <;> omega

theorem toNat_toUInt64 (i : Int64) :
    (i.toUInt64.toNat : Int) = if 0 ≤ i.toInt then i.toInt else i.toInt + 2 ^ 64 := by
  have h := toInt_toInt64 i.toUInt64
  have hi : i.toUInt64.toInt64 = i := rfl
  have hlt : i.toUInt64.toNat < 2 ^ 64 := i.toUInt64.toNat_lt
  rw [hi] at h
  split at h <;> split <;> omega

section Compare

open Std (LawfulEqOrd LawfulOrderLT LawfulOrderOrd)

/-- What keeps and reflects the order keeps comparisons. -/
theorem compare_of_lt_iff {α β : Type} [Ord α] [LE α] [LT α] [LawfulOrderOrd α] [LawfulOrderLT α]
    [LawfulEqOrd α] [Ord β] [LE β] [LT β] [LawfulOrderOrd β] [LawfulOrderLT β] [Std.ReflOrd β]
    {f : α → β} (hlt : ∀ a b, a < b ↔ f a < f b) (a b : α) : compare a b = compare (f a) (f b) := by
  cases h : compare a b with
  | lt => exact (Std.compare_eq_lt.2 ((hlt a b).1 (Std.compare_eq_lt.1 h))).symm
  | eq => rw [Std.LawfulEqCmp.eq_of_compare h, Std.compare_self]
  | gt => exact (Std.compare_eq_gt.2 ((hlt b a).1 (Std.compare_eq_gt.1 h))).symm

end Compare

theorem compare_int64 (i j : Int64) : compare i j = compare i.toInt j.toInt :=
  compare_of_lt_iff (fun _ _ => Int64.lt_iff_toInt_lt) i j

theorem compare_uint64_toNat (v w : UInt64) : compare v w = compare v.toNat w.toNat :=
  compare_of_lt_iff (fun _ _ => UInt64.lt_iff_toNat_lt) v w

theorem compare_uint64 (v w : UInt64) : compare v w = compare (v.toNat : Int) w.toNat :=
  (compare_uint64_toNat v w).trans (compare_of_lt_iff (fun _ _ => Int.ofNat_lt.symm) _ _)

/-- Only words of eight bytes have a sign bit. -/
theorem Width.size_le_of_ne_eight {width : Width} (h : width ≠ .eight) : width.size ≤ 2 ^ 63 := by
  cases width with
  | eight => exact absurd rfl h
  | _ => decide

/-- The image of a word stands for the word cut to the width of the image. -/
theorem Bytes.toNat_word_ofWord : ∀ {width : Nat} (w : UInt64), width ≤ 8 →
    (word (ofWord width w)).toNat = w.toNat % 256 ^ width
  | 0, w, _ => (Nat.mod_one _).symm
  | width + 1, w, h => by
    have ih := toNat_word_ofWord (w / 256) (Nat.le_of_succ_le h)
    have hdiv : (w / 256).toNat = w.toNat / 256 := UInt64.toNat_div w 256
    have hbyte : w.toUInt8.toUInt64.toNat = w.toNat % 256 := by simp
    have hw : w.toNat < 2 ^ 64 := w.toNat_lt
    have hle : w.toNat / 256 % 256 ^ width ≤ w.toNat / 256 := Nat.mod_le _ _
    rw [ofWord, word, UInt64.toNat_add, UInt64.toNat_mul, ih, hdiv, hbyte,
      show (256 : UInt64).toNat = 256 from rfl,
      show 256 ^ (width + 1) = 256 * 256 ^ width from pow_succ' 256 width, Nat.mod_mul]
    generalize w.toNat / 256 % 256 ^ width = high at hle ⊢
    omega

/-- The image of a word at a declared width stands for the word cut to the width. -/
theorem Bytes.word?_ofWord (width : Width) (reversed : Bool) (w : UInt64) :
    (ofWord width.bytes w).word? = some ((FieldType.int width reversed).truncate w) := by
  have hwidth : width.bytes ≤ 8 := by cases width <;> decide
  have hsize : (256 : Nat) ^ width.bytes = width.size := by cases width <;> rfl
  have hcut : (ofWord width.bytes w).word = (FieldType.int width reversed).truncate w := by
    apply UInt64.toNat_inj.1
    rw [FieldType.toNat_truncate, toNat_word_ofWord w hwidth, hsize]
  rw [word?, length_ofWord, if_pos hwidth, hcut]

/-- Words with the same low bytes have the same image. -/
theorem Bytes.ofWord_congr : ∀ {width : Nat} {v w : UInt64},
    v.toNat % 256 ^ width = w.toNat % 256 ^ width → ofWord width v = ofWord width w
  | 0, _, _, _ => rfl
  | width + 1, v, w, h => by
    have hv : (v / 256).toNat = v.toNat / 256 := UInt64.toNat_div v 256
    have hw : (w / 256).toNat = w.toNat / 256 := UInt64.toNat_div w 256
    rw [pow_succ', Nat.mod_mul, Nat.mod_mul] at h
    have hlow : v.toNat % 256 = w.toNat % 256 := by omega
    have hhigh : v.toNat / 256 % 256 ^ width = w.toNat / 256 % 256 ^ width := by omega
    have hbyte : v.toUInt8 = w.toUInt8 := UInt8.toNat_inj.1 (by simpa using hlow)
    rw [ofWord, ofWord, hbyte, ofWord_congr (v := v / 256) (w := w / 256) (by rw [hv, hw, hhigh])]

/-- Cutting a word to a width does not change its image there. -/
theorem Cell.encode_truncate (type : FieldType) (w : UInt64) :
    encode type (.word (type.truncate w)) = encode type (.word w) := by
  rcases type with ⟨width, reversed⟩ | _
  · refine Bytes.ofWord_congr ?_
    have hsize : (256 : Nat) ^ width.bytes = width.size := by cases width <;> rfl
    show _ % 256 ^ width.bytes = _ % 256 ^ width.bytes
    rw [hsize, FieldType.toNat_truncate, Nat.mod_mod]
  · rfl

/-- A cell that fits its field is what its image stands for. -/
theorem Cell.decode?_encode {type : FieldType} {cell : Cell} (h : cell.Fits type) :
    Cell.decode? type (cell.encode type) = some cell := by
  rcases type with ⟨width, reversed⟩ | _ <;> rcases cell with w | b
  · show (Bytes.ofWord width.bytes w).word?.map
      (fun w => Cell.word ((FieldType.int width reversed).truncate w)) = some (.word w)
    rw [Bytes.word?_ofWord width reversed, Option.map_some, h.2, h.2]
  · cases h
  · cases h.1
  · rfl

/-! ### Sums -/

/-- A word cut to a width is the same number modulo the size of the width. -/
theorem FieldType.toNat_truncate_modEq (width : Width) (reversed : Bool) (w : UInt64) :
    (((FieldType.int width reversed).truncate w).toNat : Int) ≡ w.toNat [ZMOD width.size] := by
  rw [toNat_truncate, Int.natCast_emod]
  exact Int.mod_modEq _ _

theorem Width.size_dvd (width : Width) : width.size ∣ 2 ^ 64 :=
  pow_dvd_pow 2 (by cases width <;> decide)

/-- It does not matter whether what is added to is cut before. -/
theorem FieldType.truncate_truncate_add (type : FieldType) (v w : UInt64) :
    type.truncate (type.truncate v + w) = type.truncate (v + w) := by
  rcases type with ⟨width, reversed⟩ | _
  · apply UInt64.toNat_inj.1
    rw [toNat_truncate, toNat_truncate, UInt64.toNat_add, UInt64.toNat_add, toNat_truncate,
      Nat.mod_mod_of_dvd _ width.size_dvd, Nat.mod_mod_of_dvd _ width.size_dvd, Nat.mod_add_mod]
  · rfl

/-- A sum of words that wraps, cut to a width, is the sum of the numbers they stand for, modulo the
size of the width. -/
theorem FieldType.toNat_truncate_sum {α : Type} {width : Width} (reversed : Bool) {word : α → UInt64}
    {number : α → Int} : ∀ {l : List α},
      (∀ a ∈ l, ((word a).toNat : Int) ≡ number a [ZMOD width.size]) →
      (((FieldType.int width reversed).truncate (l.map word).sum).toNat : Int) =
        (l.map number).sum % width.size := by
  intro l h
  have hsum : ((l.map word).sum.toNat : Int) ≡ (l.map number).sum [ZMOD width.size] := by
    induction l with
    | nil => rfl
    | cons a l ih =>
      rw [List.forall_mem_cons] at h
      have hdvd : (width.size : Int) ∣ (2 ^ 64 : Nat) := Int.natCast_dvd_natCast.2 width.size_dvd
      rw [List.map_cons, List.map_cons, List.sum_cons, List.sum_cons, UInt64.toNat_add,
        Int.natCast_emod, Int.natCast_add]
      exact ((Int.mod_modEq _ _).of_dvd hdvd).trans (h.1.add (ih h.2))
  rw [toNat_truncate, Int.natCast_emod]
  exact hsum

end RowStore
