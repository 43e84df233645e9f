/-
# Keys

A record is stored under its key: one part per key field, in the order of declaration. Keys are
compared part by part, words by value, the words of reversed fields by value from high to low,
and byte strings bytewise. A seed, the first few parts of a key, is compared with a key on the
parts that it has.

Key definitions: `KeyPart`, `Key`, `Key.compareOn`, `Key.pad`.
-/
import RowStore.Data.Cell

namespace RowStore

/-- One part of a key. -/
inductive KeyPart where
  | up (w : UInt64)
  | down (w : UInt64)
  | bytes (b : Bytes)
  deriving DecidableEq, Repr, Inhabited

namespace KeyPart

/-- Words by value, reversed words from high to low, byte strings bytewise. The parts of one key
field are all of one kind; of different kinds, words come first and byte strings last. -/
protected def compare : KeyPart → KeyPart → Ordering
  | .up a, .up b => compare a b
  | .down a, .down b => compare b a
  | .bytes a, .bytes b => compare a b
  | .up _, _ => .lt
  | _, .up _ => .gt
  | .down _, .bytes _ => .lt
  | .bytes _, .down _ => .gt

instance : Ord KeyPart := ⟨KeyPart.compare⟩

@[simp] theorem compare_up (a b : UInt64) : compare (up a) (up b) = compare a b := rfl

@[simp] theorem compare_down (a b : UInt64) : compare (down a) (down b) = compare b a := rfl

@[simp] theorem compare_bytes (a b : Bytes) : compare (bytes a) (bytes b) = compare a b := rfl

instance : Std.TransOrd KeyPart where
  eq_swap := by
    rintro (a | a | a) (b | b | b) <;> first
      | rfl
      | simp only [compare_up, compare_down, compare_bytes]; exact Std.OrientedCmp.eq_swap
  isLE_trans := by
    rintro (a | a | a) (b | b | b) (c | c | c) h₁ h₂ <;> first
      | rfl
      | exact absurd h₁ Bool.false_ne_true
      | exact absurd h₂ Bool.false_ne_true
      | simp only [compare_up, compare_down, compare_bytes] at h₁ h₂ ⊢
        first
          | exact Std.TransCmp.isLE_trans h₁ h₂
          | exact Std.TransCmp.isLE_trans h₂ h₁

instance : Std.LawfulEqOrd KeyPart where
  compare_self := by
    rintro (a | a | a) <;> simp only [compare_up, compare_down, compare_bytes] <;>
      exact Std.ReflCmp.compare_self
  eq_of_compare := by
    rintro (a | a | a) (b | b | b) h <;> first
      | exact absurd h (by rintro ⟨⟩)
      | simp only [compare_up, compare_down, compare_bytes] at h
        have := Std.LawfulEqCmp.eq_of_compare h
        rw [this]

/-- The part a cell makes in a key field, if it is of the field's kind. -/
def ofCell? : FieldType → Cell → Option KeyPart
  | .string, .bytes b => some (.bytes b)
  | .int _ false, .word w => some (.up w)
  | .int _ true, .word w => some (.down w)
  | _, _ => none

/-- The lowest part of a key field: nothing sorts below it. -/
def least : FieldType → KeyPart
  | .string => .bytes []
  | .int _ false => .up 0
  | .int _ true => .down (-1)

/-- The bytes of a string part. -/
def bytes? : KeyPart → Option Bytes
  | .bytes b => some b
  | _ => none

end KeyPart

/-- A key: one part per key field, the leading field first. -/
abbrev Key := List KeyPart

namespace Key

/-- Compares a key with a seed on the parts that both have. -/
def compareOn : Key → Key → Ordering
  | a :: key, b :: seed => (compare a b).then (compareOn key seed)
  | _, _ => .eq

/-- Fills a seed up to a whole key with the lowest parts of the remaining key fields. -/
def pad (types : List FieldType) (seed : Key) : Key :=
  seed ++ (types.drop seed.length).map KeyPart.least

/-- The bytes of the leading part, if it is a string. -/
def leadingBytes (key : Key) : Bytes :=
  (key.head?.bind KeyPart.bytes?).getD []

end Key
end RowStore
