/-
# Field images

The images of a row: one byte string per field, in schema order. An image of at most eight bytes
also reads as a little-endian integer. Writing an integer keeps the width of the image that was
there, at least one byte and at most eight; writing past the last field does nothing.

Key definitions: `Images`, `Images.uint?`, `Images.setBytes`, `Images.setUInt`.
Key theorems: `Images.length_setBytes`, `Images.length_setUInt`.
-/
import RowStore.Data.Bytes

namespace RowStore

/-- One image per field of a row. -/
abbrev Images := List Bytes

namespace Images

/-- The image of field `i`. -/
def bytes? (images : Images) (i : Nat) : Option Bytes := images[i]?

/-- The integer in field `i`. -/
def uint? (images : Images) (i : Nat) : Option UInt64 := (images.bytes? i).bind Bytes.word?

/-- The integer in field `i`, read as signed. -/
def int? (images : Images) (i : Nat) : Option Int64 := (images.uint? i).map UInt64.toInt64

/-- Replaces the image of field `i`. -/
def setBytes (images : Images) (i : Nat) (bytes : Bytes) : Images := images.set i bytes

/-- The image of an integer that replaces `old`. -/
def wordLike (old : Bytes) (w : UInt64) : Bytes :=
  Bytes.ofWord (min 8 (max 1 old.length)) w

/-- Writes an integer to field `i`, cut to the width of the image there. -/
def setUInt (images : Images) (i : Nat) (w : UInt64) : Images :=
  images.modify i (wordLike · w)

@[simp] theorem length_setBytes (images : Images) (i : Nat) (bytes : Bytes) :
    (images.setBytes i bytes).length = images.length := List.length_set

@[simp] theorem length_setUInt (images : Images) (i : Nat) (w : UInt64) :
    (images.setUInt i w).length = images.length := List.length_modify ..

end Images
end RowStore
