/-
# Stored values

A cell is what a row or a record holds in one field: a 64-bit word or a byte string. A cell has
an image in bytes, at the declared width for an integer field, and an image reads back as a cell
of the declared type. The two directions are each other's inverse up to that width.

Key definitions: `Cell`, `Cell.encode`, `Cell.decode?`, `Cell.unset`.
-/
import RowStore.Data.Bytes
import RowStore.Data.Field

namespace RowStore

/-- A stored value. Which of the two a field holds follows its type, but for the fields that a
scan is seeded through. -/
inductive Cell where
  | word (w : UInt64)
  | bytes (b : Bytes)
  deriving DecidableEq, Repr, Inhabited

namespace Cell

/-- The value of a field that was never set. -/
def unset : FieldType → Cell
  | .string => .bytes []
  | .int .. => .word 0

/-- The image of a cell in a field of the given type. A byte string is its own image; a word
without a declared width takes eight bytes. -/
def encode (type : FieldType) : Cell → Bytes
  | .bytes b => b
  | .word w => Bytes.ofWord (type.width?.getD 8) w

/-- The cell an image stands for. An integer field refuses images of more than eight bytes, and
cuts the others to its width. -/
def decode? (type : FieldType) (image : Bytes) : Option Cell :=
  match type with
  | .string => some (.bytes image)
  | .int .. => image.word?.map fun w => .word (type.truncate w)

end Cell
end RowStore
