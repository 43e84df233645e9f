/-
# Values

The values that programs pass in and get back: signed integers, unsigned integers and byte
strings. Signed and unsigned integers stay apart, so that a range is compared with the signedness
its bounds were given in; an integer crosses to the other kind only where it keeps its value.

Key definitions: `Value`, `Value.kind`, `Value.asInt?`, `Value.asUInt?`, `Value.text`.
-/
import RowStore.Text.Lossy
import RowStore.Text.Quoted

namespace RowStore

/-- The kinds of values. -/
inductive ValueKind where
  | int
  | uint
  | str
  deriving DecidableEq, Repr, Inhabited

namespace ValueKind

/-- Whether values of the kind are integers. -/
def isInteger : ValueKind → Bool
  | .int => true
  | .uint => true
  | .str => false

/-- The name of the kind. -/
def text : ValueKind → String
  | .int => "signed integer"
  | .uint => "unsigned integer"
  | .str => "string"

end ValueKind

/-- A value. -/
inductive Value where
  | int (v : Int64)
  | uint (v : UInt64)
  | str (b : Bytes)
  deriving DecidableEq, Inhabited

namespace Value

/-- The kind of a value. -/
def kind : Value → ValueKind
  | .int _ => .int
  | .uint _ => .uint
  | .str _ => .str

/-- The greatest signed value. -/
def greatestInt : Nat := 0x7FFFFFFFFFFFFFFF

/-- The value as a signed integer, if it is an integer that fits. -/
def asInt? : Value → Option Int64
  | .int v => some v
  | .uint v => if v.toNat ≤ greatestInt then some v.toInt64 else none
  | .str _ => none

/-- The value as an unsigned integer, if it is an integer that is not negative. -/
def asUInt? : Value → Option UInt64
  | .int v => if 0 ≤ v then some v.toUInt64 else none
  | .uint v => some v
  | .str _ => none

/-- The bytes of a string. -/
def asBytes? : Value → Option Bytes
  | .str b => some b
  | _ => none

/-- The text of a value: an integer in decimal, a string in quotes. -/
def text : Value → String
  | .int v => toString v.toInt
  | .uint v => toString v.toNat
  | .str b => Text.quoted (Text.ofBytes b)

end Value
end RowStore
