/-
# Fields

A field of a database holds either an integer of one, two, four or eight bytes or a byte string.
An integer field may be reversed: its values then sort from high to low. Integers are kept as
64-bit words and cut to the declared width when they are stored.

Key definitions: `FieldType`, `FieldType.truncate`, `Field`.
-/

namespace RowStore

/-- The width of an integer field. -/
inductive Width where
  | one
  | two
  | four
  | eight
  deriving DecidableEq, Repr, Inhabited

/-- The number of bytes of an integer field. -/
def Width.bytes : Width → Nat
  | .one => 1
  | .two => 2
  | .four => 4
  | .eight => 8

/-- The least word that does not fit. Every word fits eight bytes. -/
def Width.limit? : Width → Option UInt64
  | .one => some 0x100
  | .two => some 0x10000
  | .four => some 0x100000000
  | .eight => none

/-- What a field holds. -/
inductive FieldType where
  /-- An unsigned integer; `reversed` fields sort from high to low. -/
  | int (width : Width) (reversed : Bool)
  /-- A byte string. -/
  | string
  deriving DecidableEq, Repr, Inhabited

namespace FieldType

/-- The name of the type: `u` and the number of bits, and `rev` behind them for a reversed
integer. -/
def name : FieldType → String
  | .int width reversed => s!"u{8 * width.bytes}" ++ if reversed then "rev" else ""
  | .string => "string"

/-- The types there are. -/
def all : List FieldType :=
  ([false, true].flatMap fun reversed =>
    [Width.one, .two, .four, .eight].map fun width => .int width reversed) ++ [.string]

/-- The type of a given name. -/
def ofName? (name : String) : Option FieldType :=
  all.find? (·.name == name)

/-- Whether the field holds byte strings. -/
def isString : FieldType → Bool
  | .string => true
  | .int .. => false

/-- Whether the values sort from high to low. -/
def isReversed : FieldType → Bool
  | .int _ reversed => reversed
  | .string => false

/-- The number of bytes of an integer. -/
def width? : FieldType → Option Nat
  | .int width _ => some width.bytes
  | .string => none

/-- Cuts a word to the declared width. -/
def truncate (type : FieldType) (w : UInt64) : UInt64 :=
  match type with
  | .int width _ =>
    match width.limit? with
    | some limit => w % limit
    | none => w
  | .string => w

end FieldType

/-- The declaration of a field. -/
structure Field where
  name : String
  type : FieldType
  /-- Whether the field is part of the key. -/
  isKey : Bool
  deriving DecidableEq, Repr, Inhabited

end RowStore
