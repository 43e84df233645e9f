/-
# Shared names

A name in the form the engine takes: its text up to the first NUL. Every time a name is made it is
a new allocation, numbered; handing it on shares the allocation. Two names are equal if their
texts are, whatever their allocations.

Key definitions: `SharedName`, `SharedName.make`, `SharedName.holders`.
-/
import RowStore.Data.Bytes

namespace RowStore

/-- A name and the number of its allocation. -/
structure SharedName where
  text : String
  allocation : Nat
  deriving DecidableEq, Repr, Inhabited

namespace SharedName

/-- The part of a text before its first NUL. -/
def beforeNul (text : String) : String :=
  String.ofList (text.toList.takeWhile (· != '\x00'))

/-- A name of a text in the given allocation. -/
def make (allocation : Nat) (text : String) : SharedName := ⟨beforeNul text, allocation⟩

/-- The bytes of a name. -/
def bytes (name : SharedName) : Bytes := Bytes.ofText name.text

/-- The bytes of a name and the NUL that ends it. -/
def bytesWithNul (name : SharedName) : Bytes := name.bytes ++ [0]

/-- Whether two names spell the same. -/
def sameText (a b : SharedName) : Bool := a.text == b.text

/-- Whether two names share their allocation. -/
def shares (a b : SharedName) : Bool := a.allocation == b.allocation

/-- How many of the names alive share the allocation of `name`. -/
def holders (alive : List SharedName) (name : SharedName) : Nat := alive.countP name.shares

end SharedName
end RowStore
