/-
# Merge functions and their registry

An upsert hands the images of the stored row, if there is one, and of the incoming row to the
merge function of the database, which edits the images to store or rejects the merge. The engine
knows a merge function by a token only. A registry issues the tokens, never one twice, and finds
the function behind one; a token that is not registered, or no longer, rejects every merge.

Key definitions: `MergeReply`, `MergeFn`, `Registry`, `Registry.merge`.
-/
import RowStore.Data.Table
import RowStore.Merge.Images

namespace RowStore

/-- What a merge function noted of one of its runs: the images it was called with, whether each of
its writes met a field, and the images it left. -/
structure MergeRun where
  existing : Option Images
  incoming : Images
  writes : List Bool
  result : Images
  deriving DecidableEq, Repr, Inhabited

/-- How a merge ends. -/
structure MergeReply where
  /-- The images to store. -/
  result : Images
  /-- Why the merge is rejected, if it is. -/
  rejection : Option String
  /-- The notes taken. -/
  journal : List MergeRun
  deriving DecidableEq, Repr, Inhabited

/-- A merge function. It is called with the stored images, the incoming ones and those to edit;
it may change each image but not their number. -/
structure MergeFn where
  run (existing : Option Images) (incoming result : Images) : MergeReply
  length_run : ∀ existing incoming result,
    (run existing incoming result).result.length = result.length

namespace MergeFn

/-- Rejects every merge and edits nothing. -/
def rejecting (message : String) : MergeFn where
  run _ _ result := ⟨result, some message, []⟩
  length_run _ _ _ := rfl

instance : Inhabited MergeFn := ⟨rejecting ""⟩

end MergeFn

/-- Merge functions by token. -/
structure Registry where
  /-- The last token issued. Tokens are unbounded; a counter of 64 bits would come back to 0 after
  `2 ^ 64` registrations. -/
  issued : Nat := 0
  functions : Table Nat MergeFn := {}
  deriving Inhabited

namespace Registry

/-- Registers a function under a fresh token. -/
def register (registry : Registry) (f : MergeFn) : Nat × Registry :=
  (registry.issued + 1,
    { issued := registry.issued + 1
      functions := registry.functions.insert (registry.issued + 1) f })

/-- Whether a token is registered. -/
def contains (registry : Registry) (token : Nat) : Bool := registry.functions.contains token

/-- Removes the function behind a token. -/
def unregister (registry : Registry) (token : Nat) : Registry :=
  { registry with functions := registry.functions.erase token }

/-- Removes every function. The tokens stay used up. -/
def clear (registry : Registry) : Registry := { registry with functions := {} }

/-- The number of registered functions. -/
def size (registry : Registry) : Nat := registry.functions.size

/-- The function behind a token; one that rejects if there is none. -/
def function (registry : Registry) (token : Nat) : MergeFn :=
  (registry.functions.get? token).getD
    (.rejecting s!"no upsert callback registered for token {token}")

/-- Merges through the function behind a token. -/
def merge (registry : Registry) (token : Nat) (existing : Option Images)
    (incoming result : Images) : MergeReply :=
  (registry.function token).run existing incoming result

/-- A one-line summary. -/
def summary (registry : Registry) : String :=
  s!"UpsertRegistry \x7b callbacks: {registry.size} \x7d"

end Registry
end RowStore
