/-
# Refusals of the engine

Why a primitive of the engine refuses. A refusal is not handed to the caller: the primitive
answers with nothing, and the text of the refusal stays behind as the diagnostic.

Key definitions: `Handle`, `Refusal`, `Refusal.message`.
-/
import RowStore.Data.Field

namespace RowStore

/-- The number of an object of the engine. Numbers start at 1 and are not used twice. They are
unbounded: in a counter of 64 bits the objects made would have to be fewer than `2 ^ 64 - 1`. -/
abbrev Handle := Nat

namespace Handle

/-- The handle of a number; 0 is none. -/
def ofNat? (raw : Nat) : Option Handle := if raw = 0 then none else some raw

/-- The text of a handle, its number in hexadecimal. -/
def text (h : Handle) : String := "obj:0x" ++ String.ofList (Nat.toDigits 16 h)

/-- The text of a handle in a summary, its number in decimal. -/
def summary (h : Handle) : String := s!"ObjectHandle({h})"

end Handle

/-- Why a primitive refuses. -/
inductive Refusal where
  /-- No live object has the handle. -/
  | unknownHandle (handle : Handle)
  /-- The object is not of the kind the primitive works on. -/
  | wrongObject (handle : Handle) (expected : String)
  | notOpened
  | alreadyOpened
  | invalidName (name : String)
  | duplicateDatabase (name : String)
  | noKeyFields (name : String)
  | unknownField (database field : String)
  /-- The value does not fit the type of the field. -/
  | typeMismatch (field : String) (expected : FieldType)
  | missingKey (field : String)
  | noMergeFunction (database : String)
  /-- The merge function rejected the merge. -/
  | mergeRejected (message : String)
  | invalidOrder (order : String)
  /-- Only string keys can be scanned by the bytes they start with. -/
  | prefixOnNonString (database : String)
  /-- The object goes away with its environment only. -/
  | notDestroyable (what : String)
  deriving DecidableEq, Repr, Inhabited

/-- The text of a refusal. -/
def Refusal.message : Refusal → String
  | .unknownHandle handle => s!"unknown object handle {handle}"
  | .wrongObject handle expected => s!"object {handle} is not {expected}"
  | .notOpened => "environment is not opened"
  | .alreadyOpened => "environment is already opened"
  | .invalidName name => s!"invalid database name '{name}'"
  | .duplicateDatabase name => s!"database '{name}' is already declared"
  | .noKeyFields name => s!"database '{name}' declares no key fields"
  | .unknownField database field => s!"unknown field '{field}' in database '{database}'"
  | .typeMismatch field expected => s!"field '{field}' expects a {expected.name} value"
  | .missingKey field => s!"key field '{field}' is not set"
  | .noMergeFunction database => s!"upsert callback is not set for database '{database}'"
  | .mergeRejected message => s!"upsert callback failed: {message}"
  | .invalidOrder order => s!"invalid cursor order '{order}'"
  | .prefixOnNonString database =>
    s!"prefix scans need a string leading key in database '{database}'"
  | .notDestroyable what => s!"{what} objects are owned by their environment"

end RowStore
