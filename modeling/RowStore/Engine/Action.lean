/-
# Calls of the engine

Every call of the engine as a value, and what carrying it out answers. The kind of the answer is
part of the type of a call, so a client that makes a call reads its answer without a case for
answers of another kind. A state is reachable if some run of calls leads to it from the engine
without objects, whatever merge functions are installed.

Key definitions: `Engine.Action`, `Engine.step`, `Engine.Call`, `Engine.Reachable`.
-/
import RowStore.Engine.Fetch
import RowStore.Engine.Fields
import RowStore.Engine.Point

namespace RowStore.Engine

/-- The kinds of answers: success or failure, a handle, bytes or a word that may be missing, and
the status of a commit. -/
inductive AnswerKind where
  | flag
  | handle
  | bytes
  | word
  | status
  deriving DecidableEq, Repr, Inhabited

namespace AnswerKind

/-- The answers of a kind. -/
abbrev Answer : AnswerKind → Type
  | .flag => Bool
  | .handle => Option Handle
  | .bytes => Option Bytes
  | .word => Option UInt64
  | .status => Int

/-- The answer of a call that fails without reaching the engine; a commit answers with `code`. -/
def failed (code : Int) : (kind : AnswerKind) → kind.Answer
  | .flag => false
  | .handle => none
  | .bytes => none
  | .word => none
  | .status => code

end AnswerKind

/-- A call, by the kind of its answer. -/
inductive Action : AnswerKind → Type where
  | newEnvironment : Action .handle
  | setBytes (h : Handle) (name : String) (bytes : Bytes) : Action .flag
  | setWord (h : Handle) (name : String) (w : UInt64) : Action .flag
  | getBytes (h : Handle) (name : String) : Action .bytes
  | getWord (h : Handle) (name : String) : Action .word
  | resolve (h : Handle) (path : String) : Action .handle
  | declare (env : Handle) (name : String) (fields : List Field) : Action .flag
  | installHook (db : Handle) (hook : Hook) : Action .flag
  | openEnvironment (env : Handle) : Action .flag
  | destroy (h : Handle) : Action .flag
  | newRow (db : Handle) : Action .handle
  | put (store row : Handle) : Action .flag
  | upsert (store row : Handle) : Action .flag
  | delete (store row : Handle) : Action .flag
  | lookup (store row : Handle) : Action .handle
  | newCursor (env : Handle) : Action .handle
  | fetchNext (cursor row : Handle) : Action .handle
  | begin (env : Handle) : Action .handle
  | commit (tx : Handle) : Action .status

/-- A call of any kind. -/
abbrev Call := (kind : AnswerKind) × Action kind

/-- The primitives that are called. -/
inductive Primitive where
  | newEnvironment
  | setBytes
  | setWord
  | getBytes
  | getWord
  | resolve
  | declare
  | installHook
  | openEnvironment
  | destroy
  | newRow
  | put
  | upsert
  | delete
  | lookup
  | newCursor
  | fetchNext
  | begin
  | commit
  deriving DecidableEq, Repr, Inhabited

/-- The primitive of a call. -/
def Action.primitive : Action kind → Primitive
  | .newEnvironment => .newEnvironment
  | .setBytes .. => .setBytes
  | .setWord .. => .setWord
  | .getBytes .. => .getBytes
  | .getWord .. => .getWord
  | .resolve .. => .resolve
  | .declare .. => .declare
  | .installHook .. => .installHook
  | .openEnvironment .. => .openEnvironment
  | .destroy .. => .destroy
  | .newRow .. => .newRow
  | .put .. => .put
  | .upsert .. => .upsert
  | .delete .. => .delete
  | .lookup .. => .lookup
  | .newCursor .. => .newCursor
  | .fetchNext .. => .fetchNext
  | .begin .. => .begin
  | .commit .. => .commit

/-- Carries out a call. -/
def step (functions : Hook → MergeFn) (engine : Engine) :
    Action kind → kind.Answer × Engine
  | .newEnvironment => engine.newEnvironment
  | .setBytes h name bytes => engine.setBytes h name bytes
  | .setWord h name w => engine.setWord h name w
  | .getBytes h name => engine.getBytes h name
  | .getWord h name => engine.getWord h name
  | .resolve h path => engine.resolve h path
  | .declare env name fields => engine.declare env name fields
  | .installHook db hook => engine.installHook db hook
  | .openEnvironment env => engine.openEnvironment env
  | .destroy h => engine.destroy h
  | .newRow db => engine.newRow db
  | .put store row => engine.put store row
  | .upsert store row => engine.upsert functions store row
  | .delete store row => engine.delete store row
  | .lookup store row => engine.lookup store row
  | .newCursor env => engine.newCursor env
  | .fetchNext cursor row => engine.fetchNext cursor row
  | .begin env => engine.begin env
  | .commit tx => engine.commit tx

/-- The states that runs of calls lead to. The merge functions may be others at every call. -/
inductive Reachable : Engine → Prop where
  | start : Reachable {}
  | step {engine : Engine} (functions : Hook → MergeFn) {kind : AnswerKind}
    (action : Action kind) : Reachable engine → Reachable (engine.step functions action).2

end RowStore.Engine
