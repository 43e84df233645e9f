/-
# Commands of a session

A session is a client program that keeps what it holds in named slots. A command works on the
slots it names; one that makes something names the slot for it. The answers of the commands are
values of the domain, and a command fails with a failure of the client layer, with criteria that
are rejected, or because a slot is empty or holds something of another kind.

Key definitions: `Session.Command`, `Session.Answer`, `Session.Trouble`.
-/
import RowStore.Client.Environment

namespace RowStore.Session

open Client

/-- The name of a slot. -/
abbrev Slot := String

/-- Fields and the values to set them to. -/
abbrev Assignments := List (String × Value)

/-- A call on the merge functions of an environment. -/
inductive RegistryCall where
  | register (f : MergeFn)
  | unregister (token : Nat)
  | clear
  | look

/-- A command. -/
inductive Command where
  | createEnvironment (into : Slot) (path? : Option String) (policy : CachePolicy)
      (termination : Termination)
  | setSetting (env : Slot) (path : String) (value : Value)
  | getSetting (env : Slot) (path : String)
  | declareDatabase (env into : Slot) (name : String) (fields? : Option (List Field))
      (merge? : Option MergeFn)
  | openEnvironment (env : Slot)
  | closeEnvironment (env : Slot)
  | diagnostic (env : Slot)
  | registry (env : Slot) (call : RegistryCall)
  | cache (env : Slot) (keys : List String)
  | advance (ns : Nat)
  | plan (primitive : Engine.Primitive) (entries : List (Option Int))
  | drop (slot : Slot)
  | summary (slot : Slot)
  | newRow (db into : Slot)
  | setField (row : Slot) (field : String) (value : Value)
  | getField (row : Slot) (field : String) (kind : ValueKind)
  | readField (row : Slot) (field : String)
  | destroyRow (row : Slot)
  | write (row store : Slot) (kind : WriteKind)
  | lookup (key store into : Slot)
  | put (db store : Slot) (fields : Assignments) (kind : WriteKind)
  | find (db store : Slot) (fields : Assignments)
  | openCursor (db into : Slot) (criteria : List Clause)
  | next (cursor : Slot)
  | forEach (cursor : Slot) (field : String)
  | closeCursor (cursor : Slot)
  | cursorState (cursor : Slot)
  | scan (db : Slot) (criteria : List Clause)
  | begin (env into : Slot)
  | commit (tx : Slot)
  | rollback (tx : Slot)

/-- The fields of a row in schema order. -/
abbrev Dump := List (Option Value)

/-- What a command answers. -/
inductive Answer where
  | done
  | flag (b : Bool)
  | number (n : Nat)
  | text (text : String)
  | environment (path? : Option String) (policy : CachePolicy) (termination : Termination)
  | setting (text? : Option String) (number? : Option Int64)
  | database (handle : Handle) (name : String) (merges : Bool) (fields : Nat)
  | diagnostic (text? : Option String) (closed : Bool)
  | registry (answer : Answer) (size : Nat)
  | cache (size : Nat) (refs : List (Option Nat)) (stats : CacheStats)
  | field (value? : Option Value)
  | reading (int? : Option Int64) (uint? : Option UInt64) (bytes? : Option Bytes)
      (text? : Option String)
  | dump (dump : Dump)
  | cursor (order : ScanOrder) (termination : Termination)
  | fetched (row? : Option (Handle × Dump))
  | visited (texts : List (Option String))
  | cursorState (closed : Bool) (order : ScanOrder) (termination : Termination)
  | dumps (dumps : List Dump)
  | committed (status : CommitStatus) (finished : Bool)

/-- Why a command fails. -/
inductive Trouble where
  | failure (failure : Failure)
  | rejected (fault : CriteriaFault)
  /-- The slot is empty, or holds something of another kind. -/
  | noSlot (slot : Slot)
  deriving DecidableEq, Inhabited

/-- What a slot holds. A cursor is kept with the layout of its rows. -/
inductive Holding where
  | environment (env : Environment)
  | database (db : Database)
  | row (row : Row)
  | cursor (cursor : Cursor) (schema : Schema)
  | transaction (tx : Transaction)

/-- Releases what a slot held. -/
def Holding.release : Holding → Client Unit
  | .environment held => held.release
  | .database _ => return
  | .row held => held.release
  | .cursor held _ => held.release
  | .transaction held => held.release

end RowStore.Session
