/-
# Merge programs

A merge function written as a list of acts, run in order. An act edits one field of the result,
from the stored row, the incoming row or the result so far, or rejects the merge, which ends the
run. Integers wrap at 64 bits. A run is noted, rejected or not, with the outcome of each write.

Key definitions: `MergeAct`, `MergeAct.apply`, `MergeFn.ofActs`.
-/
import RowStore.Merge.Function

namespace RowStore

/-- One step of a merge program; `i` is a field. -/
inductive MergeAct where
  | reject (message : String)
  | rejectFresh (message : String)
  | rejectStored (message : String)
  | requireUInt (i : Nat) (message : String)
  | add (i : Nat)
  | addConst (i : Nat) (n : UInt64)
  | double (i : Nat)
  | setUInt (i : Nat) (n : UInt64)
  | setBytes (i : Nat) (bytes : Bytes)
  | keep (i : Nat)
  | concat (i : Nat)
  deriving DecidableEq, Repr, Inhabited

/-- A run of a merge program so far: the images as edited and the outcome of each write. -/
structure MergeState where
  result : Images
  writes : List Bool := []
  deriving DecidableEq, Repr, Inhabited

namespace MergeState

/-- Writes an image to field `i`. -/
def writeBytes (state : MergeState) (i : Nat) (bytes : Bytes) : MergeState :=
  ⟨state.result.setBytes i bytes, state.writes ++ [decide (i < state.result.length)]⟩

/-- Writes an integer to field `i`. -/
def writeUInt (state : MergeState) (i : Nat) (n : UInt64) : MergeState :=
  ⟨state.result.setUInt i n, state.writes ++ [decide (i < state.result.length)]⟩

end MergeState

namespace MergeAct

/-- Carries out one act, or gives the message it rejects with. -/
def apply (existing : Option Images) (incoming : Images) (state : MergeState) :
    MergeAct → Except String MergeState
  | .reject message => .error message
  | .rejectFresh message => if existing.isNone then .error message else .ok state
  | .rejectStored message => if existing.isSome then .error message else .ok state
  | .requireUInt i message => if (incoming.uint? i).isNone then .error message else .ok state
  | .add i => .ok (state.writeUInt i (stored i + (incoming.uint? i).getD 0))
  | .addConst i n => .ok (state.writeUInt i (stored i + n))
  | .double i => .ok (state.writeUInt i (2 * (state.result.uint? i).getD 0))
  | .setUInt i n => .ok (state.writeUInt i n)
  | .setBytes i bytes => .ok (state.writeBytes i bytes)
  | .keep i =>
    match existing.bind (·.bytes? i) with
    | some bytes => .ok (state.writeBytes i bytes)
    | none => .ok state
  | .concat i =>
    .ok (state.writeBytes i
      ((existing.bind (·.bytes? i)).getD [] ++ (incoming.bytes? i).getD []))
where
  /-- The integer stored in field `i`, 0 if there is none. -/
  stored (i : Nat) : UInt64 := (existing.bind (·.uint? i)).getD 0

/-- Carries out the acts up to the first that rejects. -/
def runAll (existing : Option Images) (incoming : Images) :
    List MergeAct → MergeState → MergeState × Option String
  | [], state => (state, none)
  | act :: acts, state =>
    match act.apply existing incoming state with
    | .error message => (state, some message)
    | .ok state => runAll existing incoming acts state

/-- An act changes images, not their number. -/
theorem length_of_apply {existing : Option Images} {incoming : Images} {state state' : MergeState}
    {act : MergeAct} (h : act.apply existing incoming state = .ok state') :
    state'.result.length = state.result.length := by
  cases act <;> simp only [apply] at h <;> (try split at h) <;>
    first
      | (cases h; done)
      | (cases h; simp [MergeState.writeUInt, MergeState.writeBytes])

/-- A run changes images, not their number. -/
theorem length_runAll (existing : Option Images) (incoming : Images) (acts : List MergeAct)
    (state : MergeState) :
    (runAll existing incoming acts state).1.result.length = state.result.length := by
  induction acts generalizing state with
  | nil => rfl
  | cons act acts ih =>
    rw [runAll]
    split
    · rfl
    · next h => rw [ih, length_of_apply h]

end MergeAct

/-- The merge function that carries out a program and notes its runs. -/
def MergeFn.ofActs (acts : List MergeAct) : MergeFn where
  run existing incoming result :=
    let (state, rejection) := MergeAct.runAll existing incoming acts { result }
    ⟨state.result, rejection, [⟨existing, incoming, state.writes, state.result⟩]⟩
  length_run existing incoming result :=
    MergeAct.length_runAll existing incoming acts { result }

end RowStore
