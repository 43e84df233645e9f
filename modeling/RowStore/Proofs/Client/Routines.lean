/-
# Operations that are routines

All that a client does with rows, stores, transactions and cursors, and much that it does with
environments, is a routine: calls of the engine and names held while they are made, with a look at
what is closed in between. What every routine does thus holds of all these operations.

Key theorems: `Client.Row.quiet_set`, `Client.Store.plain_write`, `Client.Cursor.plain_next`,
`Client.Database.plain_openCursor`.
-/
import RowStore.Proofs.Client.Calls

namespace RowStore.Client

/-! ### Rows -/

namespace Row

theorem quiet_setBytes (row : Row) (field : String) (bytes : Bytes) :
    Quiet (row.setBytes field bytes).run :=
  (routine_ensureOpen _).run_bind fun _ => routine_tryWithName _ _ fun _ =>
    routine_orRefused trivial trivial _

theorem quiet_setWord (row : Row) (field : String) (w : UInt64) :
    Quiet (row.setWord field w).run :=
  (routine_ensureOpen _).run_bind fun _ => routine_tryWithName _ _ fun _ =>
    routine_orRefused trivial trivial _

theorem quiet_set (row : Row) (field : String) (value : Value) : Quiet (row.set field value).run := by
  cases value with
  | int v => exact quiet_setWord row field _
  | uint v => exact quiet_setWord row field _
  | str b => exact quiet_setBytes row field b

theorem quiet_setAll (row : Row) (fields : List (String × Value)) : Quiet (row.setAll fields).run :=
  routine_run_forM (fun (field, value) => quiet_set row field value) fields

section Reads

variable {P : Engine.Call → Prop} {row : Row}

theorem routine_getWord (hword : ∀ name, P ⟨_, .getWord row.handle name⟩) (field : String) :
    Routine P (row.getWord field) :=
  .bind (.isClosed _) fun closed => by
    cases closed
    · exact .withName _ _ fun name => .call (hword name)
    · exact .pure _

theorem routine_getBytes (hbytes : ∀ name, P ⟨_, .getBytes row.handle name⟩) (field : String) :
    Routine P (row.getBytes field) :=
  .bind (.isClosed _) fun closed => by
    cases closed
    · exact .withName _ _ fun name => .call (hbytes name)
    · exact .pure _

variable (hword : ∀ name, P ⟨_, .getWord row.handle name⟩)
  (hbytes : ∀ name, P ⟨_, .getBytes row.handle name⟩)

include hword hbytes

theorem routine_get (field : String) (kind : ValueKind) : Routine P (row.get field kind) := by
  cases kind with
  | int => exact (routine_getWord hword field).bind fun _ => .pure _
  | uint => exact (routine_getWord hword field).bind fun _ => .pure _
  | str => exact (routine_getBytes hbytes field).bind fun _ => .pure _

/-- A predicate only reads the row that it judges. -/
theorem routine_judge (predicate : Predicate) : Routine P (row.judge predicate) := by
  unfold Row.judge
  cases predicate.test with
  | all => exact .pure _
  | signed interval => exact (routine_getWord hword _).bind fun _ => .pure _
  | unsigned interval => exact (routine_getWord hword _).bind fun _ => .pure _
  | bytes interval => exact (routine_getBytes hbytes _).bind fun _ => .pure _

end Reads

theorem quiet_getWord (row : Row) (field : String) : Quiet (row.getWord field) :=
  routine_getWord (fun _ => trivial) field

theorem quiet_getBytes (row : Row) (field : String) : Quiet (row.getBytes field) :=
  routine_getBytes (fun _ => trivial) field

theorem quiet_get (row : Row) (field : String) (kind : ValueKind) : Quiet (row.get field kind) :=
  routine_get (fun _ => trivial) (fun _ => trivial) field kind

theorem quiet_getText (row : Row) (field : String) : Quiet (row.getText field) :=
  (quiet_getBytes row field).bind fun _ => .pure _

theorem quiet_dump (row : Row) (schema : Schema) : Quiet (row.dump schema) :=
  routine_mapM (fun _ => quiet_get row _ _) schema.fields

theorem quiet_judge (row : Row) (predicate : Predicate) : Quiet (row.judge predicate) :=
  routine_judge (fun _ => trivial) (fun _ => trivial) predicate

theorem plain_release (row : Row) : Plain row.release :=
  .bind (.isClosed _) fun closed => by
    cases closed
    · exact .bind (.call trivial) fun _ => .pure _
    · exact .pure _

theorem plain_destroy (row : Row) : Plain row.destroy.run :=
  (Routine.isClosed _).run_lift.run_bind fun closed => by
    cases closed
    · exact routine_orRefused trivial trivial _
    · exact routine_run_pure _

end Row

theorem Database.plain_newRow (db : Database) : Plain db.newRow.run :=
  (routine_ensureOpen _).run_bind fun _ =>
    (routine_handleOrRefused trivial trivial _).run_bind fun _ => routine_run_pure _

/-! ### Stores and transactions -/

namespace Store

theorem plain_obstacle (store : Store) : Plain store.obstacle? := by
  unfold obstacle?
  split
  · exact .pure _
  · refine .bind (.isClosed _) fun closed => ?_
    cases closed
    · exact .pure _
    · exact .pure _

theorem plain_accept (store : Store) (row : Row) : Plain (store.accept row).run :=
  (plain_obstacle store).run_lift.run_bind fun obstacle => by
    cases obstacle with
    | none => exact routine_run_pure _
    | some failure => exact (Row.plain_release row).run_lift.run_bind fun _ => routine_run_throw _

theorem plain_write (store : Store) (row : Row) (kind : WriteKind) :
    Plain (store.write row kind).run :=
  (plain_accept store row).run_bind fun _ => routine_orRefused trivial trivial _

theorem plain_lookup (store : Store) (key : Row) : Plain (store.lookup key).run :=
  (plain_accept store key).run_bind fun _ => (Routine.call trivial).run_lift.run_bind fun found => by
    cases found with
    | some handle => exact routine_run_pure _
    | none =>
      refine (routine_diagnostic _ trivial).run_lift.run_bind fun message => ?_
      cases message with
      | some message => exact routine_run_throw _
      | none => exact routine_run_throw _

end Store

namespace Transaction

theorem plain_commit (tx : Transaction) : Plain tx.commit := by
  unfold commit
  refine .bind (.isClosed _) fun closed => ?_
  split
  · exact .pure _
  · exact .bind (.call trivial) fun _ => .pure _

theorem plain_rollback (tx : Transaction) : Plain tx.rollback.run := by
  unfold rollback
  split
  · exact (routine_run_throw _).run_bind fun _ => (routine_ensureOpen _).run_bind fun _ =>
      routine_orRefused trivial trivial _
  · exact (routine_ensureOpen _).run_bind fun _ => routine_orRefused trivial trivial _

theorem plain_release (tx : Transaction) : Plain tx.release := by
  unfold release
  refine .bind (.isClosed _) fun closed => ?_
  split
  · exact .pure _
  · exact .bind (.call trivial) fun _ => .pure _

end Transaction

/-! ### Cursors -/

theorem quiet_seedStart (criteria : CriteriaSet) (schema : Schema) (seed : Row) :
    Quiet (seedStart criteria schema seed).run := by
  unfold seedStart
  cases criteria.startsWith? with
  | none => exact routine_run_pure _
  | some bytes =>
    dsimp only
    cases schema.leading? with
    | none => exact routine_run_throw _
    | some leading =>
      dsimp only
      split
      · exact routine_run_throw _
      · refine (routine_check _).run_bind fun predicate => ?_
        exact (Row.quiet_setBytes _ _ _).run_bind fun _ => routine_run_pure _

theorem quiet_seedField (criteria : CriteriaSet) (schema : Schema) (seed : Row) (field : Field) :
    Quiet (seedField criteria schema seed field).run := by
  unfold seedField
  cases criteria.get? field.name with
  | none => exact routine_run_pure _
  | some criterion =>
    refine (routine_check _).run_bind fun predicate => ?_
    cases criterion.seed predicate.descending with
    | none => exact routine_run_pure _
    | some value => exact (Row.quiet_set _ _ _).run_bind fun _ => routine_run_pure _

theorem quiet_seedScan (criteria : CriteriaSet) (schema : Schema) (seed : Row) :
    Quiet (seedScan criteria schema seed).run := by
  unfold seedScan
  generalize criteria.fields.find? _ = unknown?
  rcases unknown? with _ | ⟨name, criterion⟩
  · refine (quiet_seedStart _ _ _).run_bind fun _ => ?_
    refine (routine_run_mapM (quiet_seedField criteria schema seed) _).run_bind fun _ => ?_
    exact (Row.quiet_setBytes _ _ _).run_bind fun _ => routine_run_pure _
  · exact routine_run_throw _

theorem Database.plain_openCursor (db : Database) (criteria : CriteriaSet) :
    Plain (db.openCursor criteria).run := by
  refine (plain_newRow db).run_bind fun seed => Routine.run_tryCatch ?_ fun failure => ?_
  · refine (quiet_seedScan _ _ _).plain.run_bind fun _ => ?_
    exact (routine_handleOrRefused trivial trivial _).run_bind fun _ => routine_run_pure _
  · exact (Row.plain_release seed).run_lift.run_bind fun _ => routine_run_throw _

namespace Cursor

section Reads

variable {P : Engine.Call → Prop} {row : Row} (hword : ∀ name, P ⟨_, .getWord row.handle name⟩)
  (hbytes : ∀ name, P ⟨_, .getBytes row.handle name⟩)

include hword hbytes

theorem routine_judgeGo (cursor : Cursor) : ∀ (predicates : List Predicate) (verdict : Verdict),
    Routine P (judge.go cursor row verdict predicates)
  | [], verdict => .pure _
  | predicate :: rest, verdict => by
    unfold judge.go
    refine (Row.routine_judge hword hbytes predicate).bind fun v => ?_
    cases v with
    | pass => exact routine_judgeGo cursor rest verdict
    | skip => exact routine_judgeGo cursor rest .skip
    | stop =>
      dsimp only
      split
      · exact .pure _
      · exact routine_judgeGo cursor rest .skip

theorem routine_judge (cursor : Cursor) : Routine P (cursor.judge row) :=
  routine_judgeGo hword hbytes cursor _ _

end Reads

theorem quiet_judge (cursor : Cursor) (row : Row) : Quiet (cursor.judge row) :=
  routine_judge (fun _ => trivial) (fun _ => trivial) cursor

theorem plain_advance : ∀ (fuel : Nat) (cursor : Cursor), Plain (cursor.advance fuel)
  | 0, _ => .pure _
  | fuel + 1, cursor => by
    unfold advance
    rcases cursor.takeRow with ⟨_ | previous, cursor⟩
    · exact .pure _
    · refine .bind (.call trivial) fun found => ?_
      cases found with
      | none =>
        refine .bind (routine_diagnostic _ trivial) fun message => ?_
        cases message with
        | some message => exact .pure _
        | none => exact .pure _
      | some handle =>
        refine .bind (quiet_judge cursor _).plain fun verdict => ?_
        cases verdict with
        | pass => exact .pure _
        | skip => exact plain_advance fuel _
        | stop => exact .bind (Row.plain_release _) fun _ => .pure _

theorem plain_next (cursor : Cursor) : Plain cursor.next := by
  unfold next
  split
  · exact .pure _
  · refine .bind (.isClosed _) fun closed => ?_
    cases closed
    · exact .bind .fetchBound fun fuel => plain_advance fuel cursor
    · exact .pure _

theorem plain_collectGo {α : Type} {visit : Row → Attempt α} (hvisit : ∀ row, Plain (visit row).run) :
    ∀ (fuel : Nat) (cursor : Cursor), Plain (collect.go visit fuel cursor)
  | 0, _ => .pure _
  | fuel + 1, cursor => by
    unfold collect.go
    refine .bind (plain_next cursor) fun fetched => ?_
    obtain ⟨_ | _ | row, cursor⟩ := fetched
    · exact .pure _
    · exact .pure _
    · refine .bind (hvisit row) fun visited => ?_
      cases visited with
      | error failure => exact .pure _
      | ok a => exact .bind (plain_collectGo hvisit fuel cursor) fun _ => .pure _

theorem plain_collect {α : Type} {visit : Row → Attempt α} (hvisit : ∀ row, Plain (visit row).run)
    (cursor : Cursor) : Plain (cursor.collect visit) :=
  .bind .fetchBound fun fuel => plain_collectGo hvisit fuel cursor

/-- The rows of a cursor. -/
def rows (cursor : Cursor) : List Row := cursor.current?.toList ++ cursor.seed?.toList

/-- The last step of closing a cursor, when its rows are released. -/
def shut (cursor : Cursor) : Client (Except Failure Unit × Cursor) := do
  let cursor := { cursor with closed := true, current? := none, seed? := none }
  if ← isClosed cursor.env then return (.ok (), cursor)
  let answer ← (orRefused cursor.env "close cursor" (.destroy cursor.handle)).run
  return (answer, cursor)

/-- Closing a cursor releases its rows and then the cursor. -/
theorem close_of_open {cursor : Cursor} (hopen : cursor.closed = false) :
    cursor.close = (do cursor.rows.forM Row.release; cursor.shut) := by
  unfold close rows
  rw [hopen, if_neg Bool.false_ne_true]
  cases cursor.current? <;> cases cursor.seed? <;> rfl

theorem plain_shut (cursor : Cursor) : Plain cursor.shut :=
  .bind (.isClosed _) fun closed => by
    cases closed
    · exact .bind (routine_orRefused trivial trivial _) fun _ => .pure _
    · exact .pure _

theorem plain_close (cursor : Cursor) : Plain cursor.close := by
  cases hopen : cursor.closed with
  | true =>
    unfold close
    rw [hopen]
    exact .pure _
  | false =>
    rw [close_of_open hopen]
    exact .bind (routine_forM Row.plain_release _) fun _ => plain_shut cursor

theorem plain_release (cursor : Cursor) : Plain cursor.release := by
  unfold release
  split
  · exact .bind (plain_close cursor) fun _ => .pure _
  · exact .pure _

end Cursor

/-! ### Environments -/

namespace Environment

theorem quiet_setBytes (env : Environment) (path : String) (bytes : Bytes) :
    Quiet (env.setBytes path bytes).run :=
  (routine_ensureOpen _).run_bind fun _ => routine_tryWithName _ _ fun _ =>
    routine_orRefused trivial trivial _

theorem quiet_setWord (env : Environment) (path : String) (w : UInt64) :
    Quiet (env.setWord path w).run :=
  (routine_ensureOpen _).run_bind fun _ => routine_tryWithName _ _ fun _ =>
    routine_orRefused trivial trivial _

theorem quiet_set (env : Environment) (path : String) (value : Value) :
    Quiet (env.set path value).run := by
  cases value with
  | int v => exact quiet_setWord env path _
  | uint v => exact quiet_setWord env path _
  | str b => exact quiet_setBytes env path b

theorem quiet_getText (env : Environment) (path : String) : Quiet (env.getText path) :=
  .bind (.isClosed _) fun closed => by
    cases closed
    · exact .bind (.withName _ _ fun _ => .call trivial) fun _ => .pure _
    · exact .pure _

theorem quiet_getInt (env : Environment) (path : String) : Quiet (env.getInt path) :=
  .bind (.isClosed _) fun closed => by
    cases closed
    · exact .bind (.withName _ _ fun _ => .call trivial) fun _ => .pure _
    · exact .pure _

theorem quiet_openUp (env : Environment) : Quiet env.openUp.run :=
  (routine_ensureOpen _).run_bind fun _ => routine_orRefused trivial trivial _

theorem quiet_error (env : Environment) : Quiet env.error? :=
  .bind (.isClosed _) fun closed => by
    cases closed
    · exact routine_diagnostic _ trivial
    · exact .pure _

theorem plain_begin (env : Environment) : Plain env.begin.run :=
  (routine_ensureOpen _).run_bind fun _ =>
    (routine_handleOrRefused trivial trivial _).run_bind fun _ => routine_run_pure _

end Environment
end RowStore.Client
