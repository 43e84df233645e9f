/-
# Stores and transactions through their calls

A store that is not a finished transaction makes one call for every row that it is given; a finished
transaction releases the row instead. What a client is told and what is left of the engine is what
the call came to.

Key theorems: `Client.Store.write_of_open`, `Client.Store.lookup_of_open`,
`Client.Transaction.commit_of_open`, `Client.Transaction.rollback_of_open`.
-/
import RowStore.Proofs.Client.Rows

namespace RowStore.Client

open Engine (Objects)

variable {world : World}

/-- Whether the store is a transaction that is finished. -/
def Store.isFinished : Store → Bool
  | .database _ => false
  | .transaction tx => tx.finished

/-! ### What goes away -/

/-- Destroying a row or a transaction takes it off the table. -/
theorem destroy_of_get {engine : Engine} {h : Handle} {object : Engine.Object}
    (hget : engine.objects.table.get? h = some object)
    (hkind : (∃ r, object = .row r) ∨ ∃ tx, object = .transaction tx) :
    engine.destroy h =
      (true, { engine with objects := engine.objects.remove h, diagnostic? := none }) := by
  have hnone : object.outline? = none := by
    rcases hkind with ⟨r, rfl⟩ | ⟨tx, rfl⟩ <;> rfl
  rw [Engine.destroy, Objects.destroy_eq_ok.2 (.inr ⟨object, hget, hnone, rfl⟩)]
  rfl

theorem Row.release_apply (row : Row) (hs : world.Serves row.env) :
    (row.release world).2.engine = (world.engine.destroy row.handle).2 := by
  unfold Row.release
  rw [bind_apply, isClosed_apply, hs.isOpen]
  show (call (.destroy row.handle) world).2.engine = _
  rw [call_apply hs.faultFree]
  rfl

namespace Store

variable {store : Store}

/-! ### Rows that stores take -/

theorem accept_of_open (hs : world.Serves store.env) (hopen : store.isFinished = false)
    (row : Row) : store.accept row world = (.ok (), world) := by
  have hobstacle : store.obstacle? world = (none, world) := by
    have hclosed : isClosed store.env world = (false, world) := by
      rw [isClosed_apply, hs.isOpen]
    cases store with
    | database db =>
      show (isClosed db.env >>= _) world = _
      rw [bind_apply, show isClosed db.env world = _ from hclosed]
      rfl
    | transaction tx =>
      obtain ⟨env, handle, finished⟩ := tx
      cases (show finished = false from hopen)
      show (isClosed env >>= _) world = _
      rw [bind_apply, show isClosed env world = _ from hclosed]
      rfl
  unfold accept
  rw [lift_bind_apply, hobstacle]
  rfl

/-- A finished transaction releases the row. -/
theorem accept_of_finished (hfinished : store.isFinished = true) (row : Row) :
    store.accept row world =
      (.error (.alreadyClosed "transaction"), (row.release world).2) := by
  cases store with
  | database db => exact absurd hfinished Bool.false_ne_true
  | transaction tx =>
    obtain ⟨env, handle, finished⟩ := tx
    cases (show finished = true from hfinished)
    rfl

/-- A write makes one call. -/
theorem write_apply (hs : world.Serves store.env) (hopen : store.isFinished = false) (row : Row)
    (kind : WriteKind) : store.write row kind world =
      orRefused store.env kind.operation (kind.action store.handle row.handle) world := by
  unfold write
  rw [attempt_bind_apply, accept_of_open hs hopen]

theorem write_of_open (hs : world.Serves store.env) (hopen : store.isFinished = false)
    (row : Row) (kind : WriteKind) :
    (store.write row kind world).1.isOk = (world.engine.step world.mergeFunctions
        (kind.action store.handle row.handle)).1 ∧
      (store.write row kind world).2.engine = (world.engine.step world.mergeFunctions
        (kind.action store.handle row.handle)).2 := by
  rw [write_apply hs hopen]
  exact orRefused_eq hs.faultFree _ _ _

theorem write_of_finished (hfinished : store.isFinished = true) (row : Row) (kind : WriteKind) :
    store.write row kind world =
      (.error (.alreadyClosed "transaction"), (row.release world).2) := by
  unfold write
  rw [attempt_bind_apply, accept_of_finished hfinished]

/-- A lookup makes one call, and asks why if there is no answer. -/
theorem lookup_of_open (hs : world.Serves store.env) (hopen : store.isFinished = false)
    (key : Row) :
    (store.lookup key world).1 =
        (match world.engine.lookup store.handle key.handle with
          | (some handle, _) => .ok ⟨store.env, handle⟩
          | (none, engine) =>
            .error (engine.diagnostic?.elim .notFound fun refusal =>
              .engine "get" refusal.message)) ∧
      (store.lookup key world).2.engine =
        (world.engine.lookup store.handle key.handle).2 := by
  have hreach : world.reach (.lookup store.handle key.handle) =
      ((world.engine.lookup store.handle key.handle).1,
        (world.reach (.lookup store.handle key.handle)).2) := rfl
  have hengine : (world.reach (.lookup store.handle key.handle)).2.engine =
      (world.engine.lookup store.handle key.handle).2 := rfl
  have hfaults : (world.reach (.lookup store.handle key.handle)).2.FaultFree := hs.faultFree
  generalize (world.reach (.lookup store.handle key.handle)).2 = after at hreach hengine hfaults
  unfold lookup
  rw [attempt_bind_apply, accept_of_open hs hopen]
  dsimp only
  rw [lift_bind_apply, call_apply hs.faultFree, hreach]
  generalize world.engine.lookup store.handle key.handle = found at hengine
  rcases found with ⟨_ | handle, engine⟩
  · obtain ⟨hmessage, hsame⟩ := diagnostic_apply hfaults store.env
    dsimp only at hengine ⊢
    rw [lift_bind_apply, hmessage, hengine]
    cases hrefusal : engine.diagnostic? with
    | none => exact ⟨rfl, hsame.trans hengine⟩
    | some refusal => exact ⟨rfl, hsame.trans hengine⟩
  · exact ⟨rfl, hengine⟩

theorem lookup_of_finished (hfinished : store.isFinished = true) (key : Row) :
    store.lookup key world =
      (.error (.alreadyClosed "transaction"), (key.release world).2) := by
  unfold lookup
  rw [attempt_bind_apply, accept_of_finished hfinished]

end Store

/-! ### Transactions -/

/-- A transaction begins in an opened environment. -/
theorem begin_apply {env : Environment} (hs : world.Serves env.handle)
    (hopen : world.engine.objects.ensureOpened env.handle = .ok ()) :
    ∃ after, env.begin world = (.ok { env := env.handle
                                      handle := world.engine.objects.issued + 1 }, after) ∧
      world.Follows after ∧ after.engine = { world.engine with
        objects := (world.engine.objects.add (.transaction { env := env.handle })).2
        diagnostic? := none } := by
  have hstep : world.engine.step world.mergeFunctions (.begin env.handle) =
      (some (world.engine.objects.issued + 1), { world.engine with
        objects := (world.engine.objects.add (.transaction { env := env.handle })).2
        diagnostic? := none }) := by
    show world.engine.attempt (world.engine.objects.begin env.handle) = _
    unfold Objects.begin
    rw [hopen]
    rfl
  have happly : env.begin world = (.ok { env := env.handle
                                         handle := world.engine.objects.issued + 1 },
      (world.reach (.begin env.handle)).2) := by
    unfold Environment.begin
    rw [attempt_bind_apply, ensureOpen_apply hs.isOpen]
    dsimp only
    rw [attempt_bind_apply, handleOrRefused_of_some hs.faultFree (congrArg Prod.fst hstep)]
    rfl
  refine ⟨_, happly, ?_, congrArg Prod.snd hstep⟩
  have hfollows := env.plain_begin.tame world
  rw [show env.begin.run world = _ from happly] at hfollows
  exact hfollows

namespace Transaction

variable {tx : Transaction}

/-- A finished transaction is not committed again. -/
theorem commit_of_finished (hfinished : tx.finished = true) :
    tx.commit world = ((.error, tx), world) := by
  unfold commit
  rw [bind_apply, hfinished]
  rfl

theorem commit_of_open (hs : world.Serves tx.env) (hopen : tx.finished = false)
    {status : CommitStatus}
    (hstatus : CommitStatus.ofCode (world.engine.commit tx.handle).1 = status) :
    (tx.commit world).1 = (status, { tx with finished := status.isFinished }) ∧
      (tx.commit world).2.engine = (world.engine.commit tx.handle).2 := by
  subst hstatus
  unfold commit
  rw [bind_apply, isClosed_apply, hs.isOpen, hopen]
  dsimp only
  rw [if_neg (by decide), bind_apply, call_apply hs.faultFree]
  exact ⟨rfl, rfl⟩

/-- A finished transaction is not rolled back. -/
theorem rollback_of_finished (hfinished : tx.finished = true) :
    tx.rollback world = (.error (.alreadyClosed "transaction"), world) := by
  unfold rollback
  rw [if_pos hfinished]
  rfl

theorem rollback_of_open (hs : world.Serves tx.env) (hopen : tx.finished = false) :
    (tx.rollback world).1.isOk = (world.engine.destroy tx.handle).1 ∧
      (tx.rollback world).2.engine = (world.engine.destroy tx.handle).2 := by
  have happly : tx.rollback world = orRefused tx.env "rollback" (.destroy tx.handle) world := by
    unfold rollback
    rw [if_neg (Bool.eq_false_iff.1 hopen)]
    show ((ensureOpen tx.env >>= fun _ =>
      orRefused tx.env "rollback" (.destroy tx.handle) : Attempt Unit)) world = _
    rw [attempt_bind_apply, ensureOpen_apply hs.isOpen]
  rw [happly]
  exact orRefused_eq hs.faultFree _ _ _

/-- Nothing is left to do for a finished transaction. -/
theorem release_of_finished (hfinished : tx.finished = true) :
    tx.release world = ((), world) := by
  unfold release
  rw [bind_apply, hfinished]
  rfl

theorem release_of_open (hs : world.Serves tx.env) (hopen : tx.finished = false) :
    (tx.release world).2.engine = (world.engine.destroy tx.handle).2 := by
  unfold release
  rw [bind_apply, isClosed_apply, hs.isOpen, hopen]
  show (call (.destroy tx.handle) world).2.engine = _
  rw [call_apply hs.faultFree]
  rfl

end Transaction
end RowStore.Client
