/-
# Environments apart

Environments share an engine. A store of one environment is used: rows are looked up and written through
it, and if it is a transaction, it is committed, rolled back or dropped. What another environment has is
left alone by every use but one: a commit that makes a write crossing over. The row may be one of the
other environment's; it is taken, and a database refuses it, but a transaction does not.

Key definitions: `Client.Use`, `Client.Use.exec`, `World.Leaves`, `Client.Use.Crosses`.
Key theorems: `Client.Use.leaves_iff`.
-/
import RowStore.Proofs.Client.Stores
import RowStore.Proofs.Engine.Isolation

namespace RowStore

/-- What an environment has, on the engine and of merge functions, is left alone, but for a row that is
taken. -/
structure World.Leaves (env : Handle) (row? : Option Handle) (before after : World) : Prop where
  objects : Engine.Objects.Leaves env row? before.engine.objects after.engine.objects
  functions : after.mergeFunctions = before.mergeFunctions

namespace Client

open Engine (Objects)

/-- A use of a store. -/
inductive Use where
  | lookup (store : Store) (key : Row)
  | write (store : Store) (row : Row) (kind : WriteKind)
  | commit (tx : Transaction)
  | rollback (tx : Transaction)
  /-- Lets go of a transaction. -/
  | drop (tx : Transaction)

namespace Use

/-- Carries out a use, whatever comes of it. -/
def exec : Use → Client Unit
  | lookup store key => discard (store.lookup key).run
  | write store row kind => discard (store.write row kind).run
  | commit tx => discard tx.commit
  | rollback tx => discard tx.rollback.run
  | drop tx => tx.release

/-- The store that is used. -/
def store : Use → Store
  | lookup store _ => store
  | write store _ _ => store
  | commit tx => .transaction tx
  | rollback tx => .transaction tx
  | drop tx => .transaction tx

/-- The row that is given to the store. -/
def row? : Use → Option Row
  | lookup _ key => some key
  | write _ row _ => some row
  | _ => none

/-- The store is one of the environment, and what is given to it is a row of any environment; both may
be gone. -/
structure Of (use : Use) (env : Handle) (world : World) : Prop where
  owned : use.store.env = env
  store : world.engine.objects.IsStoreOf env use.store.handle
  row : ∀ row, use.row? = some row → world.engine.objects.IsRow row.handle

/-- The use is a commit that reaches the engine and makes a write that changes a record of the
environment. -/
inductive Crosses (world : World) (env : Handle) : Use → Prop where
  | commit {tx : Transaction} (unfinished : tx.finished = false)
    (isOpen : (world.link tx.env).closed = false)
    (crosses : world.engine.objects.Crosses env tx.handle) : Crosses world env (.commit tx)

end Use

section

variable {world : World} {a b : Handle}

theorem Use.tame_exec (use : Use) : Tame use.exec := by
  cases use with
  | lookup store key => exact ((store.plain_lookup key).bind fun _ => .pure _).tame
  | write store row kind => exact ((store.plain_write row kind).bind fun _ => .pure _).tame
  | commit tx => exact (tx.plain_commit.bind fun _ => .pure _).tame
  | rollback tx => exact (tx.plain_rollback.bind fun _ => .pure _).tame
  | drop tx => exact tx.plain_release.tame

/-! ### Stores that take no rows -/

/-- Whether a store takes no rows: it is a finished transaction, or its environment is closed. -/
def Store.IsShut (store : Store) (world : World) : Prop :=
  store.isFinished = true ∨ (world.link store.env).closed = true

theorem Store.not_isShut {store : Store} (h : ¬ store.IsShut world) :
    store.isFinished = false ∧ (world.link store.env).closed = false := by
  rw [IsShut, not_or, Bool.not_eq_true, Bool.not_eq_true] at h
  exact h

/-- A store of an environment that is closed releases the row. -/
theorem Store.accept_of_closed {store : Store} (hunfinished : store.isFinished = false)
    (hclosed : (world.link store.env).closed = true) (row : Row) :
    store.accept row world = (.error .environmentClosed, (row.release world).2) := by
  have hobstacle : store.obstacle? world = (some .environmentClosed, world) := by
    cases store with
    | database db =>
      show (isClosed db.env >>= _) world = _
      rw [bind_apply, isClosed_apply, show (world.link db.env).closed = true from hclosed]
      rfl
    | transaction tx =>
      obtain ⟨env, handle, finished⟩ := tx
      cases (show finished = false from hunfinished)
      show (isClosed env >>= _) world = _
      rw [bind_apply, isClosed_apply, show (world.link env).closed = true from hclosed]
      rfl
  unfold accept
  rw [lift_bind_apply, hobstacle]
  rfl

/-- A store that takes no rows releases them. -/
theorem Store.accept_of_isShut {store : Store} (h : store.IsShut world) (row : Row) :
    ∃ failure, store.accept row world = (.error failure, (row.release world).2) := by
  by_cases hfinished : store.isFinished = true
  · exact ⟨_, accept_of_finished hfinished row⟩
  · exact ⟨_, accept_of_closed (Bool.eq_false_iff.2 hfinished) (h.resolve_left hfinished) row⟩

/-- Releasing a row leaves everything else on the engine alone. -/
theorem Row.leaves_release (hr : world.Reachable) (hf : world.FaultFree) {row : Row}
    (hrow : world.engine.objects.IsRow row.handle) :
    Objects.Leaves b (some row.handle) world.engine.objects
      (row.release world).2.engine.objects := by
  cases hclosed : (world.link row.env).closed with
  | false =>
    rw [row.release_apply ⟨hr, hf, hclosed⟩]
    exact Engine.leaves_destroyRow hr.sound hrow
  | true =>
    have hsame : row.release world = ((), world) := by
      unfold release
      rw [bind_apply, isClosed_apply, hclosed]
      rfl
    rw [hsame]
    exact .refl hr.sound

theorem Store.leaves_write (hr : world.Reachable) (hf : world.FaultFree) (hab : a ≠ b)
    {store : Store} (hstore : world.engine.objects.IsStoreOf a store.handle) {row : Row}
    (hrow : world.engine.objects.IsRow row.handle) (kind : WriteKind) :
    Objects.Leaves b (some row.handle) world.engine.objects
      (store.write row kind world).2.engine.objects := by
  by_cases hshut : store.IsShut world
  · obtain ⟨failure, haccept⟩ := accept_of_isShut hshut row
    unfold write
    rw [attempt_bind_apply, haccept]
    exact Row.leaves_release hr hf hrow
  · obtain ⟨hopen, hlink⟩ := not_isShut hshut
    rw [(write_of_open ⟨hr, hf, hlink⟩ hopen row kind).2]
    exact Engine.leaves_write hr.sound hab hstore _ kind

theorem Store.leaves_lookup (hr : world.Reachable) (hf : world.FaultFree) (store : Store) {key : Row}
    (hkey : world.engine.objects.IsRow key.handle) :
    Objects.Leaves b (some key.handle) world.engine.objects
      (store.lookup key world).2.engine.objects := by
  by_cases hshut : store.IsShut world
  · obtain ⟨failure, haccept⟩ := accept_of_isShut hshut key
    unfold lookup
    rw [attempt_bind_apply, haccept]
    exact Row.leaves_release hr hf hkey
  · obtain ⟨hopen, hlink⟩ := not_isShut hshut
    rw [(lookup_of_open ⟨hr, hf, hlink⟩ hopen key).2]
    exact Engine.leaves_lookup hr.sound store.handle key.handle

/-! ### Transactions that are ended -/

namespace Transaction

variable {tx : Transaction}

theorem leaves_commit_iff (hr : world.Reachable) (hf : world.FaultFree) (hab : a ≠ b)
    (hstore : world.engine.objects.IsStoreOf a tx.handle) :
    Objects.Leaves b none world.engine.objects (tx.commit world).2.engine.objects ↔
      ¬ (Use.commit tx).Crosses world b := by
  by_cases hshut : (Store.transaction tx).IsShut world
  · have hsame : tx.commit world = ((.error, tx), world) := by
      rcases hshut with hfinished | hclosed
      · exact commit_of_finished hfinished
      · unfold commit
        rw [bind_apply, isClosed_apply, show (world.link tx.env).closed = true from hclosed,
          Bool.or_true]
        rfl
    rw [hsame]
    refine iff_of_true (.refl hr.sound) ?_
    rintro ⟨hunfinished, hopen, -⟩
    rcases hshut with hfinished | hclosed
    · exact absurd hfinished (Bool.eq_false_iff.1 hunfinished)
    · exact absurd hclosed (Bool.eq_false_iff.1 hopen)
  · obtain ⟨hopen, hlink⟩ := Store.not_isShut hshut
    rw [(commit_of_open ⟨hr, hf, hlink⟩ hopen rfl).2, Engine.leaves_commit_iff hr.sound hab hstore]
    refine not_congr ⟨fun hcrosses => ⟨hopen, hlink, hcrosses⟩, ?_⟩
    rintro ⟨-, -, hcrosses⟩
    exact hcrosses

theorem leaves_rollback (hr : world.Reachable) (hf : world.FaultFree) (hab : a ≠ b)
    (hstore : world.engine.objects.IsStoreOf a tx.handle) :
    Objects.Leaves b none world.engine.objects (tx.rollback world).2.engine.objects := by
  cases hfinished : tx.finished with
  | true =>
    rw [rollback_of_finished hfinished]
    exact .refl hr.sound
  | false =>
    cases hclosed : (world.link tx.env).closed with
    | false =>
      rw [(rollback_of_open ⟨hr, hf, hclosed⟩ hfinished).2]
      exact Engine.leaves_rollback hr.sound hab hstore
    | true =>
      have hsame : tx.rollback world = (.error .environmentClosed, world) := by
        unfold rollback
        rw [if_neg (Bool.eq_false_iff.1 hfinished)]
        show ((ensureOpen tx.env >>= fun _ =>
          orRefused tx.env "rollback" (.destroy tx.handle) : Attempt Unit)) world = _
        rw [attempt_bind_apply, ensureOpen_of_closed hclosed]
      rw [hsame]
      exact .refl hr.sound

theorem leaves_release (hr : world.Reachable) (hf : world.FaultFree) (hab : a ≠ b)
    (hstore : world.engine.objects.IsStoreOf a tx.handle) :
    Objects.Leaves b none world.engine.objects (tx.release world).2.engine.objects := by
  by_cases hshut : (Store.transaction tx).IsShut world
  · have hsame : tx.release world = ((), world) := by
      rcases hshut with hfinished | hclosed
      · exact release_of_finished hfinished
      · unfold release
        rw [bind_apply, isClosed_apply, show (world.link tx.env).closed = true from hclosed,
          Bool.or_true]
        rfl
    rw [hsame]
    exact .refl hr.sound
  · obtain ⟨hopen, hlink⟩ := Store.not_isShut hshut
    rw [release_of_open ⟨hr, hf, hlink⟩ hopen]
    exact Engine.leaves_rollback hr.sound hab hstore

end Transaction

/-! ### Uses -/

/-- Whatever came before, a use of a store of one environment leaves alone what another environment has,
but for the row that is given to the store, exactly if it is not a commit that makes a write crossing
over. -/
theorem Use.leaves_iff (hr : world.Reachable) (hf : world.FaultFree) (hab : a ≠ b) {use : Use}
    (huse : use.Of a world) :
    world.Leaves b (use.row?.map (·.handle)) (use.exec world).2 ↔ ¬ use.Crosses world b := by
  have hfollows := use.tame_exec world
  have hobjects : world.Leaves b (use.row?.map (·.handle)) (use.exec world).2 ↔
      Objects.Leaves b (use.row?.map (·.handle)) world.engine.objects
        (use.exec world).2.engine.objects :=
    ⟨World.Leaves.objects, fun h => ⟨h, hfollows.mergeFunctions⟩⟩
  rw [hobjects]
  cases use with
  | lookup store key =>
    exact iff_of_true (store.leaves_lookup hr hf (huse.row key rfl)) nofun
  | write store row kind =>
    exact iff_of_true (Store.leaves_write hr hf hab huse.store (huse.row row rfl) kind) nofun
  | commit tx => exact Transaction.leaves_commit_iff hr hf hab huse.store
  | rollback tx => exact iff_of_true (Transaction.leaves_rollback hr hf hab huse.store) nofun
  | drop tx => exact iff_of_true (Transaction.leaves_release hr hf hab huse.store) nofun

end

/-! ### A write that crosses over -/

namespace Borders

open Engine.Numbers (number)

/-- The world with a database in each of two environments. -/
def declared : World where
  engine := Engine.Halves.declared
  calls := [⟨.flag, .declare 2 "right" [number]⟩, ⟨.flag, .declare 1 "left" [number]⟩,
    ⟨.handle, .newEnvironment⟩, ⟨.handle, .newEnvironment⟩]
  links := Table.ofList [(1, { cache := .ofPolicy .static }), (2, { cache := .ofPolicy .static })]

theorem reachable_declared : declared.Reachable := by
  have h : declared = (call (.declare 2 "right" [number]) (call (.declare 1 "left" [number])
      ((call .newEnvironment ((call .newEnvironment {}).2.setLink 1
        { cache := .ofPolicy .static })).2.setLink 2 { cache := .ofPolicy .static })).2).2 := by
    show _ = (World.reach (World.reach _ (.declare 1 "left" [number])).2
      (.declare 2 "right" [number])).2
    unfold World.reach Engine.step
    dsimp only
    unfold Engine.declare
    rw [Objects.declare_eq (by simp), Objects.declare_eq (by simp)]
    rfl
  rw [h]
  exact ((((World.Reachable.start.call _).create _ _).call _ |>.create _ _).call _).call _

/-- Both environments are opened, a transaction is begun in the first, and a row of the database of the
second is put into it. -/
def world : World :=
  (call (.put 5 6) (call (.setWord 6 "number" 7) (call (.newRow 4) (call (.begin 1)
    (call (.openEnvironment 2) (call (.openEnvironment 1) declared).2).2).2).2).2).2

theorem reachable_world : world.Reachable :=
  (((((reachable_declared.call _).call _).call _).call _).call _).call _

/-- The transaction. -/
def pending : Transaction := { env := 1, handle := 5 }

/-- The transaction as the engine has it. -/
def pendingWrites : Engine.Transaction where
  env := 1
  writes := Table.ofList [(⟨4, [.up 7]⟩, some [.word 7])]

theorem get?_pending : world.engine.objects.table.get? 5 = some (.transaction pendingWrites) := rfl

theorem pending_of : (Use.commit pending).Of 1 world where
  owned := rfl
  store := fun object hlive => by
    cases get?_pending.symm.trans hlive
    rfl
  row := nofun

/-- The commit puts the row into the database of the other environment. -/
theorem commit_crosses : world.FaultFree ∧ (Use.commit pending).Of 1 world ∧
    ¬ world.Leaves 2 none ((Use.commit pending).exec world).2 := by
  have hcrosses : (Use.commit pending).Crosses world 2 := by
    have hwrites : pendingWrites.writes.entries = [] ++ [(⟨4, [.up 7]⟩, some [.word 7])] := rfl
    have hlands : world.engine.objects.table.get? 4 = some (.database {
      env := 2, name := "right", fields := [number] }) := rfl
    exact .commit rfl rfl (.write get?_pending rfl hwrites (List.forall_mem_nil _) hlands rfl nofun)
  refine ⟨rfl, pending_of, fun hleaves => ?_⟩
  exact (Use.leaves_iff reachable_world rfl (by decide) pending_of).1 hleaves hcrosses

end Borders

end Client
end RowStore
