/-
# What point operations do

A point operation takes its row and goes on without it. A row goes to its own database and to every
transaction; a reader of a transaction sees its writes over the records. A commit makes the writes
of the transaction, each under its own place.

Key definitions: `Engine.Database.settle`, `Engine.Objects.written`.
Key theorems: `Engine.step_write`, `Engine.lookup_eq`, `Engine.Objects.written_eq`,
`Engine.Objects.visible_transaction`.
-/
import RowStore.Client.Store
import RowStore.Proofs.Client.Rows

namespace RowStore.Engine

variable {engine : Engine} {objects : Objects} {d h : Handle} {r : Row} {db : Database}

/-- The record that a merge function made, unless the merge is refused. -/
def Database.accept (db : Database) (reply : MergeReply) : Except Refusal Record :=
  match reply.rejection with
  | some message => .error (.mergeRejected message)
  | none => db.decode reply.result

/-- What a write of a row asks for when `visible` is under the keys: a key, and what is to be under it,
unless the write is refused; and what the merge function notes. -/
def Database.settle (db : Database) (functions : Hook → MergeFn) (visible : Key → Option Record)
    (r : Row) : Client.WriteKind → Except Refusal (Key × Option Record) × List MergeRun
  | .put => ((db.keyOf r).map (·, some (db.recordOf r)), [])
  | .delete => ((db.keyOf r).map (·, none), [])
  | .upsert =>
    match db.hook?, db.keyOf r with
    | none, _ => (.error (.noMergeFunction db.name), [])
    | some _, .error refusal => (.error refusal, [])
    | some hook, .ok key =>
      let incoming := db.encode (db.recordOf r)
      let reply := (functions hook).run ((visible key).map db.encode) incoming incoming
      ((db.accept reply).map (key, some ·), reply.journal)

namespace Objects

/-! ### Stores -/

theorem target_eq (hdb : objects.table.get? r.db = some (.database db))
    (hopen : objects.ensureOpened db.env = .ok ()) : objects.target h r = (do
      match ← objects.store h with
      | .database own =>
        if own = r.db then .ok (.database own) else .error (.wrongObject h "the row's database")
      | .transaction tx => .ok (.transaction tx)) := by
  unfold target
  rw [database_eq_ok.2 hdb]
  show (do
    objects.ensureOpened db.env
    match ← objects.store h with
    | .database own =>
      if own = r.db then .ok (.database own) else .error (.wrongObject h "the row's database")
    | .transaction tx => .ok (.transaction tx) : Except Refusal Store) = _
  rw [hopen]
  rfl

/-- A row goes to its own database. -/
theorem target_database (hdb : objects.table.get? r.db = some (.database db))
    (hopen : objects.ensureOpened db.env = .ok ()) {own : Database}
    (hstore : objects.table.get? h = some (.database own)) :
    objects.target h r =
      if h = r.db then .ok (.database h) else .error (.wrongObject h "the row's database") := by
  rw [target_eq hdb hopen]
  unfold store
  rw [find_eq_ok.2 hstore]
  rfl

/-- A row goes to every transaction. -/
theorem target_transaction (hdb : objects.table.get? r.db = some (.database db))
    (hopen : objects.ensureOpened db.env = .ok ()) {tx : Transaction}
    (hstore : objects.table.get? h = some (.transaction tx)) :
    objects.target h r = .ok (.transaction h) := by
  rw [target_eq hdb hopen]
  unfold store
  rw [find_eq_ok.2 hstore]
  rfl

/-- A reader of a database sees its records. -/
theorem visible_database (hdb : objects.table.get? d = some (.database db)) (key : Key) :
    objects.visible (.database h) d key = .ok (db.records.get? key) := by
  unfold visible
  rw [database_eq_ok.2 hdb]
  rfl

/-- A reader of a transaction sees its writes over the records. -/
theorem visible_transaction (hdb : objects.table.get? d = some (.database db)) {tx : Transaction}
    (htx : objects.table.get? h = some (.transaction tx)) (key : Key) :
    objects.visible (.transaction h) d key =
      .ok ((tx.writes.get? ⟨d, key⟩).getD (db.records.get? key)) := by
  have hpending : objects.pending? ⟨d, key⟩ (.transaction h) = tx.writes.get? ⟨d, key⟩ := by
    unfold pending?
    dsimp only
    rw [htx]
  unfold visible
  rw [hpending, database_eq_ok.2 hdb]
  cases tx.writes.get? ⟨d, key⟩ <;> rfl

/-! ### Writes to a database -/

/-- The records of a database after a write of one of its places. -/
def writtenRecords (records : Records) (key : Key) : Option Record → Records
  | some record => records.insert key record
  | none => records.erase key

theorem get?_writtenRecords (records : Records) (key key' : Key) (record? : Option Record) :
    (writtenRecords records key record?).get? key' =
      if key' = key then record? else records.get? key' := by
  cases record? with
  | none => exact Table.get?_erase ..
  | some record => exact Table.get?_insert ..

theorem writeThrough_eq {place : Place} {db : Database}
    (hget : objects.table.get? place.db = some (.database db)) (record? : Option Record) :
    objects.writeThrough place record? = .ok (objects.put place.db
      (.database { db with records := writtenRecords db.records place.key record? })) := by
  unfold writeThrough
  rw [database_eq_ok.2 hget]
  cases record? <;> rfl

/-! ### Rows that are taken -/

/-- What a write of a row that was taken makes of the objects, and what the merge function noted. -/
def written (functions : Hook → MergeFn) (objects : Objects) (store : Handle) (r : Row) :
    Client.WriteKind → Except Refusal Objects × List MergeRun
  | .put => (objects.putRow store r, [])
  | .delete => (objects.deleteRow store r, [])
  | .upsert =>
    match objects.mergeOf store r with
    | .error refusal => (.error refusal, [])
    | .ok merge =>
      let reply := (functions merge.hook).run merge.existing merge.incoming merge.incoming
      (objects.storeMerge merge reply, reply.journal)

section Written

variable {functions : Hook → MergeFn} {store : Handle} {target : Store} {key : Key}
  {refusal : Refusal}

/-- A row that does not go to the store is not written. -/
theorem written_of_target_error (ht : objects.target store r = .error refusal)
    (kind : Client.WriteKind) :
    objects.written functions store r kind = (.error refusal, []) := by
  cases kind with
  | put =>
    unfold written putRow
    rw [ht]
    rfl
  | delete =>
    unfold written deleteRow
    rw [ht]
    rfl
  | upsert =>
    have hmerge : objects.mergeOf store r = .error refusal := by
      unfold mergeOf
      rw [ht]
      rfl
    unfold written
    rw [hmerge]

variable (ht : objects.target store r = .ok target)
  (hdb : objects.table.get? r.db = some (.database db))

include ht hdb

theorem putRow_eq : objects.putRow store r = (do
    objects.write target ⟨r.db, ← db.keyOf r⟩ (some (db.recordOf r))) := by
  unfold putRow
  rw [ht, database_eq_ok.2 hdb]
  rfl

theorem deleteRow_eq : objects.deleteRow store r = (do
    objects.write target ⟨r.db, ← db.keyOf r⟩ none) := by
  unfold deleteRow
  rw [ht, database_eq_ok.2 hdb]
  rfl

theorem mergeOf_of_hook_none (hhook : db.hook? = none) :
    objects.mergeOf store r = .error (.noMergeFunction db.name) := by
  unfold mergeOf
  rw [ht, database_eq_ok.2 hdb]
  dsimp only [bind, Except.bind]
  rw [hhook]
  rfl

theorem mergeOf_eq {hook : Hook} (hhook : db.hook? = some hook) :
    objects.mergeOf store r = (do
      let key ← db.keyOf r
      let existing ← objects.visible target r.db key
      return {
        target
        place := ⟨r.db, key⟩
        hook
        existing := existing.map db.encode
        incoming := db.encode (db.recordOf r) }) := by
  unfold mergeOf
  rw [ht, database_eq_ok.2 hdb]
  dsimp only [bind, Except.bind]
  rw [hhook]

/-- A row without a key is not written. -/
theorem written_of_key_error (functions : Hook → MergeFn) (hkey : db.keyOf r = .error refusal)
    (kind : Client.WriteKind) :
    ∃ refusal', objects.written functions store r kind = (.error refusal', []) := by
  cases kind with
  | put =>
    refine ⟨refusal, ?_⟩
    unfold written
    rw [putRow_eq ht hdb, hkey]
    rfl
  | delete =>
    refine ⟨refusal, ?_⟩
    unfold written
    rw [deleteRow_eq ht hdb, hkey]
    rfl
  | upsert =>
    unfold written
    cases hhook : db.hook? with
    | none =>
      rw [mergeOf_of_hook_none ht hdb hhook]
      exact ⟨_, rfl⟩
    | some hook =>
      rw [mergeOf_eq ht hdb hhook, hkey]
      exact ⟨_, rfl⟩

theorem written_put (hkey : db.keyOf r = .ok key) : objects.written functions store r .put =
    (objects.write target ⟨r.db, key⟩ (some (db.recordOf r)), []) := by
  unfold written
  rw [putRow_eq ht hdb, hkey]
  rfl

theorem written_delete (hkey : db.keyOf r = .ok key) : objects.written functions store r .delete =
    (objects.write target ⟨r.db, key⟩ none, []) := by
  unfold written
  rw [deleteRow_eq ht hdb, hkey]
  rfl

theorem written_of_hook_none (hhook : db.hook? = none) :
    objects.written functions store r .upsert = (.error (.noMergeFunction db.name), []) := by
  unfold written
  rw [mergeOf_of_hook_none ht hdb hhook]

/-- The merge function is given the images of the record that is visible and of the row, and what
it makes of them is written. -/
theorem written_upsert {hook : Hook} (hhook : db.hook? = some hook) (hkey : db.keyOf r = .ok key)
    {existing : Option Record} (hvisible : objects.visible target r.db key = .ok existing)
    {incoming : Images} (hincoming : incoming = db.encode (db.recordOf r)) {reply : MergeReply}
    (hreply : reply = (functions hook).run (existing.map db.encode) incoming incoming) :
    objects.written functions store r .upsert =
      (do objects.write target ⟨r.db, key⟩ (some (← db.accept reply)), reply.journal) := by
  subst hincoming hreply
  unfold written
  rw [mergeOf_eq ht hdb hhook, hkey]
  dsimp only [bind, Except.bind]
  rw [hvisible]
  dsimp only [pure, Except.pure]
  unfold storeMerge Database.accept
  rw [database_eq_ok.2 hdb]
  cases ((functions hook).run (existing.map db.encode) (db.encode (db.recordOf r))
    (db.encode (db.recordOf r))).rejection <;> rfl

/-- A write asks for what is decided by the row and by what is visible, and it is written. -/
theorem written_eq (functions : Hook → MergeFn) {visible : Key → Option Record}
    (hvisible : ∀ key, objects.visible target r.db key = .ok (visible key))
    (kind : Client.WriteKind) :
    objects.written functions store r kind =
      ((db.settle functions visible r kind).1.bind fun asked =>
        objects.write target ⟨r.db, asked.1⟩ asked.2, (db.settle functions visible r kind).2) := by
  unfold Database.settle
  cases kind with
  | put =>
    unfold written
    rw [putRow_eq ht hdb]
    cases db.keyOf r <;> rfl
  | delete =>
    unfold written
    rw [deleteRow_eq ht hdb]
    cases db.keyOf r <;> rfl
  | upsert =>
    cases hhook : db.hook? with
    | none => rw [written_of_hook_none ht hdb hhook]; rfl
    | some hook =>
      cases hkey : db.keyOf r with
      | error refusal =>
        unfold written
        rw [mergeOf_eq ht hdb hhook, hkey]
        rfl
      | ok key =>
        rw [written_upsert ht hdb hhook hkey (hvisible key) rfl rfl]
        dsimp only
        cases db.accept _ <;> rfl

/-! ### Lookups -/

theorem lookupRow_eq : objects.lookupRow store r = (do
    match ← objects.visible target r.db (← db.keyOf r) with
    | none => return (none, objects)
    | some record =>
      return (some (objects.issued + 1), (objects.add (.row (db.rowOf r.db record))).2)) := by
  unfold lookupRow
  rw [ht, database_eq_ok.2 hdb]
  rfl

end Written

theorem lookupRow_of_target_error {store : Handle} {refusal : Refusal}
    (ht : objects.target store r = .error refusal) :
    objects.lookupRow store r = .error refusal := by
  unfold lookupRow
  rw [ht]
  rfl

end Objects

theorem consume_eq {α : Type} {row : Handle} (hrow : engine.objects.table.get? row = some (.row r))
    (primitive : Row → Objects → Except Refusal (α × Objects)) :
    engine.consume row primitive =
      { engine with objects := engine.objects.remove row }.attempt
        (primitive r (engine.objects.remove row)) := by
  unfold consume
  rw [Objects.row_eq_ok.2 hrow]

/-- A write is decided on the objects without its row. -/
theorem step_write (functions : Hook → MergeFn) {store row : Handle}
    (hrow : engine.objects.table.get? row = some (.row r)) (kind : Client.WriteKind) :
    engine.step functions (kind.action store row) =
      { engine with
        objects := engine.objects.remove row
        journal := engine.journal ++
          ((engine.objects.remove row).written functions store r kind).2 }.attemptFlag
        ((engine.objects.remove row).written functions store r kind).1 := by
  cases kind with
  | put =>
    show engine.put store row = _
    unfold put
    rw [consume_eq hrow, show Objects.written functions _ store r .put = (_, []) from rfl,
      List.append_nil]
    rfl
  | delete =>
    show engine.delete store row = _
    unfold delete
    rw [consume_eq hrow, show Objects.written functions _ store r .delete = (_, []) from rfl,
      List.append_nil]
    rfl
  | upsert =>
    show engine.upsert functions store row = _
    unfold upsert Objects.written
    rw [Objects.row_eq_ok.2 hrow]
    dsimp only
    cases (engine.objects.remove row).mergeOf store r with
    | error refusal =>
      dsimp only
      rw [List.append_nil]
      rfl
    | ok merge => rfl

/-- A lookup is decided on the objects without its row. -/
theorem lookup_eq {row : Handle} (hrow : engine.objects.table.get? row = some (.row r))
    (store : Handle) :
    engine.lookup store row =
      match (engine.objects.remove row).lookupRow store r with
      | .ok (found, objects) => (found, { engine with objects, diagnostic? := none })
      | .error refusal =>
        (none, { engine with
          objects := engine.objects.remove row
          diagnostic? := some refusal }) := by
  unfold lookup
  rw [consume_eq hrow]
  rcases (engine.objects.remove row).lookupRow store r with refusal | ⟨_ | found, objects⟩ <;> rfl

/-! ### What a primitive leaves -/

theorem attemptFlag_fst (result : Except Refusal Objects) :
    (engine.attemptFlag result).1 = result.isOk := by
  cases result <;> rfl

theorem attemptFlag_objects (result : Except Refusal Objects) :
    (engine.attemptFlag result).2.objects = result.toOption.getD engine.objects := by
  cases result <;> rfl

theorem attemptFlag_journal (result : Except Refusal Objects) :
    (engine.attemptFlag result).2.journal = engine.journal := by
  cases result <;> rfl

theorem inquire_journal {α : Type} (result : Except Refusal (Option α)) :
    (engine.inquire result).2.journal = engine.journal := by
  cases result <;> rfl

end RowStore.Engine
