/-
# What calls do to the objects

Only a write of a row and a commit store anything. A write of a row makes one write, under the key of
the row: a record or a deletion. A commit makes the writes that are pending. Every other call moves the
objects: it adds some that store nothing, replaces some by others of their like, and removes some. A
cursor changes only if a fetch advances it, and objects other than rows go only if they, or their
environment, are destroyed.

Key definitions: `Engine.Objects.Makes`, `Engine.Objects.Writing`, `Engine.Objects.Moves`,
`Engine.Objects.Changes`, `Engine.Request`, `Engine.run`.
Key theorems: `Engine.Objects.written_eq_ok`, `Engine.changes_step`.
-/
import RowStore.Merge.Program
import RowStore.Proofs.Engine.Points

namespace RowStore.Engine

open Client (WriteKind)

/-- An object that stores nothing. -/
def Object.IsEmpty : Object → Prop
  | .database db => db.records.entries = []
  | .transaction tx => tx.writes.entries = []
  | _ => True

/-- A row that a row can be later on: one of the same database, with no cell less. -/
structure Row.Grows (r r' : Row) : Prop where
  db : r'.db = r.db
  set : ∀ name, (r.cells.get? name).isSome → (r'.cells.get? name).isSome

/-- An object that can stand for another: what is stored, the fields and the environment are the
same, and a row has no cell less. -/
def Object.Like : Object → Object → Prop
  | .environment _, .environment _ => True
  | .database db, .database db' =>
    db'.env = db.env ∧ db'.fields = db.fields ∧ db'.records = db.records
  | .row r, .row r' => r.Grows r'
  | .cursor c, .cursor c' => c'.env = c.env
  | _, _ => False

/-- An object that can go on its own: a row, or a cursor or transaction that is destroyed. -/
def Object.IsLoose (destroyed : Prop) : Object → Prop
  | .row _ => True
  | .cursor _ => destroyed
  | .transaction _ => destroyed
  | _ => False

theorem Row.grows_insert (r : Row) (name : String) (cell : Cell) :
    r.Grows { r with cells := r.cells.insert name cell } where
  db := rfl
  set name' hset := by
    rw [Table.get?_insert]
    split
    · rfl
    · exact hset

namespace Objects

variable {objects objects' : Objects} {h store : Handle} {r : Row} {db : Database} {target : Store}
  {key : Key} {record? : Option Record} {functions : Hook → MergeFn} {kind : WriteKind}

/-! ### Writes of a row -/

/-- The record that a write of a row makes, `none` for a deletion. -/
inductive Makes (functions : Hook → MergeFn) (objects : Objects) (target : Store) (r : Row)
    (db : Database) (key : Key) : WriteKind → Option Record → Prop where
  | put : Makes functions objects target r db key .put (some (db.recordOf r))
  | delete : Makes functions objects target r db key .delete none
  | upsert {hook : Hook} {existing : Option Record} {record : Record} (merges : db.hook? = some hook)
    (visible : objects.visible target r.db key = .ok existing)
    (accepts : db.accept ((functions hook).run (existing.map db.encode) (db.encode (db.recordOf r))
      (db.encode (db.recordOf r))) = .ok record) :
    Makes functions objects target r db key .upsert (some record)

/-- A row that was taken is written: it goes to the target, and its database has its key and makes
the record. -/
structure Writing (functions : Hook → MergeFn) (objects : Objects) (store : Handle) (r : Row)
    (kind : WriteKind) (target : Store) (db : Database) (key : Key) (record? : Option Record) :
    Prop where
  goes : objects.target store r = .ok target
  live : objects.table.get? r.db = some (.database db)
  keyed : db.keyOf r = .ok key
  makes : Makes functions objects target r db key kind record?

/-- A row that goes somewhere has a live database. -/
theorem database_of_target (ht : objects.target store r = .ok target) :
    ∃ db, objects.table.get? r.db = some (.database db) := by
  obtain ⟨db, hdb, -⟩ := bind_eq_ok.1 ht
  exact ⟨db, database_eq_ok.1 hdb⟩

/-- A row can be written where it goes. -/
theorem write_of_target (ht : objects.target store r = .ok target) (key : Key)
    (record? : Option Record) :
    ∃ objects', objects.write target ⟨r.db, key⟩ record? = .ok objects' := by
  obtain ⟨db, hdb⟩ := database_of_target ht
  obtain ⟨_, -, ht⟩ := bind_eq_ok.1 ht
  obtain ⟨⟨⟩, -, ht⟩ := bind_eq_ok.1 ht
  obtain ⟨goal, hstore, ht⟩ := bind_eq_ok.1 ht
  cases goal with
  | database own =>
    dsimp only at ht
    split at ht
    · cases ht
      exact ⟨_, bind_eq_ok.2 ⟨db, database_eq_ok.2 hdb, rfl⟩⟩
    · simp at ht
  | transaction t =>
    cases ht
    obtain ⟨object, hobject, hstore⟩ := bind_eq_ok.1 hstore
    rw [find_eq_ok] at hobject
    cases object with
    | transaction tx =>
      cases hstore
      exact ⟨_, bind_eq_ok.2 ⟨tx, transaction_eq_ok.2 hobject, rfl⟩⟩
    | environment _ => cases hstore
    | database _ => cases hstore
    | row _ => cases hstore
    | cursor _ => cases hstore

/-- There is always an answer to what is seen of a live database. -/
theorem visible_of_database (hdb : objects.table.get? h = some (.database db)) (target : Store)
    (key : Key) : ∃ existing, objects.visible target h key = .ok existing := by
  unfold visible
  split
  · exact ⟨_, rfl⟩
  · rw [database_eq_ok.2 hdb]
    exact ⟨_, rfl⟩

/-- A write of a row that succeeds makes one write, under the key of the row. -/
theorem written_eq_ok : (objects.written functions store r kind).1 = .ok objects' ↔
    ∃ target db key record?, Writing functions objects store r kind target db key record? ∧
      objects.write target ⟨r.db, key⟩ record? = .ok objects' := by
  constructor
  · intro hw
    cases ht : objects.target store r with
    | error refusal =>
      rw [written_of_target_error ht] at hw
      cases hw
    | ok target =>
      obtain ⟨db, hdb⟩ := database_of_target ht
      cases hkey : db.keyOf r with
      | error refusal =>
        obtain ⟨refusal', hwritten⟩ := written_of_key_error ht hdb functions hkey kind
        rw [hwritten] at hw
        cases hw
      | ok key =>
        cases kind with
        | put =>
          rw [written_put ht hdb hkey] at hw
          exact ⟨target, db, key, _, ⟨ht, hdb, hkey, .put⟩, hw⟩
        | delete =>
          rw [written_delete ht hdb hkey] at hw
          exact ⟨target, db, key, _, ⟨ht, hdb, hkey, .delete⟩, hw⟩
        | upsert =>
          cases hhook : db.hook? with
          | none =>
            rw [written_of_hook_none ht hdb hhook] at hw
            cases hw
          | some hook =>
            obtain ⟨existing, hvisible⟩ := visible_of_database hdb target key
            rw [written_upsert ht hdb hhook hkey hvisible rfl rfl] at hw
            obtain ⟨record, haccept, hw⟩ := bind_eq_ok.1 hw
            exact ⟨target, db, key, _, ⟨ht, hdb, hkey, .upsert hhook hvisible haccept⟩, hw⟩
  · rintro ⟨target, db, key, record?, ⟨ht, hdb, hkey, hmakes⟩, hw⟩
    cases hmakes with
    | put => rw [written_put ht hdb hkey, hw]
    | delete => rw [written_delete ht hdb hkey, hw]
    | upsert hhook hvisible haccept =>
      rw [written_upsert ht hdb hhook hkey hvisible rfl rfl]
      exact bind_eq_ok.2 ⟨_, haccept, hw⟩

/-! ### Moves -/

/-- What calls that store nothing can make of the objects, by the handles that they advance, those
that they destroy, and the objects that they make. -/
inductive Moves (advances destroys : Handle → Prop) (makes : Object → Prop) (objects : Objects) :
    Objects → Prop where
  | refl : Moves advances destroys makes objects objects
  | add {objects' : Objects} {object : Object} (moves : Moves advances destroys makes objects objects')
    (empty : object.IsEmpty) (made : makes object) :
    Moves advances destroys makes objects (objects'.add object).2
  | put {objects' : Objects} {h : Handle} {old object : Object}
    (moves : Moves advances destroys makes objects objects') (live : objects'.table.get? h = some old)
    (like : old.Like object) (advanced : ∀ c, old = .cursor c → advances h) :
    Moves advances destroys makes objects (objects'.put h object)
  | remove {objects' : Objects} {h : Handle} {object : Object}
    (moves : Moves advances destroys makes objects objects')
    (live : objects'.table.get? h = some object) (loose : object.IsLoose (destroys h)) :
    Moves advances destroys makes objects (objects'.remove h)
  | destroy {objects' : Objects} {h : Handle} (moves : Moves advances destroys makes objects objects')
    (destroyed : destroys h) : Moves advances destroys makes objects { objects' with
      table := objects'.table.filter fun h' object => objects'.owner? h' object != some h }

variable {advances destroys : Handle → Prop} {makes : Object → Prop}

theorem Moves.trans {objects'' : Objects} (hm : Moves advances destroys makes objects objects')
    (hm' : Moves advances destroys makes objects' objects'') :
    Moves advances destroys makes objects objects'' := by
  induction hm' with
  | refl => exact hm
  | add _ hempty hmade ih => exact ih.add hempty hmade
  | put _ hlive hlike hadvanced ih => exact ih.put hlive hlike hadvanced
  | remove _ hlive hloose ih => exact ih.remove hlive hloose
  | destroy _ hdestroyed ih => exact ih.destroy hdestroyed

theorem moves_removeRow {row : Handle} (hrow : objects.row row = .ok r) :
    Moves advances destroys makes objects (objects.remove row) :=
  .remove .refl (row_eq_ok.1 hrow) trivial

/-- What is live stays so when an object is added. -/
theorem Sound.get?_add (hs : objects.Sound) {object : Object}
    (hget : objects.table.get? h = some object) (new : Object) :
    (objects.add new).2.table.get? h = some object := by
  rw [Objects.get?_add, if_neg, hget]
  rintro rfl
  rw [hs.fresh] at hget
  cases hget

theorem moves_assign {name : String} {cell : Cell} {cellOf : Row → Except Refusal Cell}
    (hr : objects.assign h name cell cellOf = .ok objects') :
    Moves advances destroys makes objects objects' := by
  obtain ⟨env, hget, rfl⟩ | ⟨row, made, hget, -, rfl⟩ := assign_eq_ok.1 hr
  · exact .put .refl hget trivial nofun
  · exact .put .refl hget (row.grows_insert name made) nofun

/-- What a declaration under a proper name does. -/
theorem declare_eq {name : String} (hname : (name.isEmpty || name.contains '.') = false)
    (objects : Objects) (h : Handle) (fields : List Field) : objects.declare h name fields = (do
      let env ← objects.environment h
      if env.databases.contains name then throw (.duplicateDatabase name)
      if !fields.any (·.isKey) then throw (.noKeyFields name)
      let ordered := fields.filter (·.isKey) ++ fields.filter (!·.isKey)
      let (db, objects) := objects.add (.database { env := h, name, fields := ordered })
      return objects.put h (.environment { env with databases := env.databases.insert name db })) := by
  unfold declare
  rw [hname]
  rfl

theorem moves_declare (hs : objects.Sound) {name : String} {fields : List Field}
    (hmakes : ∀ db : Database, db.env = h → makes (.database db))
    (hr : objects.declare h name fields = .ok objects') :
    Moves advances destroys makes objects objects' := by
  unfold declare at hr
  dsimp only at hr
  split at hr
  · cases hr
  obtain ⟨env, henv, hr⟩ := bind_eq_ok.1 hr
  split at hr
  · cases hr
  split at hr
  · cases hr
  cases hr
  have hlive := hs.get?_add (environment_eq_ok.1 henv)
  exact .put (.add .refl rfl (hmakes _ rfl)) (hlive _) trivial fun c hc => by cases hc

theorem moves_installHook {hook : Hook} (hr : objects.installHook h hook = .ok objects') :
    Moves advances destroys makes objects objects' := by
  obtain ⟨db, hdb, hr⟩ := bind_eq_ok.1 hr
  cases hr
  exact .put .refl (database_eq_ok.1 hdb) ⟨rfl, rfl, rfl⟩ nofun

theorem moves_openEnvironment (hr : objects.openEnvironment h = .ok objects') :
    Moves advances destroys makes objects objects' := by
  obtain ⟨env, henv, hr⟩ := bind_eq_ok.1 hr
  split at hr
  · cases hr
  · cases hr
    exact .put .refl (environment_eq_ok.1 henv) trivial nofun

theorem moves_destroy (hr : objects.destroy h = .ok objects') :
    Moves advances (· = h) makes objects objects' := by
  obtain ⟨env, -, rfl⟩ | ⟨object, hget, hnone, rfl⟩ := destroy_eq_ok.1 hr
  · exact .destroy .refl rfl
  · refine .remove .refl hget ?_
    cases object with
    | row _ => exact trivial
    | cursor _ => exact rfl
    | transaction _ => exact rfl
    | _ => cases hnone

theorem moves_newRow {row : Handle} (hmakes : makes (.row { db := h }))
    (hr : objects.newRow h = .ok (row, objects')) :
    Moves advances destroys makes objects objects' := by
  obtain ⟨db, -, hr⟩ := bind_eq_ok.1 hr
  cases hr
  exact .add .refl trivial hmakes

theorem moves_newCursor {c : Handle} (hmakes : makes (.cursor { env := h }))
    (hr : objects.newCursor h = .ok (c, objects')) :
    Moves advances destroys makes objects objects' := by
  obtain ⟨env, -, hr⟩ := bind_eq_ok.1 hr
  cases hr
  exact .add .refl trivial hmakes

theorem moves_begin {t : Handle} (hmakes : makes (.transaction { env := h }))
    (hr : objects.begin h = .ok (t, objects')) :
    Moves advances destroys makes objects objects' := by
  obtain ⟨⟨⟩, -, hr⟩ := bind_eq_ok.1 hr
  cases hr
  exact .add .refl rfl hmakes

theorem moves_lookupRow {found : Option Handle} (hmakes : ∀ r, makes (.row r))
    (hr : objects.lookupRow store r = .ok (found, objects')) :
    Moves advances destroys makes objects objects' := by
  obtain ⟨target, -, hr⟩ := bind_eq_ok.1 hr
  obtain ⟨db, -, hr⟩ := bind_eq_ok.1 hr
  obtain ⟨key, -, hr⟩ := bind_eq_ok.1 hr
  obtain ⟨record?, -, hr⟩ := bind_eq_ok.1 hr
  cases record? with
  | none =>
    cases hr
    exact .refl
  | some record =>
    cases hr
    exact .add .refl trivial (hmakes _)

theorem moves_advance (hs : objects.Sound) (hmakes : ∀ r, makes (.row r)) {cursor : Cursor}
    (hcursor : objects.table.get? h = some (.cursor cursor)) (seek : Seek) :
    Moves (· = h) destroys makes objects (objects.advance h cursor seek).2 := by
  unfold advance
  split
  · exact .put .refl hcursor rfl fun _ _ => rfl
  · split
    · exact .put .refl hcursor rfl fun _ _ => rfl
    · exact .put (.add .refl trivial (hmakes _)) (hs.get?_add hcursor _) rfl fun _ _ => rfl

theorem moves_fetchNext (hs : objects.Sound) (hmakes : ∀ r, makes (.row r)) (h : Handle) (r : Row) :
    Moves (· = h) destroys makes objects (objects.fetchNext h r).2 := by
  unfold fetchNext
  split
  · exact .refl
  · next cursor hcursor =>
    rw [cursor_eq_ok] at hcursor
    split
    · exact .refl
    · exact moves_advance hs hmakes hcursor _
    · split
      · exact .refl
      · exact moves_advance hs hmakes hcursor _

end Objects

/-- The cursors that a call advances. -/
def Action.advances : Action kind → Handle → Prop
  | .fetchNext cursor _, h => h = cursor
  | _, _ => False

/-- The objects that a call destroys, with what they own. -/
def Action.destroys : Action kind → Handle → Prop
  | .destroy h, h' => h' = h
  | _, _ => False

/-- The objects that a call makes. -/
def Action.makes : Action kind → Object → Prop
  | .newEnvironment, .environment _ => True
  | .declare env _ _, .database db => db.env = env
  | .newRow db, .row r => r.db = db
  | .lookup _ _, .row _ => True
  | .newCursor env, .cursor c => c.env = env
  | .fetchNext _ _, .row _ => True
  | .begin env, .transaction tx => tx.env = env
  | _, _ => False

namespace Objects

/-- What a call can make of the objects. -/
inductive Changes (functions : Hook → MergeFn) (objects : Objects) :
    {kind : AnswerKind} → Action kind → Objects → Prop where
  /-- Nothing more is stored. -/
  | moved {kind : AnswerKind} {action : Action kind} {objects' : Objects}
    (moves : Moves action.advances action.destroys action.makes objects objects') :
    Changes functions objects action objects'
  /-- A row is written. -/
  | written {kind : WriteKind} {store row : Handle} {r : Row} {target : Store} {db : Database}
    {key : Key} {record? : Option Record} {objects' : Objects}
    (taken : objects.table.get? row = some (.row r))
    (writing : Writing functions (objects.remove row) store r kind target db key record?)
    (made : (objects.remove row).write target ⟨r.db, key⟩ record? = .ok objects') :
    Changes functions objects (kind.action store row) objects'
  /-- What is pending is written, as far as it can be. -/
  | committed {t : Handle} {tx : Transaction}
    (pending : objects.table.get? t = some (.transaction tx)) :
    Changes functions objects (.commit t) (writeAll tx.writes.entries (objects.remove t)).2

end Objects

/-! ### Calls -/

section Calls

variable {engine : Engine} {advances destroys : Handle → Prop} {makes : Object → Prop}

open Objects (Moves)

theorem moves_attempt {α : Type} {result : Except Refusal (α × Objects)}
    (hr : ∀ a objects, result = .ok (a, objects) →
      Moves advances destroys makes engine.objects objects) :
    Moves advances destroys makes engine.objects (engine.attempt result).2.objects := by
  cases result with
  | error refusal => exact .refl
  | ok r => exact hr r.1 r.2 rfl

theorem moves_attemptFlag {result : Except Refusal Objects}
    (hr : ∀ objects, result = .ok objects → Moves advances destroys makes engine.objects objects) :
    Moves advances destroys makes engine.objects (engine.attemptFlag result).2.objects := by
  cases result with
  | error refusal => exact .refl
  | ok objects => exact hr objects rfl

theorem moves_inquire {α : Type} (result : Except Refusal (Option α)) :
    Moves advances destroys makes engine.objects (engine.inquire result).2.objects := by
  rw [inquire_objects]
  exact .refl

theorem moves_getBytes (h : Handle) (name : String) :
    Moves advances destroys makes engine.objects (engine.getBytes h name).2.objects := by
  unfold getBytes
  split
  · exact .refl
  · exact moves_inquire _

theorem moves_lookup (hmakes : ∀ r, makes (.row r)) (store row : Handle) :
    Moves advances destroys makes engine.objects (engine.lookup store row).2.objects := by
  cases hrow : engine.objects.row row with
  | error refusal =>
    unfold lookup consume
    rw [hrow]
    exact .refl
  | ok r =>
    rw [lookup_eq (Objects.row_eq_ok.1 hrow)]
    cases hlookup : (engine.objects.remove row).lookupRow store r with
    | error refusal => exact Objects.moves_removeRow hrow
    | ok result => exact (Objects.moves_removeRow hrow).trans (Objects.moves_lookupRow hmakes hlookup)

theorem moves_fetchNext (hs : engine.objects.Sound) (hmakes : ∀ r, makes (.row r))
    (cursor row : Handle) :
    Moves (· = cursor) destroys makes engine.objects (engine.fetchNext cursor row).2.objects := by
  unfold fetchNext
  split
  · exact .refl
  · next r hrow =>
    have hfetch : Moves (· = cursor) destroys makes engine.objects
        ((engine.objects.remove row).fetchNext cursor r).2 :=
      (Objects.moves_removeRow hrow).trans (Objects.moves_fetchNext (hs.removeRow hrow) hmakes cursor r)
    split <;> next hresult => rw [hresult] at hfetch; exact hfetch

/-- A write of a row that is not live changes nothing. -/
theorem step_write_of_error (functions : Hook → MergeFn) {row : Handle} {refusal : Refusal}
    (hrow : engine.objects.row row = .error refusal) (kind : WriteKind) (store : Handle) :
    engine.step functions (kind.action store row) =
      (false, { engine with diagnostic? := some refusal }) := by
  cases kind with
  | put =>
    show engine.put store row = _
    unfold put consume
    rw [hrow]
    rfl
  | delete =>
    show engine.delete store row = _
    unfold delete consume
    rw [hrow]
    rfl
  | upsert =>
    show engine.upsert functions store row = _
    unfold upsert
    rw [hrow]

theorem changes_write (functions : Hook → MergeFn) (kind : WriteKind) (store row : Handle) :
    engine.objects.Changes functions (kind.action store row)
      (engine.step functions (kind.action store row)).2.objects := by
  cases hrow : engine.objects.row row with
  | error refusal =>
    rw [step_write_of_error functions hrow]
    exact .moved .refl
  | ok r =>
    rw [step_write functions (Objects.row_eq_ok.1 hrow), attemptFlag_objects]
    cases hwritten : ((engine.objects.remove row).written functions store r kind).1 with
    | error refusal => exact .moved (Objects.moves_removeRow hrow)
    | ok objects =>
      obtain ⟨target, db, key, record?, hwriting, hmade⟩ := Objects.written_eq_ok.1 hwritten
      exact .written (Objects.row_eq_ok.1 hrow) hwriting hmade

theorem changes_commit (functions : Hook → MergeFn) (t : Handle) :
    engine.objects.Changes functions (.commit t) (engine.commit t).2.objects := by
  have hobjects : (engine.commit t).2.objects = (engine.objects.commit t).2 := by
    unfold commit
    split <;> next hresult => rw [hresult]
  rw [hobjects]
  unfold Objects.commit
  split
  · exact .moved .refl
  · next tx hchecked =>
    obtain ⟨tx', htx, hchecked⟩ := bind_eq_ok.1 hchecked
    obtain ⟨⟨⟩, -, hchecked⟩ := bind_eq_ok.1 hchecked
    obtain rfl : tx' = tx := Except.ok.inj hchecked
    exact .committed (Objects.transaction_eq_ok.1 htx)

/-- Only a write of a row and a commit store anything; every other call moves the objects. -/
theorem changes_step (hs : engine.objects.Sound) (functions : Hook → MergeFn) {kind : AnswerKind}
    (action : Action kind) :
    engine.objects.Changes functions action (engine.step functions action).2.objects := by
  cases action with
  | newEnvironment =>
    refine .moved (moves_attempt fun _ objects h => ?_)
    cases h
    exact .add .refl trivial trivial
  | setBytes h name bytes => exact .moved (moves_attemptFlag fun _ => Objects.moves_assign)
  | setWord h name w => exact .moved (moves_attemptFlag fun _ => Objects.moves_assign)
  | getBytes h name => exact .moved (moves_getBytes h name)
  | getWord h name => exact .moved (moves_inquire _)
  | resolve h path => exact .moved (moves_inquire _)
  | declare env name fields =>
    exact .moved (moves_attemptFlag fun _ => Objects.moves_declare hs fun _ => id)
  | installHook db hook => exact .moved (moves_attemptFlag fun _ => Objects.moves_installHook)
  | openEnvironment env =>
    exact .moved (moves_attemptFlag fun _ => Objects.moves_openEnvironment)
  | destroy h => exact .moved (moves_attemptFlag fun _ => Objects.moves_destroy)
  | newRow db => exact .moved (moves_attempt fun _ _ => Objects.moves_newRow rfl)
  | put store row => exact changes_write functions .put store row
  | upsert store row => exact changes_write functions .upsert store row
  | delete store row => exact changes_write functions .delete store row
  | lookup store row => exact .moved (moves_lookup (fun _ => trivial) store row)
  | newCursor env => exact .moved (moves_attempt fun _ _ => Objects.moves_newCursor rfl)
  | fetchNext cursor row => exact .moved (moves_fetchNext hs (fun _ => trivial) cursor row)
  | begin env => exact .moved (moves_attempt fun _ _ => Objects.moves_begin rfl)
  | commit tx => exact changes_commit functions tx

end Calls

/-! ### Runs -/

/-- A call, and the merge functions that are installed when it is made. -/
structure Request where
  functions : Hook → MergeFn
  {kind : AnswerKind}
  action : Action kind

/-- Carries out calls one after the other. -/
def run (engine : Engine) : List Request → Engine
  | [] => engine
  | request :: requests => (engine.step request.functions request.action).2.run requests

theorem run_append (engine : Engine) : ∀ requests requests' : List Request,
    engine.run (requests ++ requests') = (engine.run requests).run requests'
  | [], _ => rfl
  | _ :: requests, requests' => run_append _ requests requests'

theorem run_concat (engine : Engine) (requests : List Request) (request : Request) :
    engine.run (requests ++ [request]) =
      ((engine.run requests).step request.functions request.action).2 :=
  run_append engine requests [request]

theorem Reachable.run {engine : Engine} (h : Reachable engine) : ∀ requests : List Request,
    Reachable (engine.run requests)
  | [] => h
  | request :: requests => (h.step request.functions request.action).run requests

/-! ### A database of numbers -/

namespace Numbers

/-- Merge functions that leave the incoming row as it is. -/
def idle : Hook → MergeFn := fun _ => .ofActs []

/-- The key field of the database. -/
def number : Field := ⟨"number", .int .eight false, true⟩

/-- The calls that declare the database. -/
def declaring (functions : Hook → MergeFn) : List Request := [
  ⟨functions, .newEnvironment⟩, ⟨functions, .declare 1 "numbers" [number]⟩]

/-- The engine with the database declared. -/
def declared : Engine where
  objects := {
    issued := 2
    table := Table.ofList [
      (1, .environment { databases := Table.ofList [("numbers", 2)] }),
      (2, .database { env := 1, name := "numbers", fields := [number] })] }

theorem run_declaring (functions : Hook → MergeFn) (requests : List Request) :
    run {} (declaring functions ++ requests) = declared.run requests := by
  have h : ((newEnvironment {}).2.declare 1 "numbers" [number]).2 = declared := by
    unfold declare
    rw [Objects.declare_eq (by simp)]
    rfl
  rw [run_append, ← h]
  rfl

end Numbers

end RowStore.Engine
