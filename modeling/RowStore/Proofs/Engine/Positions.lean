/-
# Fields by position

A merge function knows the fields of a row by their positions only, while rows hold their cells under
names. An upsert hands it, in position `i`, the image of the cell that the row holds in the `i`th field,
and of the cell that a lookup in place of the upsert would find there; and what the merge function leaves
in position `i` is found in that field by a lookup afterwards. It takes two things: names of fields are
told apart, and a record has a cell for each field, which is so for everything that is stored in any state
that calls lead to.

Key definitions: `Engine.Row.ShownBy`, `Engine.Row.MadeOf`, `Engine.Objects.found?`,
`Engine.Objects.Merge.ByPosition`.
Key theorems: `Engine.Reachable.whole`, `Engine.Objects.found?_of_write`,
`Engine.Reachable.byPosition`.
-/
import RowStore.Proofs.Engine.Keyed
import RowStore.Proofs.Engine.Merging
import RowStore.Proofs.Engine.Isolation

namespace RowStore.Engine

open Client (WriteKind)

/-- The cell of a row in a field, the default of the field if it was not set. -/
def Row.cellIn (r : Row) (field : Field) : Cell :=
  (r.cells.get? field.name).getD (Cell.unset field.type)

/-- The images have a position for each field, with the image of the cell of the row in the field. -/
def Row.ShownBy (fields : List Field) (r : Row) (images : Images) : Prop :=
  ∀ i, images.bytes? i = fields[i]?.map fun field => (r.cellIn field).encode field.type

/-- The row holds in each field what the image in the position of the field stands for. -/
def Row.MadeOf (fields : List Field) (r : Row) (images : Images) : Prop :=
  ∀ i field, fields[i]? = some field → ∃ image cell, images.bytes? i = some image ∧
    Cell.decode? field.type image = some cell ∧ r.cells.get? field.name = some cell

/-- The row that a lookup finds under the key of a row. -/
def Objects.found? (objects : Objects) (store : Handle) (r : Row) : Option Row :=
  match objects.lookupRow store r with
  | .ok (some h, objects) => (objects.row h).toOption
  | _ => none

/-- The merge that an upsert of a row asks for goes by the positions of the fields: the merge function is
called with the images of the row, and of the row that a lookup finds if it finds one; and if the upsert is
carried out, a lookup finds what the merge function made of them. -/
structure Objects.Merge.ByPosition (fields : List Field) (engine : Engine) (store row : Handle)
    (r : Row) (merge : Merge) : Prop where
  called : ∀ functions, (engine.step functions (.upsert store row)).2.journal = engine.journal ++
    ((functions merge.hook).run merge.existing merge.incoming merge.incoming).journal
  incoming : r.ShownBy fields merge.incoming
  existing : Option.Rel (Row.ShownBy fields) ((engine.objects.remove row).found? store r)
    merge.existing
  result : ∀ functions after, engine.step functions (.upsert store row) = (true, after) →
    ∃ found, after.objects.found? store r = some found ∧ found.MadeOf fields
      ((functions merge.hook).run merge.existing merge.incoming merge.incoming).result

/-! ### Images of rows -/

namespace Database

variable {db : Database} {record : Record} {images : Images}

/-- The images of the record that a row makes. -/
theorem encode_recordOf (db : Database) (r : Row) : db.encode (db.recordOf r) =
    db.fields.map fun field => (r.cellIn field).encode field.type := by
  unfold encode recordOf
  rw [← List.map_prod_left_eq_zip, List.map_map]
  rfl

theorem shownBy_encode (db : Database) (r : Row) :
    r.ShownBy db.fields (db.encode (db.recordOf r)) := by
  intro i
  rw [Images.bytes?, encode_recordOf, List.getElem?_map]

/-- The images of a record are those of its row. -/
theorem rowOf_shownBy (hn : (db.fields.map (·.name)).Nodup)
    (hlength : record.length = db.fields.length) (d : Handle) :
    (db.rowOf d record).ShownBy db.fields (db.encode record) := by
  have hshown := db.shownBy_encode (db.rowOf d record)
  rwa [recordOf_rowOf hn hlength] at hshown

/-- The row of a record is made of the images that stand for the record. -/
theorem rowOf_madeOf (hn : (db.fields.map (·.name)).Nodup)
    (hlength : images.length = db.fields.length) (hdecode : db.decode images = .ok record)
    (d : Handle) : (db.rowOf d record).MadeOf db.fields images := by
  intro i field hfield
  have hrecord := length_decode hlength hdecode
  obtain ⟨hi, rfl⟩ := List.getElem?_eq_some_iff.1 hfield
  have hzip : i < (db.fields.zip images).length := by
    rw [List.length_zip]
    omega
  have hcell := (decode_eq_ok_iff.1 hdecode).get hzip (hrecord ▸ hi)
  simp only [List.get_eq_getElem, List.getElem_zip] at hcell
  refine ⟨images[i], record[i], List.getElem?_eq_getElem (hlength ▸ hi), hcell, ?_⟩
  exact rowOf_get?_of_getElem? hn hrecord hfield (List.getElem?_eq_getElem (hrecord ▸ hi)) d

end Database

/-! ### Records have a cell for each field -/

/-- What is written has a cell for each field. -/
def WholeWrite (fields : List Field) (_ : Key) (record? : Option Record) : Prop :=
  ∀ record, record? = some record → record.length = fields.length

/-- A write of a row makes a record with a cell for each field. -/
theorem Objects.Writing.whole {functions : Hook → MergeFn} {objects : Objects} {store : Handle}
    {r : Row} {kind : WriteKind} {target : Store} {db : Database} {key : Key}
    {record? : Option Record} (hw : Writing functions objects store r kind target db key record?) :
    WholeWrite db.fields key record? := by
  intro record hrecord
  cases hw.makes with
  | put =>
    cases hrecord
    exact db.length_recordOf r
  | delete => cases hrecord
  | upsert _ _ haccept =>
    cases hrecord
    exact Database.length_decode (Database.length_run_encode _ _ r)
      (Database.accept_eq_ok_iff.1 haccept).2

/-- Everything that is stored in a state that calls lead to has a cell for each field. -/
theorem Reachable.whole {engine : Engine} (h : engine.Reachable) :
    engine.objects.Holds WholeWrite := by
  induction h with
  | start => exact ⟨nofun, nofun⟩
  | step functions action hr ih =>
    exact ih.of_changes hr.sound (fun _ _ _ _ _ _ _ _ _ _ hw => hw.whole)
      (changes_step hr.sound functions action)

namespace Objects

variable {objects objects' : Objects} {store : Handle} {r : Row} {db : Database} {target : Store}
  {key : Key} {record? : Option Record}

/-! ### Lookups -/

/-- A lookup finds the row of the record that is visible. -/
theorem found?_eq (htarget : objects.target store r = .ok target)
    (hdb : objects.table.get? r.db = some (.database db)) (hkey : db.keyOf r = .ok key)
    (hvisible : objects.visible target r.db key = .ok record?) :
    objects.found? store r = record?.map (db.rowOf r.db) := by
  unfold found?
  rw [lookupRow_eq htarget hdb, hkey]
  dsimp only [bind, Except.bind]
  rw [hvisible]
  cases record? with
  | none => rfl
  | some record =>
    have hadded : (objects.add (.row (db.rowOf r.db record))).2.row (objects.issued + 1) =
        .ok (db.rowOf r.db record) := row_eq_ok.2 ((get?_add ..).trans (if_pos rfl))
    exact congrArg Except.toOption hadded

/-- Where only one object has changed, which was no environment and is none, the same environments are
opened. -/
theorem ensureOpened_put {h e : Handle} {old object : Object}
    (hopen : objects.ensureOpened e = .ok ()) (hold : objects.table.get? h = some old)
    (hne : ∀ env, old ≠ .environment env) : (objects.put h object).ensureOpened e = .ok () := by
  obtain ⟨env, henv, hopened⟩ := ensureOpened_eq_ok.1 hopen
  refine ensureOpened_eq_ok.2 ⟨env, ?_, hopened⟩
  rw [get?_put, if_neg, henv]
  rintro rfl
  rw [hold] at henv
  exact hne env (Option.some.inj henv)

/-- After a write of a row a lookup finds what was written. -/
theorem found?_of_write (htarget : objects.target store r = .ok target)
    (hdb : objects.table.get? r.db = some (.database db)) (hkey : db.keyOf r = .ok key)
    (hmade : objects.write target ⟨r.db, key⟩ record? = .ok objects') :
    objects'.found? store r = record?.map (db.rowOf r.db) := by
  obtain ⟨db', hdb', hopen, hgoes⟩ := target_eq_ok.1 htarget
  rw [hdb] at hdb'
  cases hdb'
  rcases hgoes with ⟨rfl, rfl⟩ | ⟨rfl, tx, htx⟩
  · have hobjects : objects.write (.database r.db) ⟨r.db, key⟩ record? = .ok _ :=
      writeThrough_eq hdb record?
    cases hobjects.symm.trans hmade
    have hwritten : (objects.put r.db (.database { db with
        records := writtenRecords db.records key record? })).table.get? r.db = some _ :=
      (get?_put ..).trans (if_pos rfl)
    have hgoes := target_eq_ok.2
      ⟨_, hwritten, ensureOpened_put hopen hdb nofun, .inl ⟨rfl, rfl⟩⟩
    have hvisible := visible_database (h := r.db) hwritten key
    rw [get?_writtenRecords, if_pos rfl] at hvisible
    -- The key and the row of a record go by the fields, which are the same.
    have hfound := found?_eq hgoes hwritten hkey hvisible
    exact hfound
  · obtain ⟨tx', htx', hobjects⟩ := bind_eq_ok.1 hmade
    rw [transaction_eq_ok, htx] at htx'
    cases htx'
    cases hobjects
    have hne : r.db ≠ store := by
      intro heq
      rw [← heq, hdb] at htx
      cases htx
    have hput : ∀ h, (objects.put store (.transaction { tx with
        writes := tx.writes.insert ⟨r.db, key⟩ record? })).table.get? h =
          if h = store then some _ else objects.table.get? h := fun h => get?_put ..
    have hwritten := (hput store).trans (if_pos rfl)
    have hsame := ((hput r.db).trans (if_neg hne)).trans hdb
    refine found?_eq (target_eq_ok.2 ⟨db, hsame, ensureOpened_put hopen htx nofun,
      .inr ⟨rfl, _, hwritten⟩⟩) hsame hkey ?_
    rw [visible_transaction hsame hwritten, Table.get?_insert, if_pos rfl, Option.getD_some]

end Objects

/-! ### Upserts -/

/-- The merge that an upsert asks for goes by the positions of the fields, if their names are told
apart. -/
theorem Reachable.byPosition {engine : Engine} (hr : engine.Reachable) {store row : Handle} {r : Row}
    {db : Database} {merge : Objects.Merge} (hrow : engine.objects.table.get? row = some (.row r))
    (hdb : engine.objects.table.get? r.db = some (.database db))
    (hn : (db.fields.map (·.name)).Nodup)
    (hasks : (engine.objects.remove row).mergeOf store r = .ok merge) :
    merge.ByPosition db.fields engine store row r := by
  have hdb' : (engine.objects.remove row).table.get? r.db = some (.database db) :=
    Objects.get?_remove_row (Objects.row_eq_ok.2 hrow) hdb nofun
  obtain ⟨target, hook, key, existing, htarget, hhook, hkey, hvisible, rfl⟩ :=
    (Objects.mergeOf_eq_ok hdb').1 hasks
  refine ⟨fun functions => ?_, db.shownBy_encode r, ?_, fun functions after hstep => ?_⟩
  · have hwritten : engine.step functions (.upsert store row) = _ := step_write functions hrow .upsert
    rw [hwritten, attemptFlag_journal]
    unfold Objects.written
    rw [hasks]
  · rw [Objects.found?_eq htarget hdb' hkey hvisible]
    cases existing with
    | none => exact .none
    | some record =>
      have hwhole := (hr.whole.remove hr.sound row).visible hdb' hvisible record rfl
      exact .some (Database.rowOf_shownBy hn hwhole r.db)
  · have hwritten : engine.step functions (.upsert store row) = _ := step_write functions hrow .upsert
    rw [hstep] at hwritten
    obtain ⟨target', db', key', record?, hwriting, hmade⟩ :=
      Objects.written_eq_ok.1 (attemptFlag_eq_true hwritten.symm)
    cases htarget.symm.trans hwriting.goes
    cases hdb'.symm.trans hwriting.live
    cases hkey.symm.trans hwriting.keyed
    cases hwriting.makes with
    | @upsert hook' existing' record hhook' hvisible' haccept =>
      cases hhook.symm.trans hhook'
      cases hvisible.symm.trans hvisible'
      obtain ⟨-, hdecode⟩ := Database.accept_eq_ok_iff.1 haccept
      refine ⟨_, Objects.found?_of_write htarget hdb' hkey hmade, ?_⟩
      exact Database.rowOf_madeOf hn (Database.length_run_encode _ _ r) hdecode r.db

end RowStore.Engine
