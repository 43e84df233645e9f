/-
# Records that agree with their keys

A record is stored under a key, and it has key columns of its own. What puts and deletes store agrees:
the key and the record come from one row. An upsert stores what the merge function made of the images
under the key of the incoming row, and a merge function may edit the images of the key fields too. So
the records agree with their keys after every call of a run exactly if no merge function gave the key
images of an upsert that it accepted another meaning.

Key definitions: `Engine.Objects.Keyed`, `Engine.Objects.RewritesKey`.
Key theorems: `Engine.keyed_step_iff`, `Engine.keyed_run_iff`.
-/
import RowStore.Merge.Program
import RowStore.Proofs.Data.Words
import RowStore.Proofs.Engine.Contents

namespace RowStore

/-! ### Key columns -/

/-- The cells of the key fields. -/
def Record.keyCells (fields : List Field) (record : Record) : List Cell :=
  ((fields.zip record).filter (·.1.isKey)).map (·.2)

theorem filter_isKey_zip_cons {α : Type} (field : Field) (fields : List Field) (a : α)
    (as : List α) : ((field :: fields).zip (a :: as)).filter (·.1.isKey) =
      if field.isKey then (field, a) :: (fields.zip as).filter (·.1.isKey)
      else (fields.zip as).filter (·.1.isKey) := by
  rw [List.zip_cons_cons, List.filter_cons]

/-- A cell is determined by the part that it makes of a key. -/
theorem KeyPart.ofCell?_inj {type : FieldType} {x y : Cell} {part : KeyPart}
    (hx : KeyPart.ofCell? type x = some part) (hy : KeyPart.ofCell? type y = some part) : x = y := by
  rcases type with ⟨width, _ | _⟩ | _ <;> rcases x with v | b <;> rcases y with w | c <;>
    cases hx <;> cases hy <;> rfl

/-- If one record agrees with a key, another agrees with it exactly if it has the same key cells. -/
theorem Record.keyed_iff : ∀ {fields : List Field} {a b : Record} {key : Key},
    a.length = fields.length → b.length = fields.length → Record.Keyed fields key a →
      (Record.Keyed fields key b ↔ Record.keyCells fields b = Record.keyCells fields a)
  | [], a, b, key, _, _, hkeyed => iff_of_true hkeyed rfl
  | field :: fields, x :: a, y :: b, key, ha, hb, hkeyed => by
    have ih {key} (hkeyed : Record.Keyed fields key a) :=
      Record.keyed_iff (Nat.succ.inj ha) (Nat.succ.inj hb) hkeyed
    unfold Record.Keyed Record.keyCells at *
    rw [filter_isKey_zip_cons] at hkeyed ⊢
    rw [filter_isKey_zip_cons]
    split
    · next hfield =>
      rw [if_pos hfield] at hkeyed
      cases hkeyed with
      | cons hx hkeyed =>
        rw [List.forall₂_cons, List.map_cons, List.map_cons, List.cons.injEq, ih hkeyed]
        refine and_congr_left fun _ => ⟨fun hy => KeyPart.ofCell?_inj hy hx, ?_⟩
        rintro rfl
        exact hx
    · next hfield =>
      rw [if_neg hfield] at hkeyed
      exact ih hkeyed

namespace Engine

open Client (WriteKind)

namespace Database

variable {db : Database} {r : Row} {key : Key} {images : Images} {record : Record}

/-- What the images of the key fields stand for. -/
def keyCells (db : Database) (images : Images) : List (Option Cell) :=
  ((db.fields.zip images).filter (·.1.isKey)).map fun e => Cell.decode? e.1.type e.2

theorem decode_eq_ok_iff : db.decode images = .ok record ↔
    List.Forall₂ (fun e cell => Cell.decode? e.1.type e.2 = some cell)
      (db.fields.zip images) record := by
  unfold decode
  rw [mapM_eq_ok_iff]
  constructor <;> intro h <;> refine h.imp fun ⟨field, image⟩ cell hcell => ?_
  · dsimp only at hcell
    split at hcell
    · next hdecode =>
      cases hcell
      exact hdecode
    · simp at hcell
  · dsimp only at hcell ⊢
    rw [hcell]

theorem map_decode?_zip : ∀ {fields : List Field} {images : Images} {record : Record},
    List.Forall₂ (fun e cell => Cell.decode? e.1.type e.2 = some cell) (fields.zip images) record →
    images.length = fields.length →
    ((fields.zip images).filter (·.1.isKey)).map (fun e => Cell.decode? e.1.type e.2) =
      (Record.keyCells fields record).map some
  | [], _, _, _, _ => rfl
  | field :: fields, image :: images, cell :: record, .cons hcell h, hlength => by
    have ih := map_decode?_zip h (Nat.succ.inj hlength)
    unfold Record.keyCells at ih ⊢
    rw [filter_isKey_zip_cons, filter_isKey_zip_cons]
    split
    · rw [List.map_cons, hcell, ih]
      rfl
    · exact ih

/-- Images that stand for a record stand for its key cells. -/
theorem keyCells_of_decode (h : db.decode images = .ok record)
    (hlength : images.length = db.fields.length) :
    db.keyCells images = (Record.keyCells db.fields record).map some :=
  map_decode?_zip (decode_eq_ok_iff.1 h) hlength

theorem forall₂_decode?_encode {fields : List Field} (h : Record.Fits fields record) :
    List.Forall₂ (fun e cell => Cell.decode? e.1.type e.2 = some cell)
      (fields.zip ((fields.zip record).map fun e => e.2.encode e.1.type)) record := by
  unfold Record.Fits at h
  induction h with
  | nil => exact .nil
  | cons hcell _ ih => exact .cons (Cell.decode?_encode hcell) ih

/-- A record that fits the fields is what its images stand for. -/
theorem decode_encode (h : Record.Fits db.fields record) :
    db.decode (db.encode record) = .ok record :=
  decode_eq_ok_iff.2 (forall₂_decode?_encode h)

theorem length_encode (h : record.length = db.fields.length) :
    (db.encode record).length = db.fields.length := by
  unfold encode
  rw [List.length_map, List.length_zip, h, Nat.min_self]

theorem length_recordOf (db : Database) (r : Row) : (db.recordOf r).length = db.fields.length :=
  List.length_map _

theorem length_decode (hlength : images.length = db.fields.length)
    (h : db.decode images = .ok record) : record.length = db.fields.length := by
  rw [← (decode_eq_ok_iff.1 h).length_eq, List.length_zip, hlength, Nat.min_self]

/-- A record is accepted if the merge is not rejected and the images stand for it. -/
theorem accept_eq_ok_iff {reply : MergeReply} : db.accept reply = .ok record ↔
    reply.rejection = none ∧ db.decode reply.result = .ok record := by
  unfold accept
  cases reply.rejection with
  | none => simp
  | some message => simp

/-- A merge function that is called with the images of a row leaves as many. -/
theorem length_run_encode (f : MergeFn) (existing : Option Images) (r : Row) :
    (f.run existing (db.encode (db.recordOf r)) (db.encode (db.recordOf r))).result.length =
      db.fields.length := by
  rw [MergeFn.length_run, length_encode (db.length_recordOf r)]

/-- The record of a row agrees with the key of the row. -/
theorem recordOf_keyed (hkey : db.keyOf r = .ok key) :
    Record.Keyed db.fields key (db.recordOf r) := by
  rw [keyOf_eq_ok_iff] at hkey
  unfold Record.Keyed recordOf
  rw [← List.map_prod_left_eq_zip, List.filter_map, List.forall₂_map_left_iff]
  refine hkey.imp fun field part hpart => ?_
  obtain ⟨cell, hcell, hpart⟩ := Option.bind_eq_some_iff.1 hpart
  rw [hcell]
  exact hpart

/-- What was decoded of a reply agrees with the key of a row exactly if the reply left the meaning of
the key images of the row as it was. -/
theorem keyed_iff_keyCells (hfits : r.Fits db.fields) (hkey : db.keyOf r = .ok key)
    (hlength : images.length = db.fields.length) (hdecode : db.decode images = .ok record) :
    Record.Keyed db.fields key record ↔
      db.keyCells images = db.keyCells (db.encode (db.recordOf r)) := by
  have hrow := db.length_recordOf r
  have hrecord := length_decode hlength hdecode
  have hincoming : db.decode (db.encode (db.recordOf r)) = .ok (db.recordOf r) :=
    decode_encode (recordOf_fits hfits)
  rw [Record.keyed_iff hrow hrecord (recordOf_keyed hkey), keyCells_of_decode hdecode hlength,
    keyCells_of_decode hincoming (length_encode hrow)]
  exact (List.map_injective_iff.2 (Option.some_injective _)).eq_iff.symm

end Database

namespace Objects

variable {objects : Objects} {h store row : Handle} {r : Row} {db : Database} {target : Store}
  {key : Key} {record? : Option Record} {functions : Hook → MergeFn}

/-- What is written under a key has it in its key columns, if the fields of the database are told
apart by name. -/
def KeyedWrite (fields : List Field) (key : Key) (record? : Option Record) : Prop :=
  WellNamed fields → ∀ record, record? = some record → Record.Keyed fields key record

/-- The records of the databases, and those that transactions hold for databases that are live, agree
with their keys. -/
def Keyed (objects : Objects) : Prop := objects.Holds KeyedWrite

/-- A call for an upsert that is accepted although the merge function gave the images of the key
fields another meaning than those of the row have. -/
inductive RewritesKey (functions : Hook → MergeFn) (objects : Objects) :
    {kind : AnswerKind} → Action kind → Prop where
  | upsert {store row : Handle} {r : Row} {db : Database} {merge : Merge} {reply : MergeReply}
    {record : Record} (taken : objects.table.get? row = some (.row r))
    (live : (objects.remove row).table.get? r.db = some (.database db))
    (named : WellNamed db.fields)
    (asks : (objects.remove row).mergeOf store r = .ok merge)
    (replies : reply = (functions merge.hook).run merge.existing merge.incoming merge.incoming)
    (accepts : db.accept reply = .ok record)
    (rewrites : db.keyCells reply.result ≠ db.keyCells merge.incoming) :
    RewritesKey functions objects (.upsert store row)

/-! ### Writes of a row -/

/-- The cells of a row that was taken fit its database. -/
theorem Sound.fits (hs : objects.Sound) (htaken : objects.table.get? row = some (.row r))
    (hdb : (objects.remove row).table.get? r.db = some (.database db)) (hw : WellNamed db.fields) :
    r.Fits db.fields := by
  rw [get?_remove] at hdb
  split at hdb
  · simp at hdb
  · obtain ⟨env, name, fields, houtline, hfits⟩ := hs.sound row _ htaken
    rw [outline?_of_database hdb] at houtline
    cases houtline
    exact hfits hw.wellTyped

/-- What a merge function made of a row agrees with the key of the row exactly if it left the meaning
of the key images as it was. -/
theorem keyed_accept_iff (hfits : r.Fits db.fields) (hkey : db.keyOf r = .ok key)
    {merge : MergeFn} {existing : Option Images} {record : Record}
    (haccept : db.accept (merge.run existing (db.encode (db.recordOf r))
      (db.encode (db.recordOf r))) = .ok record) :
    Record.Keyed db.fields key record ↔
      db.keyCells (merge.run existing (db.encode (db.recordOf r)) (db.encode (db.recordOf r))).result =
        db.keyCells (db.encode (db.recordOf r)) :=
  Database.keyed_iff_keyCells hfits hkey (Database.length_run_encode merge existing r)
    (Database.accept_eq_ok_iff.1 haccept).2

/-- What an upsert asks for is the merge of the record that is visible under the key of the row and of
the row. -/
theorem mergeOf_eq_ok {merge : Merge} (hdb : objects.table.get? r.db = some (.database db)) :
    objects.mergeOf store r = .ok merge ↔ ∃ target hook key existing,
      objects.target store r = .ok target ∧ db.hook? = some hook ∧ db.keyOf r = .ok key ∧
        objects.visible target r.db key = .ok existing ∧
          merge = ⟨target, ⟨r.db, key⟩, hook, existing.map db.encode, db.encode (db.recordOf r)⟩ := by
  constructor
  · intro hasks
    obtain ⟨target, htarget, hasks⟩ := bind_eq_ok.1 hasks
    obtain ⟨db', hdb', hasks⟩ := bind_eq_ok.1 hasks
    rw [database_eq_ok, hdb] at hdb'
    cases hdb'
    split at hasks
    · next hook hhook =>
      obtain ⟨key, hkey, hasks⟩ := bind_eq_ok.1 hasks
      obtain ⟨existing, hvisible, hasks⟩ := bind_eq_ok.1 hasks
      exact ⟨target, hook, key, existing, htarget, hhook, hkey, hvisible, (Except.ok.inj hasks).symm⟩
    · simp at hasks
  · rintro ⟨target, hook, key, existing, htarget, hhook, hkey, hvisible, rfl⟩
    rw [mergeOf_eq htarget hdb hhook]
    exact bind_eq_ok.2 ⟨key, hkey, bind_eq_ok.2 ⟨existing, hvisible, rfl⟩⟩

/-- What a write of a row makes agrees with the key of the row exactly if the call rewrites no
key. -/
theorem Writing.keyed_iff (hs : objects.Sound) (htaken : objects.table.get? row = some (.row r))
    {kind : WriteKind}
    (hw : Writing functions (objects.remove row) store r kind target db key record?) :
    KeyedWrite db.fields key record? ↔
      ¬ objects.RewritesKey functions (kind.action store row) := by
  cases hw.makes with
  | put =>
    refine iff_of_true (fun _ record hrecord => ?_) nofun
    cases hrecord
    exact Database.recordOf_keyed hw.keyed
  | delete => exact iff_of_true nofun nofun
  | @upsert hook existing record hhook hvisible haccept =>
    have hasks := (mergeOf_eq_ok hw.live).2 ⟨_, _, _, _, hw.goes, hhook, hw.keyed, hvisible, rfl⟩
    constructor
    · rintro hkeyed ⟨htaken', hlive', hnamed, hmerge, rfl, haccept', hrewrites⟩
      rw [htaken] at htaken'
      cases htaken'
      rw [hw.live] at hlive'
      cases hlive'
      rw [hasks] at hmerge
      cases hmerge
      have hrecord := hkeyed hnamed record rfl
      exact hrewrites ((keyed_accept_iff (hs.fits htaken hw.live hnamed) hw.keyed haccept).1 hrecord)
    · intro hrewrites hnamed record' hrecord
      cases hrecord
      rw [keyed_accept_iff (hs.fits htaken hw.live hnamed) hw.keyed haccept]
      by_contra hne
      exact hrewrites (.upsert htaken hw.live hnamed hasks rfl haccept hne)

/-- A call that rewrites a key writes a row. -/
theorem RewritesKey.writing {kind : AnswerKind} {action : Action kind}
    (h : objects.RewritesKey functions action) :
    ∃ store row r target db key record, (⟨kind, action⟩ : Call) = ⟨_, .upsert store row⟩ ∧
      objects.table.get? row = some (.row r) ∧
      Writing functions (objects.remove row) store r .upsert target db key (some record) := by
  obtain ⟨htaken, hlive, -, hasks, rfl, haccept, -⟩ := h
  rename_i store row r db merge record
  obtain ⟨target, hook, key, existing, htarget, hhook, hkey, hvisible, rfl⟩ :=
    (mergeOf_eq_ok hlive).1 hasks
  exact ⟨store, row, r, target, db, key, record, rfl, htaken,
    ⟨htarget, hlive, hkey, .upsert hhook hvisible haccept⟩⟩

end Objects

/-! ### Calls and runs -/

variable {engine : Engine}

/-- A call after which the records do not agree with their keys any more is one that rewrites a
key. -/
theorem keyed_step_iff (hs : engine.objects.Sound) (hkeyed : engine.objects.Keyed)
    (functions : Hook → MergeFn) {kind : AnswerKind} (action : Action kind) :
    (engine.step functions action).2.objects.Keyed ↔
      ¬ engine.objects.RewritesKey functions action := by
  constructor
  · intro hafter hrewrites
    obtain ⟨store, row, r, target, db, key, record, haction, htaken, hwriting⟩ := hrewrites.writing
    cases haction
    obtain ⟨objects, hmade⟩ := Objects.write_of_target hwriting.goes key (some record)
    have hwritten := Objects.written_eq_ok.2 ⟨target, db, key, some record, hwriting, hmade⟩
    have hstep : (engine.step functions (.upsert store row)).2.objects = objects := by
      rw [show Action.upsert store row = WriteKind.upsert.action store row from rfl,
        step_write functions htaken, attemptFlag_objects, hwritten]
      rfl
    rw [hstep] at hafter
    exact (hwriting.keyed_iff hs htaken).1 (hafter.of_write hmade hwriting.live) hrewrites
  · intro hrewrites
    refine hkeyed.of_changes hs (fun kind store row r target db key record? haction htaken hw => ?_)
      (changes_step hs functions action)
    cases haction
    exact (hw.keyed_iff hs htaken).2 hrewrites

theorem keyed_start : ({} : Engine).objects.Keyed := ⟨nofun, nofun⟩

/-- Throughout a run the records agree with their keys exactly if no call of it rewrites a key. -/
theorem keyed_run_iff (requests : List Request) :
    (∀ front, front <+: requests → (run {} front).objects.Keyed) ↔
      ∀ front request, front ++ [request] <+: requests →
        ¬ (run {} front).objects.RewritesKey request.functions request.action := by
  have hsound : ∀ front, (run {} front).objects.Sound := fun front =>
    (Reachable.start.run front).sound
  constructor
  · intro hkeyed front request hprefix
    have hbefore := hkeyed front ((List.prefix_append front [request]).trans hprefix)
    have hafter := hkeyed (front ++ [request]) hprefix
    rw [run_concat] at hafter
    exact (keyed_step_iff (hsound front) hbefore request.functions request.action).1 hafter
  · intro hkeeps front
    induction front using List.reverseRecOn with
    | nil => exact fun _ => keyed_start
    | append_singleton front request ih =>
      intro hprefix
      have hbefore := ih ((List.prefix_append front [request]).trans hprefix)
      rw [run_concat]
      exact (keyed_step_iff (hsound front) hbefore request.functions request.action).2
        (hkeeps front request hprefix)

namespace Sevens

/-- The merge function that makes every number a seven. -/
def functions : Hook → MergeFn := fun _ => .ofActs [.setUInt 0 7]

/-- The calls that install the merge function and make a row that holds a three. -/
def three : List Request := [
  ⟨functions, .installHook 2 ⟨1, 1⟩⟩,
  ⟨functions, .openEnvironment 1⟩,
  ⟨functions, .newRow 2⟩,
  ⟨functions, .setWord 3 "number" 3⟩]

/-- An upsert of the row stores a seven under the key three. -/
theorem three_becomes_seven :
    ¬ ∀ front, front <+: Numbers.declaring functions ++ three ++ [⟨functions, .upsert 2 3⟩] →
      (run {} front).objects.Keyed := by
  rw [keyed_run_iff]
  intro hkeeps
  refine hkeeps (Numbers.declaring functions ++ three) ⟨functions, .upsert 2 3⟩
    (List.prefix_refl _) ?_
  rw [Numbers.run_declaring]
  have hnamed : WellNamed [Numbers.number] := ⟨List.nodup_singleton _, by decide⟩
  have hlive : ((Numbers.declared.run three).objects.remove 3).table.get? 2 =
      some (.database { env := 1, name := "numbers", fields := [Numbers.number]
                        hook? := some ⟨1, 1⟩ }) := rfl
  have hasks : ((Numbers.declared.run three).objects.remove 3).mergeOf 2
      { db := 2, cells := Table.ofList [("number", .word 3)] } = .ok {
        target := .database 2, place := ⟨2, [.up 3]⟩, hook := ⟨1, 1⟩, existing := none
        incoming := [Bytes.ofWord 8 3] } := rfl
  exact .upsert rfl hlive hnamed hasks rfl rfl (by decide)

end Sevens

end Engine
end RowStore
