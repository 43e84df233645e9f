/-
# Fetches

The first row that a cursor is advanced from says what it scans: the database of the row, with the key
fields that the row has set as seed, its order and its leading bytes. A fetch takes the row that it is
made from, and makes one of the next record of the scan.

Key definitions: `Engine.Database.seekOf`.
Key theorems: `Engine.Objects.seek_eq_ok_iff`, `Engine.Database.proper_seekOf`,
`Engine.fetchNext_eq`, `Engine.fetchNext_of_finished`.
-/
import RowStore.Proofs.Engine.Reachable
import RowStore.Proofs.Engine.Visits
import RowStore.Proofs.Scan.Start

namespace RowStore.Engine

/-- The scan of a database that a row seeds. -/
def Database.seekOf (db : Database) (r : Row) (order : ScanOrder) (startsWith? : Option Bytes) :
    Seek where
  db := r.db
  order
  keyTypes := db.keyFields.map (·.type)
  seed := Objects.leadingRun (db.keyFields.map fun field =>
    (r.cells.get? field.name).bind (KeyPart.ofCell? field.type))
  startsWith?
  last? := none

section Seeds

variable {objects : Objects} {r : Row} {db : Database} {order : ScanOrder}
  {startsWith? : Option Bytes}

/-- A row seeds a scan exactly if its database is live in an opened environment, and its order and
its leading bytes can be read. -/
theorem Objects.seek_eq_ok_iff {seek : Seek} : objects.seek r = .ok seek ↔
    ∃ db order startsWith?, objects.database r.db = .ok db ∧ objects.ensureOpened db.env = .ok () ∧
      Objects.orderOf r = .ok order ∧ Objects.startsWithOf db r = .ok startsWith? ∧
      seek = db.seekOf r order startsWith? := by
  constructor
  · intro h
    obtain ⟨db, hdb, h⟩ := bind_eq_ok.1 h
    obtain ⟨⟨⟩, hopened, h⟩ := bind_eq_ok.1 h
    obtain ⟨order, horder, h⟩ := bind_eq_ok.1 h
    obtain ⟨startsWith?, hstart, h⟩ := bind_eq_ok.1 h
    exact ⟨db, order, startsWith?, hdb, hopened, horder, hstart, (Except.ok.inj h).symm⟩
  · rintro ⟨db, order, startsWith?, hdb, hopened, horder, hstart, rfl⟩
    refine bind_eq_ok.2 ⟨db, hdb, bind_eq_ok.2 ⟨(), hopened, ?_⟩⟩
    exact bind_eq_ok.2 ⟨order, horder, bind_eq_ok.2 ⟨startsWith?, hstart, rfl⟩⟩

theorem Objects.seek_eq (hdb : objects.database r.db = .ok db)
    (hopened : objects.ensureOpened db.env = .ok ()) (horder : Objects.orderOf r = .ok order)
    (hstart : Objects.startsWithOf db r = .ok startsWith?) :
    objects.seek r = .ok (db.seekOf r order startsWith?) :=
  Objects.seek_eq_ok_iff.2 ⟨db, order, startsWith?, hdb, hopened, horder, hstart, rfl⟩

end Seeds

variable {engine : Engine}

/-- A fetch from a cursor that goes on with a scan: the row that it is made from is gone, and the
first record that is left, if there is one, has a row. -/
theorem fetchNext_eq {ch rh : Handle} {r : Row} {c : Cursor} {db : Database} {seek : Seek}
    (hrow : engine.objects.table.get? rh = some (.row r))
    (hcursor : engine.objects.table.get? ch = some (.cursor c))
    (hdb : engine.objects.table.get? seek.db = some (.database db))
    (hprogress : c.progress = .scanning seek ∨
      c.progress = .unstarted ∧ (engine.objects.remove rh).seek r = .ok seek) :
    engine.fetchNext ch rh =
      match seek.next? db.records with
      | none => (none, { engine with
          objects := (engine.objects.remove rh).put ch (.cursor { c with progress := .finished })
          diagnostic? := none })
      | some (key, record) => (some (engine.objects.issued + 1), { engine with
          objects := ((engine.objects.remove rh).add (.row (db.rowOf seek.db record))).2.put ch
            (.cursor { c with progress := .scanning { seek with last? := some key } })
          diagnostic? := none }) := by
  have htaken := Objects.row_eq_ok.2 hrow
  have hcursor' : (engine.objects.remove rh).cursor ch = .ok c :=
    Objects.cursor_eq_ok.2 (Objects.get?_remove_row htaken hcursor nofun)
  have hdb' : (engine.objects.remove rh).database seek.db = .ok db :=
    Objects.database_eq_ok.2 (Objects.get?_remove_row htaken hdb nofun)
  have hadvance : (engine.objects.remove rh).fetchNext ch r =
      (engine.objects.remove rh).advance ch c seek := by
    unfold Objects.fetchNext
    rw [hcursor']
    dsimp only
    rcases hprogress with hscanning | ⟨hunstarted, hseek⟩
    · rw [hscanning]
    · rw [hunstarted]
      dsimp only
      rw [hseek]
  unfold fetchNext
  rw [htaken]
  dsimp only
  rw [hadvance]
  unfold Objects.advance
  rw [hdb']
  dsimp only
  rcases seek.next? db.records with _ | ⟨key, record⟩ <;> rfl

/-- A fetch from a cursor that has found nothing finds nothing: only its row is gone. -/
theorem fetchNext_of_finished {ch rh : Handle} {r : Row} {c : Cursor}
    (hrow : engine.objects.table.get? rh = some (.row r))
    (hcursor : engine.objects.table.get? ch = some (.cursor c)) (hfinished : c.progress = .finished) :
    engine.fetchNext ch rh =
      (none, { engine with objects := engine.objects.remove rh, diagnostic? := none }) := by
  have htaken := Objects.row_eq_ok.2 hrow
  have hcursor' : (engine.objects.remove rh).cursor ch = .ok c :=
    Objects.cursor_eq_ok.2 (Objects.get?_remove_row htaken hcursor nofun)
  have hnone : (engine.objects.remove rh).fetchNext ch r = (.ok none, engine.objects.remove rh) := by
    unfold Objects.fetchNext
    rw [hcursor']
    dsimp only
    rw [hfinished]
  unfold fetchNext
  rw [htaken]
  dsimp only
  rw [hnone]

end RowStore.Engine
