/-
# Fetches make progress

A fetch that finds a record leaves its cursor at the key of the record. The record was past the position
that the cursor had, and is not past the one it has then, so with every record found there are fewer
past the position. This holds of all scans, whatever row seeded them, and for the records of the moment.
Calls that do not advance the cursor leave its position as it is.

Key definitions: `Seek.isPast`, `Engine.Objects.ahead`, `Engine.Objects.Traverses`,
`Engine.Objects.IsRowOf`, `Engine.Finds`.
Key theorems: `Seek.mem_of_next?`, `Engine.finds_of_fetchNext`, `Engine.length_ahead_fetchNext`,
`Engine.cursor_step`.
-/
import RowStore.Proofs.Engine.Ending
import RowStore.Proofs.Engine.Fetching
import RowStore.Proofs.Engine.Scanning
import RowStore.Proofs.Engine.Sparing

namespace RowStore

namespace Seek

variable {seek : Seek} {records : Records} {e : Key × Record}

/-- Whether a key is strictly past the position of a scan; every key is at the start. -/
def isPast (seek : Seek) (key : Key) : Bool :=
  match seek.last? with
  | some last => seek.precedes last key
  | none => true

theorem mem_of_mem_candidates (hm : e ∈ seek.candidates records) :
    e ∈ records.entries ∧ seek.isPast e.1 = true := by
  unfold candidates at hm
  unfold isPast precedes
  cases hlast : seek.last? with
  | some last =>
    cases hd : seek.order.isDescending with
    | false =>
      rw [hlast, hd] at hm
      exact List.mem_filter.1 hm
    | true =>
      rw [hlast, hd] at hm
      obtain ⟨hmem, hpast⟩ := List.mem_filter.1 hm
      exact ⟨List.mem_reverse.1 hmem, hpast⟩
  | none =>
    cases hd : seek.order.isDescending with
    | false =>
      rw [hlast, hd] at hm
      have hmem := (List.dropWhile_sublist _).subset hm
      exact ⟨(List.mem_filter.1 hmem).1, rfl⟩
    | true =>
      rw [hlast, hd] at hm
      have hmem := (List.dropWhile_sublist _).subset hm
      exact ⟨List.mem_reverse.1 hmem, rfl⟩

/-- The record found is one of the records, and past the position. -/
theorem mem_of_next? (h : seek.next? records = some e) :
    e ∈ records.entries ∧ seek.isPast e.1 = true := by
  rw [next?_eq_head?] at h
  have hleft : e ∈ seek.remaining records := List.mem_of_mem_head? h
  exact mem_of_mem_candidates ((visits_sublist _).subset hleft)

/-- What is past a record that is past the position is past the position too, and the record is not past
itself. -/
theorem length_filter_past_lt {entries : List (Key × Record)} (hm : e ∈ entries)
    (hpast : seek.isPast e.1 = true) :
    (entries.filter fun e' => (seek.past e.1).isPast e'.1).length <
      (entries.filter fun e' => seek.isPast e'.1).length := by
  have hmono : ∀ e' : Key × Record, (seek.past e.1).isPast e'.1 = true →
      seek.isPast e'.1 = true := by
    intro e' hbehind
    have hprecedes : seek.precedes e.1 e'.1 = true := hbehind
    unfold isPast at hpast ⊢
    cases hlast : seek.last? with
    | some last =>
      rw [hlast] at hpast
      exact precedes_trans hpast hprecedes
    | none => rfl
  have hself : (seek.past e.1).isPast e.1 = false := by
    show seek.precedes e.1 e.1 = false
    by_contra hne
    have hprecedes : seek.precedes e.1 e.1 = true := by simpa using hne
    have hnot := precedes_asymm hprecedes
    rw [hprecedes] at hnot
    cases hnot
  have hfilter : (entries.filter fun e' => (seek.past e.1).isPast e'.1) =
      (entries.filter fun e' => seek.isPast e'.1).filter
        fun e' => (seek.past e.1).isPast e'.1 := by
    rw [List.filter_filter]
    refine List.filter_congr fun e' _ => ?_
    cases hbehind : (seek.past e.1).isPast e'.1 with
    | false => rfl
    | true => rw [hmono e' hbehind, Bool.and_self]
  rw [hfilter, List.length_filter_lt_length_iff_exists]
  exact ⟨e, List.mem_filter.2 ⟨hm, hpast⟩, by simp [hself]⟩

end Seek

namespace Engine

namespace Objects

/-- The records that a cursor has ahead in a database: those past its position, which are all before the
first fetch and none after the last. -/
def ahead (objects : Objects) (cursor d : Handle) : List (Key × Record) :=
  match objects.table.get? cursor with
  | some (.cursor ⟨_, .unstarted⟩) => (objects.records d).entries
  | some (.cursor ⟨_, .scanning seek⟩) =>
    (objects.records d).entries.filter fun e => seek.isPast e.1
  | _ => []

variable {objects objects' : Objects} {cursor h d : Handle}

theorem ahead_of_unstarted {e : Handle}
    (hcursor : objects.table.get? cursor = some (.cursor ⟨e, .unstarted⟩)) (d : Handle) :
    objects.ahead cursor d = (objects.records d).entries := by
  unfold ahead
  rw [hcursor]

theorem ahead_of_scanning {e : Handle} {seek : Seek}
    (hcursor : objects.table.get? cursor = some (.cursor ⟨e, .scanning seek⟩)) (d : Handle) :
    objects.ahead cursor d = (objects.records d).entries.filter fun e => seek.isPast e.1 := by
  unfold ahead
  rw [hcursor]

/-- A cursor has no more records ahead than there are. -/
theorem length_ahead_le (objects : Objects) (cursor d : Handle) :
    (objects.ahead cursor d).length ≤ (objects.records d).size := by
  unfold ahead
  split
  · exact Nat.le_refl _
  · exact List.length_filter_le _ _
  · exact Nat.zero_le _

/-- The cursor scans the database, if it scans any. -/
def Traverses (objects : Objects) (cursor d : Handle) : Prop :=
  ∀ c seek, objects.table.get? cursor = some (.cursor c) → c.progress = .scanning seek → seek.db = d

/-- The handle is that of a row of the database, as long as the row is live. -/
def IsRowOf (objects : Objects) (h d : Handle) : Prop :=
  ∀ r, objects.table.get? h = some (.row r) → r.db = d

theorem Steady.isRowOf (hs : objects.Steady objects') (hle : h ≤ objects.issued)
    (hrow : objects.IsRowOf h d) : objects'.IsRowOf h d := by
  intro r' hget'
  obtain ⟨r, hget, hgrows⟩ := hs.row hle hget'
  rw [hgrows.db]
  exact hrow r hget

/-- A cursor that moves on has found a record of its database. -/
theorem advance_eq_some {c : Cursor} {seek : Seek}
    (hadvance : objects.advance cursor c seek = (.ok (some h), objects')) :
    ∃ db e, objects.table.get? seek.db = some (.database db) ∧ seek.next? db.records = some e ∧
      h = objects.issued + 1 ∧ objects' = (objects.add (.row (db.rowOf seek.db e.2))).2.put cursor
        (.cursor { c with progress := .scanning (seek.past e.1) }) := by
  unfold advance at hadvance
  cases hdb : objects.database seek.db with
  | error refusal =>
    rw [hdb] at hadvance
    cases hadvance
  | ok db =>
    rw [hdb] at hadvance
    dsimp only at hadvance
    cases hnext : seek.next? db.records with
    | none =>
      rw [hnext] at hadvance
      cases hadvance
    | some e =>
      rw [hnext] at hadvance
      cases hadvance
      exact ⟨db, e, database_eq_ok.1 hdb, hnext, rfl, rfl⟩

end Objects

variable {engine engine' : Engine} {cursor row h d : Handle}

/-- A fetch from a row finds a record. The cursor goes on with its scan, or starts the one that the row
seeds, the next record of the scan is made a row, and the cursor is left at its key. -/
structure Finds (engine : Engine) (cursor row : Handle) (r : Row) (c : Cursor) (seek : Seek)
    (db : Database) (e : Key × Record) (h : Handle) (engine' : Engine) : Prop where
  taken : engine.objects.table.get? row = some (.row r)
  advanced : engine.objects.table.get? cursor = some (.cursor c)
  progress : c.progress = .scanning seek ∨
    c.progress = .unstarted ∧ seek.db = r.db ∧ seek.last? = none
  scanned : engine.objects.table.get? seek.db = some (.database db)
  next : seek.next? db.records = some e
  fresh : h = engine.objects.issued + 1
  left : engine'.objects =
    ((engine.objects.remove row).add (.row (db.rowOf seek.db e.2))).2.put cursor
      (.cursor { c with progress := .scanning (seek.past e.1) })

/-- A fetch that answers with a row finds a record. -/
theorem finds_of_fetchNext (hfetch : engine.fetchNext cursor row = (some h, engine')) :
    ∃ r c seek db e, engine.Finds cursor row r c seek db e h engine' := by
  unfold fetchNext at hfetch
  split at hfetch
  · cases hfetch
  next r hrow =>
  split at hfetch
  next hobjects =>
    cases hfetch
    have hlive : ∀ {h object}, (engine.objects.remove row).table.get? h = some object →
        engine.objects.table.get? h = some object := fun hget => by
      rw [Objects.get?_remove] at hget
      split at hget
      · cases hget
      · exact hget
    unfold Objects.fetchNext at hobjects
    split at hobjects
    · cases hobjects
    next c hcursor =>
    have hc := hlive (Objects.cursor_eq_ok.1 hcursor)
    split at hobjects
    · cases hobjects
    · next seek hprogress =>
      obtain ⟨db, e, hdb, hnext, hh, hobjects⟩ := Objects.advance_eq_some hobjects
      exact ⟨r, c, seek, db, e, Objects.row_eq_ok.1 hrow, hc, .inl hprogress, hlive hdb, hnext, hh,
        hobjects⟩
    · next hprogress =>
      split at hobjects
      · cases hobjects
      next seek hseek =>
      obtain ⟨db₀, order, startsWith?, -, -, -, -, hstart⟩ := Objects.seek_eq_ok_iff.1 hseek
      obtain ⟨db, e, hdb, hnext, hh, hobjects⟩ := Objects.advance_eq_some hobjects
      refine ⟨r, c, seek, db, e, Objects.row_eq_ok.1 hrow, hc, .inr ⟨hprogress, ?_, ?_⟩, hlive hdb,
        hnext, hh, hobjects⟩
      · rw [hstart]
        rfl
      · rw [hstart]
        rfl
  · cases hfetch

namespace Finds

variable {r : Row} {c : Cursor} {seek : Seek} {db : Database} {e : Key × Record}
  (hf : engine.Finds cursor row r c seek db e h engine')

include hf

theorem issued : engine'.objects.issued = h := by
  rw [hf.left, hf.fresh]
  rfl

/-- The cursor is left at the key of the record. -/
theorem get?_cursor : engine'.objects.table.get? cursor =
    some (.cursor { c with progress := .scanning (seek.past e.1) }) := by
  rw [hf.left, Objects.get?_put, if_pos rfl]

/-- The answer is the handle of a row of the record. -/
theorem get?_row (hs : engine.objects.Sound) :
    engine'.objects.table.get? h = some (.row (db.rowOf seek.db e.2)) := by
  have hne : h ≠ cursor := by
    rintro rfl
    have hadvanced := hf.advanced
    rw [hf.fresh, hs.fresh] at hadvanced
    cases hadvanced
  rw [hf.left, Objects.get?_put, if_neg hne, Objects.get?_add, Objects.issued_remove, if_pos hf.fresh]

/-- The database that is scanned is as it was. -/
theorem get?_database (hs : engine.objects.Sound) :
    engine'.objects.table.get? seek.db = some (.database db) := by
  have hneNew : seek.db ≠ engine.objects.issued + 1 := by
    intro heq
    have hscanned := hf.scanned
    rw [heq, hs.fresh] at hscanned
    cases hscanned
  have hneCursor : seek.db ≠ cursor := by
    rintro heq
    have hscanned := hf.scanned
    rw [heq, hf.advanced] at hscanned
    cases hscanned
  rw [hf.left, Objects.get?_put, if_neg hneCursor, Objects.get?_add, Objects.issued_remove,
    if_neg hneNew]
  exact Objects.get?_remove_row (Objects.row_eq_ok.2 hf.taken) hf.scanned nofun

/-- The record is one of the database. -/
theorem mem : e ∈ db.records.entries := (Seek.mem_of_next? hf.next).1

/-- The cursor has fewer records ahead than before. -/
theorem length_ahead_lt (hs : engine.objects.Sound) :
    (engine'.objects.ahead cursor seek.db).length < (engine.objects.ahead cursor seek.db).length := by
  have hless := Seek.length_filter_past_lt hf.mem (Seek.mem_of_next? hf.next).2
  have hafter : engine'.objects.ahead cursor seek.db =
      db.records.entries.filter fun e' => (seek.past e.1).isPast e'.1 := by
    rw [Objects.ahead_of_scanning hf.get?_cursor, Objects.records_eq (hf.get?_database hs)]
  have hbefore : engine.objects.ahead cursor seek.db =
      db.records.entries.filter fun e' => seek.isPast e'.1 := by
    have hadvanced := hf.advanced
    obtain ⟨env, progress⟩ := c
    rcases hf.progress with rfl | ⟨rfl, -, hstart⟩
    · rw [Objects.ahead_of_scanning hadvanced, Objects.records_eq hf.scanned]
    · rw [Objects.ahead_of_unstarted hadvanced, Objects.records_eq hf.scanned]
      refine (List.filter_eq_self.2 fun e' _ => ?_).symm
      unfold Seek.isPast
      rw [hstart]
  rw [hafter, hbefore]
  exact hless

end Finds

/-- After a fetch that finds a row of its database the cursor scans the database, the row is one of it,
and fewer records are ahead. -/
theorem length_ahead_fetchNext (hs : engine.objects.Sound)
    (hcursor : engine.objects.Traverses cursor d) (hrow : engine.objects.IsRowOf row d)
    (hfetch : engine.fetchNext cursor row = (some h, engine')) :
    engine'.objects.Traverses cursor d ∧ h ≤ engine'.objects.issued ∧ engine'.objects.IsRowOf h d ∧
      (engine'.objects.ahead cursor d).length < (engine.objects.ahead cursor d).length := by
  obtain ⟨r, c, seek, db, e, hf⟩ := finds_of_fetchNext hfetch
  have htarget : seek.db = d := by
    rcases hf.progress with hscanning | ⟨-, hseed, -⟩
    · exact hcursor c seek hf.advanced hscanning
    · rw [hseed]
      exact hrow r hf.taken
  subst htarget
  refine ⟨fun c' seek' hget hscanning => ?_, hf.issued.ge, fun r' hget => ?_, hf.length_ahead_lt hs⟩
  · rw [hf.get?_cursor] at hget
    cases hget
    cases hscanning
    rfl
  · rw [hf.get?_row hs] at hget
    cases hget
    rfl

/-- A cursor is as it was after a call that does not advance it. -/
theorem cursor_step (hs : engine.objects.Sound) (functions : Hook → MergeFn) {kind : AnswerKind}
    {action : Action kind} (halone : ¬action.advances cursor) (hle : cursor ≤ engine.objects.issued)
    {c : Cursor}
    (hget' : (engine.step functions action).2.objects.table.get? cursor = some (.cursor c)) :
    engine.objects.table.get? cursor = some (.cursor c) := by
  obtain ⟨object, hget, hkind⟩ := (steady_step hs functions action).kind cursor hle _ hget'
  cases object with
  | cursor c' =>
    by_cases hdestroys : ∃ h, action.destroys h
    · obtain ⟨h, hdestroys⟩ := hdestroys
      cases action with
      | destroy h' =>
        change (engine.attemptFlag (engine.objects.destroy h')).2.objects.table.get? cursor = _
          at hget'
        rw [attemptFlag_objects] at hget'
        cases hd : engine.objects.destroy h' with
        | error refusal =>
          rw [hd] at hget'
          exact hget'
        | ok objects =>
          rw [hd] at hget'
          exact Objects.get?_of_destroy hd hget'
      | _ => exact hdestroys.elim
    · have hspares := spares_step hs functions action
      have hkept := hspares.cursor cursor c' hle hget halone (fun h => hdestroys ⟨_, h⟩)
        fun h => hdestroys ⟨_, h⟩
      rw [hkept] at hget'
      cases hget'
      exact hget
  | environment _ => cases hkind
  | database _ => cases hkind
  | row _ => cases hkind
  | transaction _ => cases hkind

end Engine
end RowStore
