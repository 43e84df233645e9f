/-
# Draining a cursor

A cursor that was opened and is advanced until it finds nothing finds the records that are left to
its scan, sifted by the verdicts of its predicates: one fetch takes the first record that is left,
one advance the first that passes, and none is fetched twice, so there are fetches enough.

Key definitions: `Client.Cursor.Drains`, `Client.Cursor.Fetches`, `Client.Cursor.Scans`.
Key theorems: `Client.Cursor.Fetches.fetch_of_cons`, `Client.Cursor.Scans.advance_eq`,
`Client.Cursor.drains_of_scans`.
-/
import RowStore.Proofs.Client.Opening

namespace RowStore

namespace Engine

variable {engine : Engine} {objects : Objects}

/-- A database has no more records than there are. -/
theorem Objects.size_le_recordCount {d : Handle} {db : Database}
    (h : objects.table.get? d = some (.database db)) : db.records.size ≤ objects.recordCount := by
  have hmem : Object.database db ∈ objects.table.values :=
    List.mem_map.2 ⟨(d, .database db), Table.get?_eq_some_iff.1 h, rfl⟩
  unfold Objects.recordCount
  generalize objects.table.values = values at hmem
  induction values with
  | nil => cases hmem
  | cons object values ih =>
    rw [List.map_cons, List.foldr_cons]
    rcases List.mem_cons.1 hmem with rfl | hmem
    · exact Nat.le_add_right _ _
    · exact Nat.le_trans (ih hmem) (Nat.le_add_left _ _)

end Engine

namespace Client.Cursor

open Engine (Objects)

/-- Calling `next` until it finds nothing finds these rows, one after the other. -/
inductive Drains : World → Cursor → List Engine.Row → Prop where
  | done {world world' : World} {cursor cursor' : Cursor}
    (next : cursor.next world = ((.ok none, cursor'), world')) : Drains world cursor []
  | row {world world' : World} {cursor cursor' : Cursor} {row : Row} {r : Engine.Row}
    {rows : List Engine.Row} (next : cursor.next world = ((.ok (some row), cursor'), world'))
    (found : world'.engine.objects.row row.handle = .ok r) (rest : Drains world' cursor' rows) :
    Drains world cursor (r :: rows)

variable {db : Database} {stored : Engine.Database} {world world' : World} {cursor : Cursor}
  {seek : Seek}

/-- The cursor holds a row to fetch from, and the next fetch goes on with the scan, that of a database in
an opened environment. -/
structure Fetches (cursor : Cursor) (db : Database) (stored : Engine.Database) (seek : Seek)
    (world : World) : Prop where
  serves : world.Serves db.env
  opened : world.engine.objects.ensureOpened db.env = .ok ()
  found : world.engine.objects.database db.handle = .ok stored
  env : stored.env = db.env
  target : seek.db = db.handle
  source : ∃ row r c, cursor.takeRow.1 = some row ∧
    world.engine.objects.table.get? row.handle = some (.row r) ∧
    world.engine.objects.table.get? cursor.handle = some (.cursor c) ∧
    (c.progress = .scanning seek ∨ c.progress = .unstarted ∧ ∀ objects : Objects,
      objects.database db.handle = .ok stored → objects.ensureOpened stored.env = .ok () →
      objects.seek r = .ok seek)

/-- The cursor is in the middle of a scan: it holds a row to fetch from, and the next fetch goes on
with the scan. -/
structure Scans (cursor : Cursor) (db : Database) (stored : Engine.Database) (seek : Seek)
    (world : World) : Prop where
  ready : db.Ready world stored
  env : cursor.env = db.env
  unfinished : cursor.exhausted = false ∧ cursor.closed = false
  predicates : ∀ predicate ∈ cursor.predicates, ∃ f ∈ stored.fields, predicate.field = f.name
  inclusive : seek.excludesSeed = false
  target : seek.db = db.handle
  source : ∃ row r c, cursor.takeRow.1 = some row ∧
    world.engine.objects.table.get? row.handle = some (.row r) ∧
    world.engine.objects.table.get? cursor.handle = some (.cursor c) ∧
    (c.progress = .scanning seek ∨ c.progress = .unstarted ∧ ∀ objects : Objects,
      objects.database db.handle = .ok stored → objects.ensureOpened stored.env = .ok () →
      objects.seek r = .ok seek)

/-! ### Judging -/

/-- The predicates of a cursor judge the row of a record as the record. -/
theorem judgeGo_apply (cursor : Cursor) {row : Row} {record : Record} (hl : record.length = stored.fields.length)
    (hw : db.schema.WellFormed) (hfields : stored.fields = db.schema.fields) :
    ∀ (predicates : List Predicate) (verdict : Verdict) {world : World},
      (∀ predicate ∈ predicates, ∃ f ∈ stored.fields, predicate.field = f.name) →
      world.Serves row.env →
      world.engine.objects.table.get? db.handle = some (.database stored) →
      world.engine.objects.table.get? row.handle = some (.row (stored.rowOf db.handle record)) →
      (judge.go cursor row verdict predicates world).1 =
          judgeAll cursor.termination stored.fields record verdict predicates ∧
        (judge.go cursor row verdict predicates world).2.engine.objects = world.engine.objects
  | [], verdict, world, _, _, _, _ => ⟨rfl, rfl⟩
  | predicate :: rest, verdict, world, hp, hs, hdb, hrow => by
    obtain ⟨f, hm, hname⟩ := hp predicate List.mem_cons_self
    have hm' : f ∈ db.schema.fields := hfields ▸ hm
    obtain ⟨hverdict, hobjects⟩ := Row.judge_apply hs hrow hdb (hfields ▸ hw.wellNamed) hl hm
      (hw.noNul f hm') (hw.notReserved f hm').2.2 hname
    have hfollows : world.Follows (row.judge predicate world).2 :=
      (Row.quiet_judge row predicate).tame world
    have ih : ∀ v, _ := fun v => judgeGo_apply cursor hl hw hfields rest v
      (fun p hp' => hp p (List.mem_cons_of_mem predicate hp')) (hs.follows hfollows)
      (by rw [hobjects]; exact hdb) (by rw [hobjects]; exact hrow)
    unfold judge.go judgeAll
    rw [bind_apply, ← hverdict]
    cases (row.judge predicate world).1 with
    | pass => exact ⟨(ih verdict).1, (ih verdict).2.trans hobjects⟩
    | skip => exact ⟨(ih .skip).1, (ih .skip).2.trans hobjects⟩
    | stop =>
      dsimp only
      split
      · exact ⟨rfl, hobjects⟩
      · exact ⟨(ih .skip).1, (ih .skip).2.trans hobjects⟩

/-! ### Fetching -/

/-- Taking a row changes nothing but the rows held. -/
theorem takeRow_eq {row : Row} (h : cursor.takeRow.1 = some row) : ∃ seed?,
    cursor.takeRow = (some row, { cursor with seed?, current? := none }) := by
  obtain ⟨env, handle, seed?, _ | row', predicates, order, termination, exhausted, closed⟩ := cursor
  · exact ⟨none, Prod.ext h rfl⟩
  · exact ⟨seed?, Prod.ext h rfl⟩

theorem call_fetchNext (hs : world.FaultFree) (ch rh : Handle) :
    (call (.fetchNext ch rh) world).1 = (world.engine.fetchNext ch rh).1 ∧
      (call (.fetchNext ch rh) world).2.engine = (world.engine.fetchNext ch rh).2 := by
  rw [call_apply hs, reach_fst, reach_engine]
  exact ⟨rfl, rfl⟩

/-- The engine's answer to a fetch of a cursor that goes on with a scan. -/
theorem Fetches.fetchNext_eq (h : cursor.Fetches db stored seek world) {row : Row}
    (hrow : cursor.takeRow.1 = some row) : ∃ r c,
    world.engine.objects.table.get? row.handle = some (.row r) ∧
    world.engine.objects.table.get? cursor.handle = some (.cursor c) ∧
    world.engine.fetchNext cursor.handle row.handle =
      match seek.next? stored.records with
      | none => (none, { world.engine with
          objects := (world.engine.objects.remove row.handle).put cursor.handle
            (.cursor { c with progress := .finished })
          diagnostic? := none })
      | some (key, record) => (some (world.engine.objects.issued + 1), { world.engine with
          objects := ((world.engine.objects.remove row.handle).add
            (.row (stored.rowOf db.handle record))).2.put cursor.handle
              (.cursor { c with progress := .scanning { seek with last? := some key } })
          diagnostic? := none }) := by
  obtain ⟨row', r, c, htake, hget, hcursor, hprogress⟩ := h.source
  obtain rfl : row' = row := Option.some.inj (htake.symm.trans hrow)
  have hdb : world.engine.objects.table.get? seek.db = some (.database stored) := by
    rw [h.target]
    exact Objects.database_eq_ok.1 h.found
  have htaken := Objects.row_eq_ok.2 hget
  refine ⟨r, c, hget, hcursor, ?_⟩
  rw [← h.target]
  refine Engine.fetchNext_eq hget hcursor hdb (hprogress.imp id fun ⟨hunstarted, hseek⟩ =>
    ⟨hunstarted, hseek _ ?_ ?_⟩)
  · exact Objects.database_eq_ok.2 (Objects.get?_remove_row htaken
      (Objects.database_eq_ok.1 h.found) nofun)
  · rw [h.env]
    obtain ⟨env, henv, hopen⟩ := Objects.ensureOpened_eq_ok.1 h.opened
    exact Objects.ensureOpened_eq_ok.2 ⟨env, Objects.get?_remove_row htaken henv nofun, hopen⟩

/-- A fetch with no record left finds nothing, and leaves no diagnostic. -/
theorem Fetches.fetch_of_nil (h : cursor.Fetches db stored seek world) {row : Row}
    (hrow : cursor.takeRow.1 = some row) (hleft : seek.remaining stored.records = []) :
    (call (.fetchNext cursor.handle row.handle) world).1 = none ∧
      (call (.fetchNext cursor.handle row.handle) world).2.engine.diagnostic? = none := by
  obtain ⟨r, c, -, -, hfetch⟩ := h.fetchNext_eq hrow
  obtain ⟨hanswer, hengine⟩ := call_fetchNext h.serves.faultFree cursor.handle row.handle
  rw [hanswer, hengine, hfetch, Seek.next?_eq_head?, hleft]
  exact ⟨rfl, rfl⟩

/-- A fetch with a record left finds a row of the first, and the next fetch goes on behind it. -/
theorem Fetches.fetch_of_cons (h : cursor.Fetches db stored seek world) {row : Row}
    (hrow : cursor.takeRow.1 = some row) {e : Key × Record} {rest : List (Key × Record)}
    (hleft : seek.remaining stored.records = e :: rest) :
    (call (.fetchNext cursor.handle row.handle) world).1 =
        some (world.engine.objects.issued + 1) ∧
      (call (.fetchNext cursor.handle row.handle) world).2.engine.objects.table.get?
          (world.engine.objects.issued + 1) = some (.row (stored.rowOf db.handle e.2)) ∧
      ∀ seed?, { cursor with
          seed?, current? := some ⟨cursor.env, world.engine.objects.issued + 1⟩ }.Fetches
        db stored { seek with last? := some e.1 }
        (call (.fetchNext cursor.handle row.handle) world).2 := by
  obtain ⟨r, c, hget, hcursor, hfetch⟩ := h.fetchNext_eq hrow
  obtain ⟨hanswer, hengine⟩ := call_fetchNext h.serves.faultFree cursor.handle row.handle
  obtain ⟨key, record⟩ := e
  rw [Seek.next?_eq_head?, hleft] at hfetch
  have hobjects : (call (.fetchNext cursor.handle row.handle) world).2.engine.objects =
      ((world.engine.objects.remove row.handle).add
        (.row (stored.rowOf db.handle record))).2.put cursor.handle
          (.cursor { c with progress := .scanning { seek with last? := some key } }) := by
    rw [hengine, hfetch]
    rfl
  have hfresh := h.serves.reachable.sound.fresh
  have hne : world.engine.objects.issued + 1 ≠ cursor.handle := by
    intro heq
    rw [heq, hcursor] at hfresh
    simp at hfresh
  have hfound : (call (.fetchNext cursor.handle row.handle) world).2.engine.objects.table.get?
      (world.engine.objects.issued + 1) = some (.row (stored.rowOf db.handle record)) := by
    rw [hobjects, Objects.get?_put, if_neg hne, Objects.get?_add, Objects.issued_remove, if_pos rfl]
  -- What is neither a row nor the cursor is there still.
  have hkept : ∀ h' object, world.engine.objects.table.get? h' = some object →
      (∀ r, object ≠ .row r) → (∀ c, object ≠ .cursor c) →
      (call (.fetchNext cursor.handle row.handle) world).2.engine.objects.table.get? h' =
        some object := by
    intro h' object hobject hrows hcursors
    have hother : h' ≠ cursor.handle := by
      rintro rfl
      rw [hcursor] at hobject
      exact hcursors c (Option.some.inj hobject).symm
    have hold : h' ≠ world.engine.objects.issued + 1 := by
      rintro rfl
      rw [hfresh] at hobject
      simp at hobject
    rw [hobjects, Objects.get?_put, if_neg hother, Objects.get?_add, Objects.issued_remove,
      if_neg hold]
    exact Objects.get?_remove_row (Objects.row_eq_ok.2 hget) hobject hrows
  have hcontinues : (call (.fetchNext cursor.handle row.handle) world).2.engine.objects.table.get?
      cursor.handle =
        some (.cursor { c with progress := .scanning { seek with last? := some key } }) := by
    rw [hobjects, Objects.get?_put, if_pos rfl]
  obtain ⟨env, henv, hopen⟩ := Objects.ensureOpened_eq_ok.1 h.opened
  refine ⟨by rw [hanswer, hfetch]; rfl, hfound, fun _ => ⟨h.serves.follows (tame_call _ world),
    Objects.ensureOpened_eq_ok.2 ⟨env, hkept _ _ henv nofun nofun, hopen⟩,
    Objects.database_eq_ok.2 (hkept _ _ (Objects.database_eq_ok.1 h.found) nofun nofun),
    h.env, h.target, _, _, _, rfl, hfound, hcontinues, .inl rfl⟩⟩

/-- A cursor in the middle of a scan goes on with it. -/
theorem Scans.fetches (h : cursor.Scans db stored seek world) :
    cursor.Fetches db stored seek world where
  serves := h.ready.serves
  opened := h.ready.opened
  found := h.ready.found
  env := h.ready.env
  target := h.target
  source := h.source

/-- A cursor whose fetch has a record left is in the middle of the scan behind the first. -/
theorem Scans.fetch_of_cons (h : cursor.Scans db stored seek world) {row : Row}
    (hrow : cursor.takeRow.1 = some row) {e : Key × Record} {rest : List (Key × Record)}
    (hleft : seek.remaining stored.records = e :: rest) (seed? : Option Row) :
    { cursor with seed?, current? := some ⟨cursor.env, world.engine.objects.issued + 1⟩ }.Scans
      db stored { seek with last? := some e.1 }
      (call (.fetchNext cursor.handle row.handle) world).2 := by
  obtain ⟨-, -, hfetches⟩ := h.fetches.fetch_of_cons hrow hleft
  have hnext := hfetches seed?
  have hready : db.Ready (call (.fetchNext cursor.handle row.handle) world).2 stored :=
    ⟨hnext.serves, hnext.opened, hnext.found, h.ready.env, h.ready.fields, h.ready.wellFormed,
      h.ready.keyed⟩
  exact ⟨hready, h.env, h.unfinished, h.predicates, h.inclusive, h.target, hnext.source⟩

/-! ### Advancing -/

/-- The verdict of a cursor on a record. -/
def verdict (cursor : Cursor) (fields : List Field) (e : Key × Record) : Verdict :=
  judgeAll cursor.termination fields e.2 .pass cursor.predicates

/-- The records that a cursor has still to find. -/
def finds (cursor : Cursor) (stored : Engine.Database) (seek : Seek) : List (Key × Record) :=
  sift (cursor.verdict stored.fields) (seek.remaining stored.records)

/-- A cursor is in the middle of its scan as long as the objects are as they are. -/
theorem Scans.of_objects (h : cursor.Scans db stored seek world) (hf : world.Follows world')
    (hobjects : world'.engine.objects = world.engine.objects) :
    cursor.Scans db stored seek world' where
  ready := h.ready.of_get? hf fun h object hget _ _ => by rw [hobjects]; exact hget
  env := h.env
  unfinished := h.unfinished
  predicates := h.predicates
  inclusive := h.inclusive
  target := h.target
  source := by
    rw [hobjects]
    exact h.source

/-- With no record left an advance finds nothing. -/
theorem Fetches.advance_of_nil (h : cursor.Fetches db stored seek world)
    (hleft : seek.remaining stored.records = []) (fuel : Nat) :
    ∃ cursor' world', cursor.advance (fuel + 1) world = ((.ok none, cursor'), world') := by
  obtain ⟨row, -, -, hrow, -⟩ := h.source
  obtain ⟨hnone, hdiagnostic⟩ := h.fetch_of_nil hrow hleft
  have hfollows := tame_call (.fetchNext cursor.handle row.handle) world
  have hmessage := (diagnostic_apply (hfollows.faultFree h.serves.faultFree) cursor.env).1
  rw [hdiagnostic, Option.map_none] at hmessage
  obtain ⟨seed?, htake⟩ := takeRow_eq hrow
  unfold advance
  rw [htake]
  dsimp only
  rw [bind_apply, hnone]
  dsimp only
  rw [bind_apply, hmessage]
  exact ⟨_, _, rfl⟩

/-- What an advance does on the verdict on the row that was fetched. -/
def proceed (fuel : Nat) (cursor : Cursor) (found : Row) :
    Verdict → Client (Except Failure (Option Row) × Cursor)
  | .pass => return (.ok (some found), { cursor with current? := some found })
  | .skip => advance fuel { cursor with current? := some found }
  | .stop => do
    found.release
    return (.ok none, { cursor with exhausted := true })

/-- With a record left an advance judges a row of the first, and the next fetch goes on behind it. -/
theorem Fetches.advance_of_cons (h : cursor.Fetches db stored seek world) {e : Key × Record}
    {rest : List (Key × Record)} (hleft : seek.remaining stored.records = e :: rest) (fuel : Nat) :
    ∃ row seed?, cursor.takeRow.1 = some row ∧
      let fetched := (call (.fetchNext cursor.handle row.handle) world).2
      let found : Row := ⟨cursor.env, world.engine.objects.issued + 1⟩
      let taken : Cursor := { cursor with seed?, current? := none }
      fetched.engine.objects.table.get? found.handle = some (.row (stored.rowOf db.handle e.2)) ∧
      { cursor with seed?, current? := some found }.Fetches db stored { seek with last? := some e.1 }
        fetched ∧
      cursor.advance (fuel + 1) world =
        taken.proceed fuel found (taken.judge found fetched).1 (taken.judge found fetched).2 := by
  obtain ⟨row, -, -, hrow, -⟩ := h.source
  obtain ⟨hsome, hfound, hfetches⟩ := h.fetch_of_cons hrow hleft
  obtain ⟨seed?, htake⟩ := takeRow_eq hrow
  refine ⟨row, seed?, hrow, hfound, hfetches seed?, ?_⟩
  rw [advance, htake]
  dsimp only
  rw [bind_apply, hsome]
  rfl

/-- With a record left an advance goes by the verdict on the first: it ends with a row of the record,
goes on behind it, or finds nothing. -/
theorem Scans.advance_of_cons (h : cursor.Scans db stored seek world) {e : Key × Record}
    {rest : List (Key × Record)} (hleft : seek.remaining stored.records = e :: rest) (fuel : Nat) :
    ∃ row cursor' world', cursor'.Scans db stored { seek with last? := some e.1 } world' ∧
      cursor'.verdict = cursor.verdict ∧
      match cursor.verdict stored.fields e with
      | .pass => cursor.advance (fuel + 1) world = ((.ok (some row), cursor'), world') ∧
          world'.engine.objects.row row.handle = .ok (stored.rowOf db.handle e.2)
      | .skip => cursor.advance (fuel + 1) world = cursor'.advance fuel world'
      | .stop => ∃ cursor' world', cursor.advance (fuel + 1) world =
          ((.ok none, cursor'), world') := by
  obtain ⟨row, seed?, hrow, hfound, -, hadvance⟩ := h.fetches.advance_of_cons hleft fuel
  set fetched := (call (.fetchNext cursor.handle row.handle) world).2 with hfetched
  set found : Row := ⟨cursor.env, world.engine.objects.issued + 1⟩ with hfoundRow
  have hnext := h.fetch_of_cons hrow hleft seed?
  rw [← hfetched, ← hfoundRow] at hnext
  have hmem : e ∈ stored.records.entries :=
    Seek.mem_of_mem_remaining h.inclusive (hleft ▸ List.mem_cons_self)
  have hserves : fetched.Serves found.env := by
    show fetched.Serves cursor.env
    rw [h.env]
    exact hnext.ready.serves
  obtain ⟨hverdict, hobjects⟩ := judgeGo_apply { cursor with seed?, current? := none }
    (h.ready.fits hmem).2.length_eq.symm hnext.ready.wellFormed
    hnext.ready.fields cursor.predicates .pass h.predicates hserves (Objects.database_eq_ok.1 hnext.ready.found) hfound
  have htame := (quiet_judge { cursor with seed?, current? := none } found).tame fetched
  refine ⟨found, { cursor with seed?, current? := some found },
    (judge { cursor with seed?, current? := none } found fetched).2,
    hnext.of_objects htame hobjects, rfl, ?_⟩
  have hjudge : (judge { cursor with seed?, current? := none } found fetched).1 =
      cursor.verdict stored.fields e := hverdict
  rw [hadvance, hjudge]
  cases cursor.verdict stored.fields e with
  | pass =>
    refine ⟨rfl, Objects.row_eq_ok.2 ?_⟩
    exact (congrArg (·.table.get? found.handle) hobjects).trans hfound
  | skip => rfl
  | stop => exact ⟨_, _, rfl⟩

/-- An advance with fetches enough finds the first record that passes before the scan stops. -/
theorem Scans.advance_eq : ∀ {fuel : Nat} {cursor : Cursor} {seek : Seek} {world : World},
    cursor.Scans db stored seek world → (seek.remaining stored.records).length < fuel →
      match cursor.finds stored seek with
      | [] => ∃ cursor' world', cursor.advance fuel world = ((.ok none, cursor'), world')
      | e :: rest => ∃ row cursor' world' seek',
          cursor.advance fuel world = ((.ok (some row), cursor'), world') ∧
            world'.engine.objects.row row.handle = .ok (stored.rowOf db.handle e.2) ∧
            cursor'.Scans db stored seek' world' ∧ cursor'.finds stored seek' = rest
  | 0, _, _, _, _, hfuel => absurd hfuel (Nat.not_lt_zero _)
  | fuel + 1, cursor, seek, world, h, hfuel => by
    cases hleft : seek.remaining stored.records with
    | nil =>
      have hnone : cursor.finds stored seek = [] := by rw [finds, hleft, sift]
      rw [hnone]
      exact h.fetches.advance_of_nil hleft fuel
    | cons e rest =>
      obtain ⟨row, cursor', world', hscans, hsame, hadvance⟩ := h.advance_of_cons hleft fuel
      have hrest : Seek.remaining { seek with last? := some e.1 } stored.records = rest :=
        Seek.remaining_of_cons h.inclusive hleft
      have hfinds : cursor'.finds stored { seek with last? := some e.1 } =
          sift (cursor.verdict stored.fields) rest := by rw [finds, hsame, hrest]
      rw [finds, hleft, sift]
      cases hverdict : cursor.verdict stored.fields e with
      | pass =>
        rw [hverdict] at hadvance
        exact ⟨row, cursor', world', _, hadvance.1, hadvance.2, hscans, hfinds⟩
      | skip =>
        rw [hverdict] at hadvance
        rw [hleft, List.length_cons] at hfuel
        have hless : (Seek.remaining { seek with last? := some e.1 } stored.records).length < fuel := by
          rw [hrest]
          exact Nat.lt_of_succ_lt_succ hfuel
        have ih := hscans.advance_eq hless
        rw [hfinds] at ih
        rw [hadvance]
        exact ih
      | stop =>
        rw [hverdict] at hadvance
        exact hadvance

/-! ### Draining -/

/-- Calling `next` in the middle of a scan advances with fetches enough. -/
theorem Scans.next_eq (h : cursor.Scans db stored seek world) : ∃ fuel,
    cursor.next world = cursor.advance fuel world ∧
      (seek.remaining stored.records).length < fuel := by
  obtain ⟨hexhausted, hclosed⟩ := h.unfinished
  have hopen : (isClosed cursor.env world).1 = false := by
    rw [isClosed_apply, h.env]
    exact h.ready.serves.isOpen
  refine ⟨world.engine.objects.recordCount + 1, ?_, Nat.lt_succ_of_le ?_⟩
  · unfold next
    rw [hexhausted, hclosed]
    simp only [Bool.or_self, Bool.false_eq_true, if_false]
    rw [bind_apply, hopen]
    rfl
  · exact Nat.le_trans (Seek.length_remaining_le h.inclusive)
      (Objects.size_le_recordCount (Objects.database_eq_ok.1 h.ready.found))

/-- A cursor in the middle of a scan finds the rows of the records that are left to it, sifted by
its verdicts. -/
theorem drains_of_scans {records : List (Key × Record)} :
    ∀ {cursor : Cursor} {seek : Seek} {world : World}, cursor.Scans db stored seek world →
      cursor.finds stored seek = records →
      cursor.Drains world (records.map fun e => stored.rowOf db.handle e.2) := by
  induction records with
  | nil =>
    intro cursor seek world h hfinds
    obtain ⟨fuel, hnext, hfuel⟩ := h.next_eq
    have hadvance := h.advance_eq hfuel
    rw [hfinds] at hadvance
    obtain ⟨cursor', world', hadvance⟩ := hadvance
    exact .done (hnext.trans hadvance)
  | cons e records ih =>
    intro cursor seek world h hfinds
    obtain ⟨fuel, hnext, hfuel⟩ := h.next_eq
    have hadvance := h.advance_eq hfuel
    rw [hfinds] at hadvance
    obtain ⟨row, cursor', world', seek', hadvance, hfound, hscans, hrest⟩ := hadvance
    exact .row (hnext.trans hadvance) hfound (ih hscans hrest)

end Client.Cursor
end RowStore
