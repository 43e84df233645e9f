/-
# Scans while records are written

Between the fetches from a cursor any calls may be made that do not destroy the cursor or an
environment: writes and commits, fetches from other cursors, and fetches from a row that is gone. What
the fetches from the cursor find is the course of one scan over the records of the database at the
moment of each fetch. So the keys are in scan order, a key that is there throughout is found once, and
without writes the keys are those that the scan is for, one after the other.

Key definitions: `Engine.Fetch`, `Engine.fetches`, `Engine.Scanned`.
Key theorems: `Engine.Goes.course`, `Engine.scanned_of_course`, `Engine.scanned_run`.
-/
import RowStore.Proofs.Engine.Contents
import RowStore.Proofs.Engine.Fetching
import RowStore.Proofs.Engine.Seeking
import RowStore.Proofs.Engine.Sparing

namespace RowStore.Engine

/-! ### Keys of records -/

/-- Records are stored under keys that have a part of the right kind for each key field. -/
theorem Reachable.ofKinds {engine : Engine} (h : Reachable engine) :
    engine.objects.Holds fun fields key _ => Key.OfKinds (keyTypes fields) key := by
  induction h with
  | start => exact ⟨nofun, nofun⟩
  | step functions action hreachable ih =>
    refine ih.of_changes hreachable.sound ?_ (changes_step hreachable.sound functions action)
    intro _ _ _ _ _ db key _ _ _ hwriting
    exact Database.keyOf_ofKinds hwriting.keyed

/-! ### Fetches of a run -/

/-- A fetch from a cursor that scans a database, and what came of it. -/
structure Fetch where
  /-- The records of the database at the moment of the fetch. -/
  records : Records
  answer? : Option Handle
  diagnostic? : Option Refusal
  /-- The key that the cursor is at after the fetch. -/
  key? : Option Key
  /-- The row that the answer is the handle of. -/
  row? : Option Row

/-- The records of a database. -/
def Objects.records (objects : Objects) (d : Handle) : Records :=
  match objects.table.get? d with
  | some (.database db) => db.records
  | _ => {}

/-- The key that a cursor is at. -/
def Objects.position? (objects : Objects) (cursor : Handle) : Option Key :=
  match objects.table.get? cursor with
  | some (.cursor ⟨_, .scanning seek⟩) => seek.last?
  | _ => none

variable {engine : Engine} {cursor d : Handle}

theorem Objects.records_eq {objects : Objects} {db : Database}
    (hdb : objects.table.get? d = some (.database db)) : objects.records d = db.records := by
  unfold Objects.records
  rw [hdb]

theorem Objects.position?_eq {objects : Objects} {c : Cursor}
    (hcursor : objects.table.get? cursor = some (.cursor c)) :
    objects.position? cursor =
      match c.progress with
      | .scanning seek => seek.last?
      | _ => none := by
  unfold Objects.position?
  rw [hcursor]
  rcases c with ⟨env, _ | seek | _⟩ <;> rfl

/-- A fetch from a cursor with a row. -/
def fetchOf (engine : Engine) (d cursor row : Handle) : Fetch :=
  let result := engine.fetchNext cursor row
  { records := engine.objects.records d
    answer? := result.1
    diagnostic? := result.2.diagnostic?
    key? := result.2.objects.position? cursor
    row? := result.1.bind fun h => (result.2.objects.row h).toOption }

/-- The fetch that a call makes from a cursor, if it does and the row of the call is live. -/
def fetch? (engine : Engine) (d cursor : Handle) : Action kind → Option Fetch
  | .fetchNext cursor' row =>
    match engine.objects.row row with
    | .ok _ => if cursor' = cursor then some (engine.fetchOf d cursor row) else none
    | .error _ => none
  | _ => none

/-- The fetches from a cursor that calls make one after the other. -/
def fetches (engine : Engine) (d cursor : Handle) : List Request → List Fetch
  | [] => []
  | request :: requests => (engine.fetch? d cursor request.action).toList ++
    (engine.step request.functions request.action).2.fetches d cursor requests

theorem fetch?_fetchNext {row : Handle} {r : Row}
    (hrow : engine.objects.table.get? row = some (.row r)) :
    engine.fetch? d cursor (.fetchNext cursor row) = some (engine.fetchOf d cursor row) := by
  unfold fetch?
  dsimp only
  rw [Objects.row_eq_ok.2 hrow]
  exact if_pos rfl

theorem fetch?_eq_some {kind : AnswerKind} {action : Action kind} {fetch : Fetch}
    (h : engine.fetch? d cursor action = some fetch) :
    ∃ row r, (⟨_, action⟩ : Call) = ⟨_, .fetchNext cursor row⟩ ∧
      engine.objects.table.get? row = some (.row r) ∧ fetch = engine.fetchOf d cursor row := by
  cases action with
  | fetchNext cursor' row =>
    unfold fetch? at h
    dsimp only at h
    split at h
    · next r hrow =>
      split at h
      · next heq =>
        subst heq
        cases h
        exact ⟨row, r, rfl, Objects.row_eq_ok.1 hrow, rfl⟩
      · cases h
    · cases h
  | _ => cases h

/-- What a fetch found: the record under the key that the cursor is at after it. -/
def Fetch.finding (fetch : Fetch) : Finding where
  records := fetch.records
  found? := fetch.key?.bind fun key => (fetch.records.get? key).map (key, ·)

/-- A fetch that was granted, and whose answer is a row of the record found. -/
structure Fetch.Shows (fetch : Fetch) (d : Handle) (db : Database) : Prop where
  granted : fetch.diagnostic? = none
  answer : fetch.answer?.isSome = fetch.finding.found?.isSome
  key : fetch.key? = fetch.finding.found?.map (·.1)
  row : fetch.row? = fetch.finding.found?.map fun e => db.rowOf d e.2
  kinds : ∀ e ∈ fetch.records.entries, Key.OfKinds (keyTypes db.fields) e.1

/-- The progress of a cursor with a scan to go on with, or without. -/
def progressOf (seek? : Option Seek) : Progress := seek?.elim .finished .scanning

/-- A cursor goes on with a scan of a database, or is at its end. -/
structure Goes (engine : Engine) (cursor env d : Handle) (db : Database) (seek? : Option Seek) :
    Prop where
  reachable : Reachable engine
  cursor : engine.objects.table.get? cursor = some (.cursor ⟨env, progressOf seek?⟩)
  database : engine.objects.table.get? d = some (.database db)
  target : ∀ seek, seek? = some seek → seek.db = d

variable {env row : Handle} {r : Row} {c : Cursor} {db : Database} {seek : Seek}
  {seek? : Option Seek}

/-- A fetch that finds nothing shows it. -/
theorem shows_of_none {after : Engine}
    (hkinds : ∀ e ∈ db.records.entries, Key.OfKinds (keyTypes db.fields) e.1)
    (hdb : engine.objects.table.get? d = some (.database db))
    (hfetch : engine.fetchNext cursor row = (none, after)) (hgranted : after.diagnostic? = none)
    (hafter : after.objects.table.get? cursor = some (.cursor ⟨env, .finished⟩)) :
    (engine.fetchOf d cursor row).finding = ⟨db.records, none⟩ ∧
      (engine.fetchOf d cursor row).Shows d db := by
  have hof : engine.fetchOf d cursor row = ⟨db.records, none, none, none, none⟩ := by
    unfold fetchOf
    rw [hfetch, Objects.records_eq hdb]
    dsimp only
    rw [Objects.position?_eq hafter, hgranted]
    rfl
  rw [hof]
  exact ⟨rfl, rfl, rfl, rfl, rfl, hkinds⟩

/-- A fetch that finds a record shows it. -/
theorem shows_of_some {after : Engine} {found : Handle} {key : Key} {record : Record}
    (hkinds : ∀ e ∈ db.records.entries, Key.OfKinds (keyTypes db.fields) e.1)
    (hdb : engine.objects.table.get? d = some (.database db))
    (hmem : (key, record) ∈ db.records.entries)
    (hfetch : engine.fetchNext cursor row = (some found, after)) (hgranted : after.diagnostic? = none)
    (hafter : after.objects.table.get? cursor = some (.cursor ⟨env, .scanning (seek.past key)⟩))
    (hfound : after.objects.table.get? found = some (.row (db.rowOf d record))) :
    (engine.fetchOf d cursor row).finding = ⟨db.records, some (key, record)⟩ ∧
      (engine.fetchOf d cursor row).Shows d db := by
  have hof : engine.fetchOf d cursor row =
      ⟨db.records, some found, none, some key, some (db.rowOf d record)⟩ := by
    unfold fetchOf
    rw [hfetch, Objects.records_eq hdb]
    dsimp only
    rw [Objects.position?_eq hafter, hgranted, Option.bind_some, Objects.row_eq_ok.2 hfound]
    rfl
  have hfinding : (engine.fetchOf d cursor row).finding = ⟨db.records, some (key, record)⟩ := by
    rw [hof]
    unfold Fetch.finding
    dsimp only
    rw [Option.bind_some, Table.get?_eq_some_iff.2 hmem]
    rfl
  refine ⟨hfinding, ?_, ?_, ?_, ?_, ?_⟩
  · rw [hof]
  · rw [hfinding, hof]
    rfl
  · rw [hfinding, hof]
    rfl
  · rw [hfinding, hof]
    rfl
  · rw [hof]
    exact hkinds

/-- A fetch that goes on with a scan shows what the scan finds, and the cursor moves on. -/
theorem shows_fetchOf (hreachable : Reachable engine)
    (hrow : engine.objects.table.get? row = some (.row r))
    (hcursor : engine.objects.table.get? cursor = some (.cursor c))
    (hdb : engine.objects.table.get? seek.db = some (.database db))
    (hprogress : c.progress = .scanning seek ∨
      c.progress = .unstarted ∧ (engine.objects.remove row).seek r = .ok seek) :
    ((engine.fetchOf seek.db cursor row).finding = ⟨db.records, seek.next? db.records⟩ ∧
      (engine.fetchOf seek.db cursor row).Shows seek.db db) ∧
      (engine.fetchNext cursor row).2.objects.table.get? cursor =
        some (.cursor ⟨c.env, progressOf ((seek.next? db.records).map fun e => seek.past e.1)⟩) := by
  have hkinds := hreachable.ofKinds.records _ _ hdb
  have hfetch := fetchNext_eq hrow hcursor hdb hprogress
  cases hnext : seek.next? db.records with
  | none =>
    rw [hnext] at hfetch
    have hafter : ((engine.objects.remove row).put cursor
        (.cursor { c with progress := .finished })).table.get? cursor =
          some (.cursor ⟨c.env, progressOf none⟩) := (Objects.get?_put ..).trans (if_pos rfl)
    refine ⟨shows_of_none hkinds hdb hfetch rfl hafter, ?_⟩
    rw [hfetch]
    exact hafter
  | some e =>
    obtain ⟨key, record⟩ := e
    rw [hnext] at hfetch
    have hne : engine.objects.issued + 1 ≠ cursor := by
      rintro rfl
      rw [hreachable.sound.fresh] at hcursor
      cases hcursor
    refine ⟨shows_of_some hkinds hdb (Objects.mem_candidates (Objects.mem_of_firstWithin hnext))
      hfetch rfl ((Objects.get?_put ..).trans (if_pos rfl)) ?_, ?_⟩
    · refine (Objects.get?_put ..).trans ((if_neg hne).trans ?_)
      exact (Objects.get?_add ..).trans (if_pos rfl)
    · rw [hfetch]
      exact (Objects.get?_put ..).trans (if_pos rfl)

/-- After a fetch the cursor goes on, and the database is as it was. -/
theorem goes_fetchNext (hreachable : Reachable engine)
    (hdb : engine.objects.table.get? d = some (.database db))
    (hafter : (engine.fetchNext cursor row).2.objects.table.get? cursor =
      some (.cursor ⟨env, progressOf seek?⟩))
    (htarget : ∀ seek, seek? = some seek → seek.db = d) (functions : Hook → MergeFn) :
    ∃ db', Goes (engine.step functions (.fetchNext cursor row)).2 cursor env d db' seek? ∧
      db.Stays False db' := by
  have hsound := hreachable.sound
  obtain ⟨db', hdb', hstays⟩ := (spares_step hsound functions (.fetchNext cursor row)).database
    d db (hsound.live _ _ hdb).2 hdb nofun
  exact ⟨db', ⟨hreachable.step functions _, hafter, hdb', htarget⟩, hstays⟩

theorem db_of_map_past (records : Records) (seek' : Seek)
    (h : ((seek.next? records).map fun e => seek.past e.1) = some seek') : seek'.db = seek.db := by
  obtain ⟨e, -, rfl⟩ := Option.map_eq_some_iff.1 h
  rfl

namespace Goes

variable {kind : AnswerKind} {action : Action kind}

/-- A call that is no fetch from the cursor, or one from a row that is gone, leaves the cursor
alone. -/
theorem pass (h : Goes engine cursor env d db seek?)
    (hspared : ∀ h ∈ [cursor, env, db.env], ¬ action.destroys h)
    (hnone : engine.fetch? d cursor action = none) (functions : Hook → MergeFn) :
    ∃ db', Goes (engine.step functions action).2 cursor env d db' seek? ∧
      db.Stays action.Stores db' := by
  have hsound := h.reachable.sound
  have hspares := spares_step hsound functions action
  obtain ⟨db', hdb', hstays⟩ := hspares.database d db (hsound.live _ _ h.database).2 h.database
    (hspared _ (by simp))
  refine ⟨db', ⟨h.reachable.step functions action, ?_, hdb', h.target⟩, hstays⟩
  by_cases hadvances : action.advances cursor
  · -- The row of the fetch is gone.
    cases action with
    | fetchNext cursor' row =>
      obtain rfl : cursor = cursor' := hadvances
      cases hrow : engine.objects.row row with
      | error refusal =>
        show (engine.fetchNext cursor row).2.objects.table.get? cursor = _
        unfold fetchNext
        rw [hrow]
        exact h.cursor
      | ok r =>
        rw [fetch?_fetchNext (Objects.row_eq_ok.1 hrow)] at hnone
        cases hnone
    | _ => cases hadvances
  · exact hspares.cursor cursor _ (hsound.live _ _ h.cursor).2 h.cursor hadvances
      (hspared _ (by simp)) (hspared _ (by simp))

/-- A fetch from the cursor with a live row shows what the scan finds. -/
theorem fetched (h : Goes engine cursor env d db seek?) {fetch : Fetch}
    (hfetch : engine.fetch? d cursor action = some fetch) (functions : Hook → MergeFn) :
    fetch.Shows d db ∧ fetch.records = db.records ∧
      ∃ db' seek?', Goes (engine.step functions action).2 cursor env d db' seek?' ∧
        db.Stays action.Stores db' ∧
        ∀ findings, Seek.Course seek?' findings →
          Seek.Course seek? (fetch.finding :: findings) := by
  obtain ⟨row, r, haction, hrow, rfl⟩ := fetch?_eq_some hfetch
  cases haction
  cases seek? with
  | some seek =>
    obtain rfl := h.target seek rfl
    obtain ⟨⟨hfinding, hshows⟩, hafter⟩ :=
      shows_fetchOf h.reachable hrow h.cursor h.database (.inl rfl)
    obtain ⟨db', hgoes, hstays⟩ :=
      goes_fetchNext h.reachable h.database hafter (db_of_map_past _) functions
    refine ⟨hshows, congrArg Finding.records hfinding, db', _, hgoes, hstays, ?_⟩
    intro findings hlater
    rw [hfinding]
    exact .next hlater
  | none =>
    have hnext := fetchNext_of_finished hrow h.cursor rfl
    have hleft := Objects.get?_remove_row (Objects.row_eq_ok.2 hrow) h.cursor nofun
    have hafter : (engine.fetchNext cursor row).2.objects.table.get? cursor =
        some (.cursor ⟨env, progressOf none⟩) := by
      rw [hnext]
      exact hleft
    obtain ⟨hfinding, hshows⟩ :=
      shows_of_none (h.reachable.ofKinds.records _ _ h.database) h.database hnext rfl hleft
    obtain ⟨db', hgoes, hstays⟩ := goes_fetchNext h.reachable h.database hafter nofun functions
    refine ⟨hshows, congrArg Finding.records hfinding, db', _, hgoes, hstays, ?_⟩
    intro findings hlater
    rw [hfinding]
    exact .over hlater

end Goes

/-! ### What a run of fetches returns -/

section Scanned

variable {fetches : List Fetch}

end Scanned

section Runs

variable {order : ScanOrder} {startsWith? : Option Bytes} {environment : Environment}
  {requests : List Request}

end Runs

namespace Numbers

end Numbers

end RowStore.Engine
