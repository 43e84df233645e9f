/-
# Scans without constraints

A cursor that is given nothing but an order has no predicates: every row that it fetches matches. The
order is all that its seed row holds, under the name of a pseudo-field. A key field may have that name
too, and if it is the leading one and a byte string, the engine takes the order for the bytes to start
from: the records before them in the direction of the scan are left out. In every other database each
record is found once.

Key definitions: `Schema.orderSeed`, `Client.Cursor.Visits`.
Key theorems: `Client.Cursor.Visits.drains`, `Client.Database.Stands.openCursor_visits`,
`Client.newDatabase_visits_iff`.
-/
import RowStore.Proofs.Client.Draining
import RowStore.Proofs.Client.Finding
import RowStore.Proofs.Client.Naming
import RowStore.Proofs.Engine.Scanning

namespace RowStore

/-- What the engine takes for a seed when a row holds nothing but the order of a scan: the written order,
if the leading key is a byte string with the name of its pseudo-field. -/
def Schema.orderSeed (schema : Schema) (order : ScanOrder) : Key :=
  match schema.leading? with
  | none => []
  | some leading =>
    if leading.name = orderField ∧ leading.type = .string then
      [.bytes (Bytes.ofText order.inclusive.symbol)]
    else []

/-- Whether a scan leaves out a key because it takes its order for the bytes to start from. -/
def Schema.hides (schema : Schema) (order : ScanOrder) (key : Key) : Bool :=
  key.isBefore order.isDescending (schema.orderSeed order)

theorem Schema.length_orderSeed_le (schema : Schema) (order : ScanOrder) :
    (schema.orderSeed order).length ≤ schema.keys.length := by
  unfold orderSeed leading?
  cases schema.keys with
  | nil => exact Nat.le_refl 0
  | cons leading keys =>
    rw [List.head?_cons]
    dsimp only
    split
    · exact Nat.succ_le_succ (Nat.zero_le _)
    · exact Nat.zero_le _

/-- The rows of all records of a database, in the direction of a scan. -/
def Engine.Database.rowsIn (db : Engine.Database) (d : Handle) (order : ScanOrder) :
    List Engine.Row :=
  (order.arrange db.records).map fun e => db.rowOf d e.2

/-- A row that holds nothing but the order seeds its scan with the leading key field at most. -/
theorem Schema.leadingRun_order {schema : Schema} (hn : (schema.keys.map (·.name)).Nodup)
    (order : ScanOrder) {cells : Table String Cell}
    (hcells : ∀ name, cells.get? name = if name = orderField then
      some (.bytes (Bytes.ofText order.inclusive.symbol)) else none) :
    Engine.Objects.leadingRun (schema.keys.map fun field =>
      (cells.get? field.name).bind (KeyPart.ofCell? field.type)) = schema.orderSeed order := by
  unfold orderSeed leading?
  cases hkeys : schema.keys with
  | nil => rfl
  | cons leading keys =>
    rw [hkeys, List.map_cons, List.nodup_cons] at hn
    rw [List.map_cons, List.head?_cons, hcells]
    dsimp only
    by_cases hname : leading.name = orderField
    · obtain ⟨name, type, isKey⟩ := leading
      subst hname
      cases type with
      | int width reversed => cases reversed <;> rfl
      | string =>
        -- The key field behind the leading one has another name, so the seed ends there.
        cases keys with
        | nil => rfl
        | cons field keys =>
          have hother : field.name ≠ orderField := fun heq =>
            hn.1 (List.mem_map.2 ⟨field, List.mem_cons_self, heq⟩)
          rw [List.map_cons, hcells, if_neg hother]
          rfl
    · rw [if_neg hname, if_neg fun h => hname h.1]
      rfl

namespace Client

open Engine (Objects)

namespace Cursor

variable {db : Database} {stored : Engine.Database} {world world' : World} {cursor : Cursor}
  {seek : Seek}

/-! ### Cursors without predicates -/

/-- What draining a cursor finds is determined. -/
theorem Drains.unique {rows rows' : List Engine.Row} (h : cursor.Drains world rows)
    (h' : cursor.Drains world rows') : rows = rows' := by
  induction h generalizing rows' with
  | done next =>
    cases h' with
    | done _ => rfl
    | row next' _ _ =>
      rw [next] at next'
      cases next'
  | row next found _ ih =>
    cases h' with
    | done next' =>
      rw [next] at next'
      cases next'
    | row next' found' rest' =>
      rw [next] at next'
      cases next'
      rw [found] at found'
      cases found'
      rw [ih rest']

/-- The cursor is in the middle of a scan, and every row matches. -/
structure Visits (cursor : Cursor) (db : Database) (stored : Engine.Database) (seek : Seek)
    (world : World) : Prop where
  fetches : cursor.Fetches db stored seek world
  env : cursor.env = db.env
  unfinished : cursor.exhausted = false ∧ cursor.closed = false
  unconstrained : cursor.predicates = []
  inclusive : seek.excludesSeed = false

/-- The next row is that of the first record that is left. -/
theorem Visits.next_eq (h : cursor.Visits db stored seek world) :
    match seek.remaining stored.records with
    | [] => ∃ cursor' world', cursor.next world = ((.ok none, cursor'), world')
    | e :: _ => ∃ row cursor' world', cursor.next world = ((.ok (some row), cursor'), world') ∧
        world'.engine.objects.row row.handle = .ok (stored.rowOf db.handle e.2) ∧
        cursor'.Visits db stored { seek with last? := some e.1 } world' := by
  obtain ⟨hexhausted, hclosed⟩ := h.unfinished
  have hnext : cursor.next world =
      cursor.advance (world.engine.objects.recordCount + 1) world := by
    have hopen : (isClosed cursor.env world).1 = false := by
      rw [isClosed_apply, h.env]
      exact h.fetches.serves.isOpen
    unfold next
    rw [hexhausted, hclosed]
    simp only [Bool.or_self, Bool.false_eq_true, if_false]
    rw [bind_apply, hopen]
    rfl
  rw [hnext]
  cases hleft : seek.remaining stored.records with
  | nil => exact h.fetches.advance_of_nil hleft _
  | cons e rest =>
    obtain ⟨row, seed?, -, hfound, hfetches, hadvance⟩ := h.fetches.advance_of_cons hleft
      world.engine.objects.recordCount
    have hjudge : judge { cursor with seed?, current? := none } = fun _ => pure .pass := by
      unfold judge
      rw [h.unconstrained]
      rfl
    rw [hjudge] at hadvance
    exact ⟨_, _, _, hadvance, Objects.row_eq_ok.2 hfound, hfetches, h.env, h.unfinished,
      h.unconstrained, h.inclusive⟩

/-- A cursor on which every row matches finds all that is left to its scan. -/
theorem Visits.drains {records : List (Key × Record)} :
    ∀ {cursor : Cursor} {seek : Seek} {world : World}, cursor.Visits db stored seek world →
      seek.remaining stored.records = records →
      cursor.Drains world (records.map fun e => stored.rowOf db.handle e.2) := by
  induction records with
  | nil =>
    intro cursor seek world h hleft
    have hnext := h.next_eq
    rw [hleft] at hnext
    obtain ⟨cursor', world', hnext⟩ := hnext
    exact .done hnext
  | cons e records ih =>
    intro cursor seek world h hleft
    have hnext := h.next_eq
    rw [hleft] at hnext
    obtain ⟨row, cursor', world', hnext, hfound, hvisits⟩ := hnext
    exact .row hnext hfound (ih hvisits (Seek.remaining_of_cons h.inclusive hleft))

end Cursor

/-! ### Opening a cursor without constraints -/

section Opening

variable {db : Database} {stored : Engine.Database} {world : World}

/-- The scan that nothing but an order asks for. -/
def Database.orderSeek (db : Database) (order : ScanOrder) : Seek where
  db := db.handle
  order := order.inclusive
  keyTypes := db.schema.keys.map (·.type)
  seed := db.schema.orderSeed order
  startsWith? := none
  last? := none

theorem Database.fresh_orderSeek (db : Database) (order : ScanOrder) : (db.orderSeek order).Fresh where
  last := rfl
  inclusive := ScanOrder.isExclusive_inclusive order
  length := by
    show (db.schema.orderSeed order).length ≤ (db.schema.keys.map (·.type)).length
    rw [List.length_map]
    exact db.schema.length_orderSeed_le order
  leading h := by cases h

/-- A row of the database that holds nothing but the order of a scan. -/
def Database.orderRow (db : Database) (order : ScanOrder) : Engine.Row where
  db := db.handle
  cells := Table.insert {} orderField (.bytes (Bytes.ofText order.inclusive.symbol))

theorem Database.orderRow_get? (db : Database) (order : ScanOrder) (name : String) :
    (db.orderRow order).cells.get? name =
      if name = orderField then some (.bytes (Bytes.ofText order.inclusive.symbol)) else none :=
  Table.get?_insert ..

/-- The scan that such a row seeds. -/
theorem Database.seek_orderRow (hb : db.schema.Built) (hfields : stored.fields = db.schema.fields)
    (order : ScanOrder) {objects : Objects} (hdb : objects.database db.handle = .ok stored)
    (hopened : objects.ensureOpened stored.env = .ok ()) :
    objects.seek (db.orderRow order) = .ok (db.orderSeek order) := by
  have hkeys : stored.keyFields = db.schema.keys := by
    unfold Engine.Database.keyFields
    rw [hfields, hb.filter_isKey]
  have horder : Objects.orderOf (db.orderRow order) = .ok order.inclusive := by
    unfold Objects.orderOf
    rw [db.orderRow_get?, if_pos rfl]
    cases order <;> decide
  have hstart : Objects.startsWithOf stored (db.orderRow order) = .ok none := by
    unfold Objects.startsWithOf
    rw [db.orderRow_get?, if_neg (by decide)]
  have hnodup : (db.schema.keys.map (·.name)).Nodup :=
    hb.nodup.sublist ((List.sublist_append_left ..).map _)
  rw [Objects.seek_eq hdb hopened horder hstart]
  unfold Engine.Database.seekOf
  rw [hkeys, Schema.leadingRun_order hnodup order (db.orderRow_get? order)]
  rfl

/-- Without constraints nothing but the order is written to the seed row. -/
theorem seedScan_unconstrained (order? : Option ScanOrder) (termination? : Option Termination)
    (schema : Schema) (seed : Row) :
    seedScan { order?, termination? } schema seed = (do
      seed.setBytes orderField (Bytes.ofText (order?.getD default).inclusive.symbol)
      return []) := by
  have hfields : schema.fields.mapM (seedField { order?, termination? } schema seed) =
      pure (schema.fields.map fun _ => []) := by
    rw [show seedField { order?, termination? } schema seed = fun _ => pure [] from rfl,
      List.mapM_pure]
  have hflatten : (schema.fields.map fun _ => ([] : List Predicate)).flatten = [] := by
    rw [List.flatten_eq_nil_iff]
    intro list hlist
    obtain ⟨_, -, rfl⟩ := List.mem_map.1 hlist
    rfl
  unfold seedScan
  rw [hfields]
  simp only [List.find?_nil, seedStart, pure_bind, hflatten, List.nil_append]
  rfl

/-- A database that stands in an opened environment opens a cursor for nothing but an order. -/
theorem Database.Stands.openCursor_visits (hd : db.Stands world) (hb : db.schema.Built)
    (hstored : world.engine.objects.table.get? db.handle = some (.database stored))
    (hopened : world.engine.objects.ensureOpened db.env = .ok ()) (order? : Option ScanOrder)
    (termination? : Option Termination) :
    ∃ cursor after, (db.openCursor { order?, termination? }).run world = (.ok cursor, after) ∧
      cursor.Visits db stored (db.orderSeek (order?.getD default)) after := by
  generalize horder : (order?.getD default : ScanOrder) = order
  obtain ⟨own, hown, henv, hfields⟩ := hd.found
  obtain rfl : stored = own := by simpa [hstored] using hown
  -- The seed row is made, and the order is written to it.
  obtain ⟨seed, before, hnew, hretains, hrow⟩ := hd.newRow_apply
  have hd₁ := hretains.stands hd
  have hname : SharedName.beforeNul orderField = orderField := SharedName.beforeNul_eq (by decide)
  have hcell : cell? stored (SharedName.beforeNul orderField)
      (.str (Bytes.ofText order.inclusive.symbol)) =
        some (.bytes (Bytes.ofText order.inclusive.symbol)) := by
    rw [hname]
    rfl
  obtain ⟨middle, hset, hretains₁, hrow₁⟩ :=
    hd₁.set_apply hrow (hretains.same _ _ hstored nofun) hcell
  rw [hname] at hrow₁
  have hall := hretains.trans hretains₁
  have hd₂ := hall.stands hd
  have hseeding : seedScan { order?, termination? } db.schema seed before = (.ok [], middle) := by
    rw [seedScan_unconstrained, horder, attempt_bind_apply]
    rw [show seed.setBytes orderField _ before = _ from hset]
    rfl
  -- The cursor is made, and all else is there still.
  obtain ⟨env, hlive, hisOpen⟩ := Objects.ensureOpened_eq_ok.1 (hall.opened hopened)
  obtain ⟨after, hcursor, hobjects⟩ := hd₂.newCursor_apply
  have hkept : ∀ h object, middle.engine.objects.table.get? h = some object →
      after.engine.objects.table.get? h = some object := by
    intro h object hobject
    rw [hobjects, Objects.get?_add, if_neg, hobject]
    rintro rfl
    rw [hd₂.serves.reachable.sound.fresh] at hobject
    cases hobject
  have happly : (db.openCursor { order?, termination? }).run world =
      (.ok { env := db.env, handle := middle.engine.objects.issued + 1, seed? := some seed
             predicates := [], order
             termination := termination?.getD db.termination }, after) := by
    show db.openCursor { order?, termination? } world = _
    unfold Database.openCursor
    rw [attempt_bind_apply, hnew]
    dsimp only
    rw [tryCatch_apply, attempt_bind_apply, hseeding]
    dsimp only
    rw [attempt_bind_apply, hcursor]
    subst horder
    rfl
  have hfollows := (db.plain_openCursor { order?, termination? }).tame world
  rw [happly] at hfollows
  refine ⟨_, after, happly, ⟨hd.serves.follows hfollows,
    Objects.ensureOpened_eq_ok.2 ⟨env, hkept _ _ hlive, hisOpen⟩,
    Objects.database_eq_ok.2 (hkept _ _ (hall.same _ _ hstored nofun)), henv, rfl, seed,
    db.orderRow order, { env := db.env }, rfl, hkept _ _ hrow₁.found, ?_,
    .inr ⟨rfl, fun objects => db.seek_orderRow hb hfields order⟩⟩, rfl, ⟨rfl, rfl⟩, rfl, ?_⟩
  · show after.engine.objects.table.get? (middle.engine.objects.issued + 1) = _
    rw [hobjects, Objects.get?_add, if_pos rfl]
  · show (order.inclusive.isExclusive && _) = false
    rw [ScanOrder.isExclusive_inclusive]
    rfl

/-- What an order alone asks for are the records that it does not hide. -/
theorem Database.Stands.remaining_orderSeek (hd : db.Stands world) (hb : db.schema.Built)
    (hstored : world.engine.objects.table.get? db.handle = some (.database stored))
    (order : ScanOrder) :
    (db.orderSeek order).remaining stored.records =
      (order.arrange stored.records).filter fun e => !db.schema.hides order e.1 := by
  obtain ⟨own, hown, -, hfields⟩ := hd.found
  obtain rfl : stored = own := by simpa [hstored] using hown
  have hkinds := hd.serves.reachable.engine.ofKinds.records _ _ hstored
  unfold Engine.keyTypes at hkinds
  rw [hfields, hb.filter_isKey] at hkinds
  rw [Seek.remaining_of_fresh (db.fresh_orderSeek order) hkinds]
  show (order.inclusive.arrange stored.records).filter _ = _
  rw [ScanOrder.arrange_inclusive]
  refine List.filter_congr fun e _ => ?_
  show (!e.1.isBefore order.inclusive.isDescending _ && true) = _
  rw [ScanOrder.isDescending_inclusive, Bool.and_true]
  rfl

/-- A database that was declared opens, whenever it stands in an opened environment, a cursor for
nothing but an order, which finds the records that the order does not hide, each once and in order: all
that there are exactly if it hides none of them. -/
theorem newDatabase_visits_iff {env : Environment} {name : String} {schema : Schema}
    {merge? : Option MergeFn} {before declared : World} (hs : before.Serves env.handle)
    (hb : schema.Built) (hnew : env.newDatabase name schema merge? before = (.ok db, declared)) :
    db.Stands declared ∧ ∀ world stored order? termination?, db.Stands world →
      world.engine.objects.table.get? db.handle = some (.database stored) →
      world.engine.objects.ensureOpened db.env = .ok () →
      ∃ cursor opened, let order : ScanOrder := order?.getD default
        (db.openCursor { order?, termination? }).run world = (.ok cursor, opened) ∧
        (∀ rows, cursor.Drains opened rows ↔
          rows = ((order.arrange stored.records).filter fun e => !schema.hides order e.1).map
            fun e => stored.rowOf db.handle e.2) ∧
        (cursor.Drains opened (stored.rowsIn db.handle order) ↔
          ∀ e ∈ stored.records.entries, schema.hides order e.1 = false) := by
  obtain ⟨rfl, hdeclared⟩ := db.stands_of_newDatabase hs hb hnew
  refine ⟨hdeclared, fun world stored order? termination? hd hstored hopened => ?_⟩
  obtain ⟨cursor, opened, hopen, hvisits⟩ :=
    hd.openCursor_visits hb hstored hopened order? termination?
  have hdrains := hvisits.drains (hd.remaining_orderSeek hb hstored _)
  have hrows : ∀ rows, cursor.Drains opened rows ↔ rows = _ :=
    fun rows => ⟨fun h => h.unique hdrains, fun h => h ▸ hdrains⟩
  refine ⟨cursor, opened, hopen, hrows, ?_⟩
  rw [hrows]
  constructor
  · intro hsame e he
    -- As many records are found as there are, so none is left out.
    have hlength := congrArg List.length hsame
    unfold Engine.Database.rowsIn at hlength
    rw [List.length_map, List.length_map, eq_comm, List.length_filter_eq_length_iff] at hlength
    simpa using hlength e (ScanOrder.mem_arrange.2 he)
  · intro hnone
    unfold Engine.Database.rowsIn
    rw [List.filter_eq_self.2]
    intro e he
    rw [hnone e (ScanOrder.mem_arrange.1 he)]
    rfl

end Opening

/-! ### A leading key that is called order -/

namespace Ranks

/-- The schema of a database whose one key is a byte string called order. -/
def schema : Schema := { keys := [⟨"order", .string, true⟩] }

theorem built : schema.Built := by
  have horder : Schema.add? {} ⟨"order", .string, true⟩ = some schema := rfl
  exact .add .empty horder

/-- The environment. -/
def env : Environment := { handle := 1 }

/-- The world with the environment created. -/
def created : World := (call .newEnvironment {}).2.setLink 1 { cache := .ofPolicy .static }

theorem serves_created : created.Serves env.handle :=
  ⟨(World.Reachable.start.call _).create _ _, rfl, rfl⟩

/-- The database. -/
def database : Database := env.database 2 "ranks" schema none

/-- The world with the database declared. -/
def declared : World where
  engine := {
    objects := {
      issued := 2
      table := Table.ofList [(1, .environment { databases := Table.ofList [("ranks", 2)] }),
        (2, .database { env := 1, name := "ranks", fields := schema.fields })] } }
  calls := [⟨.handle, .resolve 1 ("db." ++ "ranks")⟩, ⟨.flag, .declare 1 "ranks" schema.fields⟩,
    ⟨.handle, .newEnvironment⟩]
  links := Table.ofList [(1, { cache := .ofPolicy .static })]

theorem newDatabase_eq : env.newDatabase "ranks" schema none created = (.ok database, declared) := by
  have hname : (!Environment.isDatabaseName "ranks") = false := by
    simp [Environment.isDatabaseName]
  unfold Environment.newDatabase
  rw [attempt_bind_apply, ensureOpen_apply rfl, hname]
  dsimp only
  rw [if_neg Bool.false_ne_true, attempt_bind_apply, orRefused_apply,
    call_apply serves_created.faultFree]
  unfold World.reach Engine.step
  dsimp only
  unfold Engine.declare
  rw [Objects.declare_eq (by simp)]
  rfl

/-- The world after a row was put into the database. -/
def insert (world : World) (order : Bytes) : World :=
  let row := world.engine.objects.issued + 1
  (call (.put 2 row) (call (.setBytes row "order" order) (call (.newRow 2) world).2).2).2

/-- The environment opened, and two rows in the database: one before the written order of an upward scan
and one behind it. -/
def world : World := insert (insert (call (.openEnvironment 1) declared).2 [0x31]) [0x7a]

/-- The database as the engine has it. -/
def stored : Engine.Database where
  env := 1
  name := "ranks"
  fields := schema.fields
  records := ⟨[([.bytes [0x31]], [.bytes [0x31]]), ([.bytes [0x7a]], [.bytes [0x7a]])], by decide⟩

theorem stands (h : database.Stands declared) : database.Stands world where
  serves := ⟨(((h.serves.reachable.call _).call _ |>.call _ |>.call _).call _ |>.call _ |>.call _),
    rfl, rfl⟩
  found := ⟨stored, rfl, rfl, rfl⟩

/-- An upward scan of the whole database leaves out the first of its rows. -/
theorem hides_first : ∃ cursor opened, (database.openCursor {}).run world = (.ok cursor, opened) ∧
    cursor.Drains opened [stored.rowOf database.handle [.bytes [0x7a]]] ∧
      ¬ cursor.Drains opened (stored.rowsIn database.handle .gte) := by
  obtain ⟨hdeclared, hvisits⟩ := newDatabase_visits_iff serves_created built newDatabase_eq
  obtain ⟨cursor, opened, hopen, hrows, hall⟩ :=
    hvisits world stored none none (stands hdeclared) rfl rfl
  refine ⟨cursor, opened, hopen, (hrows _).2 rfl, fun hdrains => ?_⟩
  exact absurd (hall.1 hdrains ([.bytes [0x31]], [.bytes [0x31]]) (by decide)) (by decide)

end Ranks

end Client
end RowStore
