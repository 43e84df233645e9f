/-
# Sessions that add up

In a session that upserts rows into a database whose merge function adds up an integer field, every upsert
is done, and whoever asks for the key of some of the rows finds the last of them, with the sum of their
integers in the field. The sum is that of the integers, signed or unsigned, modulo the size of the width:
nothing is lost to the images that it passes through, however often it wraps.

Key definitions: `Session.assignedNumber`.
Key theorems: `Session.run_upserts`, `Session.find_upserted`.
-/
import RowStore.Proofs.Client.Summing
import RowStore.Proofs.Session.Closing
import RowStore.Proofs.Session.Releasing

namespace RowStore.Session

open Client

variable {session : Session} {slot : Slot} {db : Database} {fields : Assignments}

/-- The integer that is assigned to a name last, 0 if there is none. -/
def assignedNumber (fields : Assignments) (name : String) : Int :=
  ((assigned? fields name).bind Value.number?).getD 0

/-! ### Schemas that sessions declare -/

/-- The schemas that databases are declared with are built field by field. -/
theorem built_schemaOf {fields? : Option (List Field)} {schema : Schema}
    (h : schemaOf fields? = .ok schema) : schema.Built := by
  cases fields? with
  | none =>
    cases h
    let keyed : Schema := { keys := [⟨"key", .string, true⟩] }
    have hkey : Schema.add? {} ⟨"key", .string, true⟩ = some keyed := rfl
    have hvalue : keyed.add? ⟨"value", .string, false⟩ = some .standard := rfl
    exact .add (.add .empty hkey) hvalue
  | some fields =>
    unfold schemaOf at h
    dsimp only at h
    generalize hstart : ({} : Schema) = start at h
    have hbuilt : start.Built := hstart ▸ .empty
    clear hstart
    induction fields generalizing start with
    | nil =>
      cases h
      exact hbuilt
    | cons field fields ih =>
      rw [List.foldlM_cons] at h
      cases hadd : start.add? field with
      | none =>
        rw [hadd] at h
        cases h
      | some next =>
        rw [hadd] at h
        exact ih next h (hbuilt.add hadd)

/-! ### Integers of rows -/

/-- The word in an integer field of the record of a row is the integer assigned to the field. -/
theorem wordAt_recordFrom {schema : Schema} {i : Nat} {counter : Field} {width : Width}
    {reversed : Bool} (hcounter : schema.fields[i]? = some counter)
    (htype : counter.type = .int width reversed) (fields : Assignments) :
    ((Record.wordAt i (schema.recordFrom fields)).toNat : Int) ≡
      assignedNumber fields counter.name [ZMOD width.size] := by
  have hcell : (schema.recordFrom fields)[i]? = some (assignedCell fields counter) := by
    unfold Schema.recordFrom
    rw [List.getElem?_map, hcounter, Option.map_some]
  unfold assignedCell at hcell
  unfold assignedNumber
  rw [htype] at hcell
  cases hvalue : assigned? fields counter.name with
  | none =>
    rw [hvalue] at hcell
    rw [Record.wordAt_of_getElem? hcell]
    rfl
  | some value =>
    rw [hvalue] at hcell
    cases value with
    | uint u =>
      rw [Record.wordAt_of_getElem? hcell]
      exact FieldType.toNat_truncate_modEq width reversed u
    | int v =>
      rw [Record.wordAt_of_getElem? hcell]
      refine (FieldType.toNat_truncate_modEq width reversed _).trans ?_
      show _ ≡ v.toInt [ZMOD width.size]
      rw [toNat_toUInt64]
      split
      · rfl
      · have hdvd : (width.size : Int) ∣ 2 ^ 64 := Int.natCast_dvd_natCast.2 width.size_dvd
        exact (Int.modEq_iff_dvd.2 (by simpa using hdvd)).symm
    | str b =>
      have hzero : Record.wordAt i (schema.recordFrom fields) = 0 := by
        unfold Record.wordAt
        rw [hcell]
        rfl
      rw [hzero]
      rfl

/-- The record of a row with another word in an integer field reads as the row with that word. -/
theorem read_recordFrom_set {schema : Schema} {i : Nat} {counter : Field} {width : Width}
    {reversed : Bool} (hcounter : schema.fields[i]? = some counter)
    (htype : counter.type = .int width reversed) (fields : Assignments) (w : UInt64) :
    List.zipWith (fun field cell => Cell.read field.type.kind cell) schema.fields
        ((schema.recordFrom fields).set i (.word w)) =
      (schema.fields.map fun field => (assignedCell fields field).read field.type.kind).set i
        (some (.uint w)) := by
  obtain ⟨hi, rfl⟩ := List.getElem?_eq_some_iff.1 hcounter
  unfold Schema.recordFrom
  refine List.ext_getElem (by simp) fun j hj hj' => ?_
  rw [List.getElem_zipWith, List.getElem_set, List.getElem_set]
  split
  · next heq =>
    subst heq
    rw [htype]
    rfl
  · rw [List.getElem_map, List.getElem_map]

/-! ### Commands -/

/-- A row of the database in a slot is made, filled and handed to the database. -/
theorem handing_apply {f : Database → Row → Store → Step Answer} {row : Row} {middle after : World}
    (hslot : session.slots.get? slot = some (.database db))
    (hnew : db.newRow session.world = (.ok row, middle))
    (hset : row.setAll fields middle = (.ok (), after)) :
    (database slot >>= fun db => filledRow db fields >>= fun made =>
      storeFor made slot >>= f db made) session =
        f db row (.database db) { session with world := after } := by
  have hdatabase : database slot session = (.ok db, session) := by
    unfold database
    rw [look_apply, hslot]
    rfl
  have hfilled : filledRow db fields session = (.ok row, { session with world := after }) := by
    unfold filledRow
    rw [attempt_bind_apply, attempt_apply, hnew]
    dsimp only
    rw [tryCatch_apply, attempt_bind_apply, attempt_apply, hset]
    rfl
  have hstore : ({ session with world := after } : Session).store? slot = some (.database db) :=
    Option.bind_eq_some_iff.2 ⟨_, hslot, rfl⟩
  rw [attempt_bind_apply, hdatabase]
  dsimp only
  rw [attempt_bind_apply, hfilled]
  dsimp only
  rw [attempt_bind_apply, storeFor_apply, hstore]

section Adding

variable {i : Nat} {counter : Field} {width : Width} {reversed : Bool} {records : Records}
  (hslot : session.slots.get? slot = some (.database db)) (hbuilt : db.schema.Built)
  (haccess : ∀ field ∈ db.schema.fields, field.Accessible)

include hslot hbuilt haccess

/-- An upsert is done, and its row is added. -/
theorem step_upsert (hadds : db.AddsUp i records session.world)
    (hcounter : db.schema.fields[i]? = some counter) (htype : counter.type = .int width reversed)
    (hfills : db.schema.Fills fields) :
    ∃ after, session.step (.put slot slot fields .upsert) =
        (.ok .done, { session with world := after }) ∧
      db.AddsUp i (db.schema.upserted counter.type i records fields) after := by
  obtain ⟨row, middle, filled, r, hnew, hset, hretains, hrow, hfilled⟩ :=
    hadds.stands.fill_apply hbuilt haccess hfills
  obtain ⟨after, hwrite, hafter⟩ := (hadds.retains hretains).upsert_apply hbuilt haccess hfills hrow
    hfilled hcounter htype
  refine ⟨after, ?_, hafter⟩
  refine (handing_apply hslot hnew hset
    (f := fun _ made target => attempt (target.write made .upsert) >>= fun _ => pure .done)).trans ?_
  rw [attempt_bind_apply, attempt_apply, hwrite]
  rfl

/-- A run of upserts is done, and the rows are added one after the other. -/
theorem run_upserts (hcounter : db.schema.fields[i]? = some counter)
    (htype : counter.type = .int width reversed) {rows : List Assignments}
    (hrows : ∀ fields ∈ rows, db.schema.Fills fields) (hadds : db.AddsUp i records session.world) :
    ∃ after, session.run (rows.map (.put slot slot · .upsert)) =
        (rows.map fun _ => .ok .done, { session with world := after }) ∧
      db.AddsUp i (rows.foldl (db.schema.upserted counter.type i) records) after := by
  induction rows generalizing session records with
  | nil => exact ⟨session.world, rfl, hadds⟩
  | cons fields rows ih =>
    rw [List.forall_mem_cons] at hrows
    obtain ⟨middle, hstep, hmiddle⟩ :=
      step_upsert hslot hbuilt haccess hadds hcounter htype hrows.1
    have hslot' : ({ session with world := middle } : Session).slots.get? slot =
      some (.database db) := hslot
    obtain ⟨after, hrun, hafter⟩ := ih hslot' hrows.2 hmiddle
    refine ⟨after, ?_, hafter⟩
    rw [List.map_cons, run, hstep]
    dsimp only
    rw [hrun]
    rfl

/-- A record that is stored under the key of a row is found. -/
theorem step_find (hadds : db.AddsUp i records session.world) (hfills : db.schema.Fills fields)
    {record : Record} (hrecord : records.get? (db.schema.keyFrom fields) = some record) :
    (session.step (.find slot slot fields)).1 = .ok (.dump (List.zipWith
      (fun field cell => Cell.read field.type.kind cell) db.schema.fields record)) := by
  obtain ⟨row, middle, filled, r, hnew, hset, hretains, hrow, hfilled⟩ :=
    hadds.stands.fill_apply hbuilt haccess hfills
  obtain ⟨found, after, hlookup, hdump⟩ := (hadds.retains hretains).lookup_apply hbuilt haccess hfills
    hrow hfilled hrecord
  refine (congrArg Prod.fst (handing_apply hslot hnew hset
    (f := fun db key source => attempt (source.lookup key) >>= fun found =>
      lift (found.dump db.schema) >>= fun dump => lift found.release >>= fun _ =>
        pure (.dump dump)))).trans ?_
  rw [attempt_bind_apply, attempt_apply, hlookup]
  dsimp only
  rw [attempt_bind_apply, lift_apply, hdump]
  rfl

/-- After any run of upserts into an empty database whose merge function adds up an integer field, whoever
asks for a key that came finds the last row of those that came with it, and in the field the sum of all
their integers modulo the size of the width. Fields that the last row left out are zero or empty. -/
theorem find_upserted (hadds : db.AddsUp i {} session.world)
    (hcounter : db.schema.fields[i]? = some counter) (htype : counter.type = .int width reversed)
    {rows : List Assignments} (hrows : ∀ fields ∈ rows, db.schema.Fills fields)
    {asked last : Assignments} (hasked : db.schema.Fills asked)
    (hlast : (db.schema.withKeyOf asked rows).getLast? = some last) :
    ∃ (after : Session) (total : UInt64),
      session.run (rows.map (.put slot slot · .upsert)) = (rows.map fun _ => .ok .done, after) ∧
      (total.toNat : Int) = ((db.schema.withKeyOf asked rows).map
        (assignedNumber · counter.name)).sum % 2 ^ (8 * width.bytes) ∧
      (after.step (.find slot slot asked)).1 = .ok (.dump ((db.schema.fields.map fun field =>
        (assignedCell last field).read field.type.kind).set i (some (.uint total)))) := by
  obtain ⟨after, hrun, hafter⟩ := run_upserts hslot hbuilt haccess hcounter htype hrows hadds
  obtain ⟨hi, hget⟩ := List.getElem?_eq_some_iff.1 hcounter
  have hslot' : ({ session with world := after } : Session).slots.get? slot = some (.database db) :=
    hslot
  refine ⟨_, _, hrun, FieldType.toNat_truncate_sum reversed fun fields _ =>
    wordAt_recordFrom hcounter htype fields, ?_⟩
  rw [step_find hslot' hbuilt haccess hafter hasked
    (Schema.get?_foldl_upserted_of_getLast? (hbuilt.wellTyped haccess) hi hasked hrows hlast),
    read_recordFrom_set hcounter htype, htype]

end Adding

/-! ### A stock -/

/-- What lies where, how much of it, counted in a byte, and a remark. -/
def stockFields : List Field := [
  ⟨"aisle", .int .two true, true⟩,
  ⟨"item", .string, true⟩,
  ⟨"count", .int .one false, false⟩,
  ⟨"remark", .string, false⟩]

/-- A session with an empty stock whose count is added up. -/
def stocked : Session := (run {} [
  .createEnvironment "shop" none .static .early,
  .declareDatabase "shop" "stock" "stock" (some stockFields) (some (.ofActs [.add 2])),
  .openEnvironment "shop"]).2

/-- The database of the stock. -/
def stock : Database where
  env := 1
  handle := 2
  name := "stock"
  schema := { keys := stockFields.take 2, values := stockFields.drop 2 }
  termination := .early
  token? := some 1

/-- What is delivered, and taken away. -/
def deliveries : List Assignments := [
  [("aisle", .uint 3), ("item", .str [97]), ("count", .uint 200), ("remark", .str [33])],
  [("aisle", .uint 3), ("item", .str [98]), ("count", .uint 7)],
  [("item", .str [97]), ("aisle", .uint 3), ("count", .int (-1)), ("order", .str [62])],
  [("aisle", .uint 3), ("item", .str [97]), ("remark", .str [63]), ("count", .uint 101)]]

/-- The same on the engine. -/
def stockStored : Engine.Database where
  env := 1
  name := "stock"
  fields := stockFields
  hook? := some ⟨1, 1⟩

theorem stock_addsUp : stock.AddsUp 2 {} stocked.world := by
  have hfound : stocked.world.engine.objects.table.get? 2 = some (.database stockStored) := by cbv
  have hfaults : stocked.world.plans = fun _ => [] := by cbv
  have hfunction : stocked.world.mergeFunctions ⟨1, 1⟩ = .ofActs [.add 2] := by cbv
  exact {
    stands := ⟨⟨(rooted_run _).1, hfaults, by cbv⟩, stockStored, hfound, rfl, rfl⟩
    opened := by cbv
    found := ⟨stockStored, ⟨1, 1⟩, hfound, rfl, rfl, hfunction ▸ MergeFn.addsUp_ofActs_add 2⟩ }

theorem stock_accessible : ∀ field ∈ stock.schema.fields, field.Accessible := by
  intro field hm
  have hnames : '\x00' ∉ field.name.toList ∧ field.name ≠ orderField ∧ field.name ≠ prefixField ∧
      field.name ≠ Engine.diagnosticKey := by
    revert field
    decide
  exact Field.accessible_of_name hnames.1 hnames.2.1 hnames.2.2.1 hnames.2.2.2

/-- The item that is asked for. -/
def askedItem : Assignments := [("aisle", .uint 3), ("item", .str [97])]

theorem stock_find_upserted : ∃ (after : Session) (total : UInt64),
    stocked.run (deliveries.map (.put "stock" "stock" · .upsert)) =
      (deliveries.map fun _ => .ok .done, after) ∧
    (total.toNat : Int) = (200 + -1 + 101) % 256 ∧
    (after.step (.find "stock" "stock" askedItem)).1 =
      .ok (.dump [some (.uint 3), some (.str [97]), some (.uint total), some (.str [63])]) := by
  have hslot : stocked.slots.get? "stock" = some (.database stock) := by cbv
  have hschema : schemaOf (some stockFields) = .ok stock.schema := by cbv
  have hrows : ∀ fields ∈ deliveries, stock.schema.Fills fields := by decide
  have hasked : stock.schema.Fills askedItem := by decide
  have hlast : (stock.schema.withKeyOf askedItem deliveries).getLast? =
    some [("aisle", .uint 3), ("item", .str [97]), ("remark", .str [63]), ("count", .uint 101)] := by
      cbv
  have hsum : ((stock.schema.withKeyOf askedItem deliveries).map (assignedNumber · "count")).sum %
      2 ^ (8 * Width.one.bytes) = (200 + -1 + 101) % 256 := by cbv
  obtain ⟨after, total, hrun, htotal, hfind⟩ := find_upserted hslot (built_schemaOf hschema)
    stock_accessible stock_addsUp rfl rfl hrows hasked hlast
  exact ⟨after, total, hrun, htotal.trans hsum, hfind⟩

end RowStore.Session
