/-
# Upserts that add up

Every upsert into a database whose merge function adds up a field puts the row that comes under its key,
with what is stored there added in the field. So after a run of upserts a record is stored under every key
that came: the last row of those that came with it, with the sum of their integers, cut to the width of
the field.

Key definitions: `Client.Database.AddsUp`, `Schema.upserted`, `Schema.withKeyOf`.
Key theorems: `Client.Database.AddsUp.upsert_apply`, `Client.Database.AddsUp.lookup_apply`,
`Schema.get?_foldl_upserted`.
-/
import RowStore.Proofs.Client.Filling
import RowStore.Proofs.Engine.Merging

namespace RowStore

open Client (assignedCell)

/-! ### What is stored -/

namespace Schema

variable {schema : Schema} {i : Nat} {type : FieldType}

/-- The records after an upsert of a row that is filled, where field `i` is added up. -/
def upserted (schema : Schema) (type : FieldType) (i : Nat) (records : Records)
    (fields : List (String × Value)) : Records :=
  records.insert (schema.keyFrom fields) (Record.addTo type i
    (records.get? (schema.keyFrom fields)) (schema.recordFrom fields))

/-- Those of the rows that have the cells of the row that is asked for in all key fields. -/
def withKeyOf (schema : Schema) (asked : List (String × Value))
    (rows : List (List (String × Value))) : List (List (String × Value)) :=
  rows.filter fun fields =>
    schema.keys.map (assignedCell fields) = schema.keys.map (assignedCell asked)

/-- After a run of upserts a key has what the rows that came with it are merged to. -/
theorem get?_foldl_upserted (hw : WellTyped schema.fields) {asked : List (String × Value)}
    (hasked : schema.Fills asked) {rows : List (List (String × Value))}
    (hrows : ∀ fields ∈ rows, schema.Fills fields) :
    (rows.foldl (schema.upserted type i) {}).get? (schema.keyFrom asked) =
      Record.merged type i ((schema.withKeyOf asked rows).map schema.recordFrom) := by
  induction rows using List.reverseRecOn with
  | nil => rfl
  | append_singleton rows fields ih =>
    have ih := ih fun fields hm => hrows fields (List.mem_append_left _ hm)
    have hkey := (hrows fields (List.mem_append_right _ (List.mem_singleton_self _))).keyFrom_inj
      hasked hw
    unfold withKeyOf at ih ⊢
    rw [List.foldl_append, List.foldl_cons, List.foldl_nil, upserted, Table.get?_insert,
      List.filter_append, List.filter_cons, List.filter_nil]
    by_cases hsame : schema.keyFrom fields = schema.keyFrom asked
    · rw [if_pos hsame.symm, if_pos (decide_eq_true (hkey.1 hsame)), hsame, ih]
      unfold Record.merged
      rw [List.map_append, List.foldl_append]
      rfl
    · rw [if_neg fun heq => hsame heq.symm,
        if_neg fun heq => hsame (hkey.2 (of_decide_eq_true heq)), List.append_nil, ih]

/-- So a key that came has the last row that came with it, with the sum of all in the field. -/
theorem get?_foldl_upserted_of_getLast? (hw : WellTyped schema.fields)
    (hi : i < schema.fields.length)
    {asked last : List (String × Value)} (hasked : schema.Fills asked)
    {rows : List (List (String × Value))} (hrows : ∀ fields ∈ rows, schema.Fills fields)
    (hlast : (schema.withKeyOf asked rows).getLast? = some last) :
    (rows.foldl (schema.upserted type i) {}).get? (schema.keyFrom asked) =
      some ((schema.recordFrom last).set i (.word (type.truncate
        ((schema.withKeyOf asked rows).map fun fields =>
          Record.wordAt i (schema.recordFrom fields)).sum))) := by
  obtain ⟨earlier, hsplit⟩ := List.getLast?_eq_some_iff.1 hlast
  have hlength : ∀ record ∈ earlier.map schema.recordFrom, i < record.length := by
    intro record hm
    obtain ⟨fields, -, rfl⟩ := List.mem_map.1 hm
    unfold recordFrom
    rw [List.length_map]
    exact hi
  rw [get?_foldl_upserted hw hasked hrows, hsplit, List.map_append, List.map_singleton,
    Record.merged_append_singleton hlength, ← List.map_singleton, ← List.map_append, List.map_map]
  rfl

end Schema

namespace Client

open Engine (Objects)

variable {db : Database} {world world' : World} {row : Row} {r : Engine.Row} {i : Nat}
  {records : Records} {counter : Field} {width : Width} {reversed : Bool}
  {fields : List (String × Value)}

/-- What a write through the database asks for is among its records afterwards. -/
theorem Database.Stands.write_apply (hd : db.Stands world) (hrow : db.Holds world row r)
    (hopen : world.engine.objects.ensureOpened db.env = .ok ()) {stored : Engine.Database}
    (hstored : world.engine.objects.table.get? db.handle = some (.database stored))
    {kind : WriteKind} {key : Key} {record : Record}
    (hsettle : (stored.settle world.mergeFunctions stored.records.get? r kind).1 =
      .ok (key, some record)) :
    ∃ after, (Store.database db).write row kind world = (.ok (), after) ∧ world.Follows after ∧
      after.engine.objects.table.get? db.handle =
        some (.database { stored with records := stored.records.insert key record }) ∧
      db.Stands after ∧ after.engine.objects.ensureOpened db.env = .ok () := by
  have hstored' := get?_remove_of_holds hrow hstored nofun
  obtain ⟨after, hwrite, hobjects, -, hd', hopen'⟩ := Database.GoesTo.database.write_apply hd hrow
    hopen hstored (Objects.visible_database hstored') hsettle
  have hput : (world.engine.objects.remove row.handle).writeThrough ⟨db.handle, key⟩ (some record) =
      _ := Objects.writeThrough_eq hstored' (some record)
  have hfollows := ((Store.database db).plain_write row kind).tame world
  rw [show ((Store.database db).write row kind).run world = _ from hwrite] at hfollows
  refine ⟨after, hwrite, hfollows, ?_, hd', hopen'⟩
  rw [Except.ok.inj (hobjects.symm.trans hput), Objects.get?_put, if_pos rfl]
  rfl

/-! ### Databases that add up a field -/

/-- The database holds the records, in an opened environment, and has a merge function that adds up
field `i`. -/
structure Database.AddsUp (db : Database) (i : Nat) (records : Records) (world : World) : Prop where
  stands : db.Stands world
  opened : world.engine.objects.ensureOpened db.env = .ok ()
  found : ∃ (stored : Engine.Database) (hook : Engine.Hook),
    world.engine.objects.table.get? db.handle = some (.database stored) ∧ stored.records = records ∧
      stored.hook? = some hook ∧ (world.mergeFunctions hook).AddsUp i

namespace Database.AddsUp

theorem retains (h : db.AddsUp i records world) (hr : Retains world world') :
    db.AddsUp i records world' := by
  obtain ⟨stored, hook, hstored, hrecords, hhook, hadds⟩ := h.found
  refine ⟨hr.stands h.stands, hr.opened h.opened, stored, hook, hr.same _ _ hstored nofun, hrecords,
    hhook, ?_⟩
  rw [hr.follows.mergeFunctions]
  exact hadds

/-- The records fit the fields of the schema. -/
theorem fits (h : db.AddsUp i records world) (hw : WellTyped db.schema.fields) {key : Key}
    {record : Record} (hget : records.get? key = some record) :
    Record.Fits db.schema.fields record := by
  obtain ⟨stored, hook, hstored, rfl, -⟩ := h.found
  have hfields := h.stands.fields_eq hstored
  rw [← hfields] at hw ⊢
  exact ((h.stands.serves.reachable.sound.sound _ _ hstored).2.2.2 hw _
    (Table.get?_eq_some_iff.1 hget)).2

variable (h : db.AddsUp i records world) (hb : db.schema.Built)
  (ha : ∀ field ∈ db.schema.fields, field.Accessible) (hfills : db.schema.Fills fields)
  (hrow : db.Holds world row r) (hfilled : Filled db.schema fields r)

include h hb ha hfills hrow hfilled

/-- An upsert of a row that is filled succeeds, and the row is added. -/
theorem upsert_apply (hcounter : db.schema.fields[i]? = some counter)
    (htype : counter.type = .int width reversed) :
    ∃ after, (Store.database db).write row .upsert world = (.ok (), after) ∧
      db.AddsUp i (db.schema.upserted counter.type i records fields) after := by
  obtain ⟨stored, hook, hstored, rfl, hhook, hadds⟩ := h.found
  have hfields := h.stands.fields_eq hstored
  have hw := hb.wellTyped ha
  have hfits := h.stands.fits hrow hw
  have hsettle : (stored.settle world.mergeFunctions stored.records.get? r .upsert).1 =
      .ok (db.schema.keyFrom fields, some (Record.addTo counter.type i
        (stored.records.get? (db.schema.keyFrom fields)) (db.schema.recordFrom fields))) := by
    rw [← hfilled.recordOf hfields]
    exact stored.settle_of_addsUp hhook hadds (hfields ▸ hcounter) htype (hfields ▸ hfits)
      (hfilled.keyOf hfields hb hfills hfits) fun record hget => hfields ▸ h.fits hw hget
  obtain ⟨after, hwrite, hfollows, hstored', hd, hopen⟩ :=
    h.stands.write_apply hrow h.opened hstored hsettle
  refine ⟨after, hwrite, hd, hopen, _, hook, hstored', rfl, hhook, ?_⟩
  rw [hfollows.mergeFunctions]
  exact hadds

/-- A record that is stored under the key of a row that is filled is found, and read as a whole. -/
theorem lookup_apply {record : Record}
    (hrecord : records.get? (db.schema.keyFrom fields) = some record) :
    ∃ found after, (Store.database db).lookup row world = (.ok found, after) ∧
      (found.dump db.schema after).1 = List.zipWith
        (fun field cell => Cell.read field.type.kind cell) db.schema.fields record := by
  have hlength := (h.fits (hb.wellTyped ha) hrecord).length_eq.symm
  obtain ⟨stored, hook, hstored, rfl, hhook, hadds⟩ := h.found
  have hfields := h.stands.fields_eq hstored
  have hfits := h.stands.fits hrow (hb.wellTyped ha)
  have hvisible : (world.engine.objects.remove row.handle).visible (Store.database db).onEngine
      db.handle (db.schema.keyFrom fields) = .ok (some record) :=
    (Objects.visible_database (get?_remove_of_holds hrow hstored nofun) _).trans
      (congrArg Except.ok hrecord)
  obtain ⟨found, after, hlookup, hretains, hfound⟩ := Database.GoesTo.database.lookup_of_visible
    h.stands hrow h.opened hstored (hfilled.keyOf hfields hb hfills hfits) hvisible
  exact ⟨found, after, hlookup,
    (hretains.stands h.stands).dump_rowOf hfound hb ha hfields hlength⟩

end Database.AddsUp
end Client
end RowStore
