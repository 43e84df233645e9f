/-
# The layout of a declared database

A schema keeps its key fields and its value fields apart, and the engine sorts the fields that are declared
to it once more. Whatever fields are offered to an empty schema, keys and values mixed and names used twice,
the ones that it accepts come out of it with the keys first, each kind in the order of the offers; and the
engine leaves fields in that order where they are. So client and engine have the same field in the same
position, also for the merge functions, and the same leading key, as long as the database is live.

Key definitions: `Schema.offer`, `Schema.offerAll`, `Schema.accepted`, `Engine.Database.LaidOut`.
Key theorems: `Schema.fields_offerAll`, `Schema.accepted_append`, `Schema.Built.laidOut`,
`Client.positions_agree`.
-/
import RowStore.Proofs.Client.Naming
import RowStore.Proofs.Client.Retrying
import RowStore.Proofs.Engine.Ending
import RowStore.Proofs.Engine.Positions

namespace RowStore

/-! ### Fields that are offered -/

namespace Schema

variable {schema schema' : Schema} {field : Field}

/-- The schema after a field is offered to it. If it rejects the field, it is as it was. -/
def offer (schema : Schema) (field : Field) : Schema := (schema.add? field).getD schema

/-- The schema after fields are offered to it one after the other. -/
def offerAll (schema : Schema) (offers : List Field) : Schema := offers.foldl offer schema

/-- Of fields that are offered one after the other, those that the schema takes. -/
def accepted : Schema → List Field → List Field
  | _, [] => []
  | schema, field :: offers =>
    match schema.add? field with
    | some schema' => field :: schema'.accepted offers
    | none => schema.accepted offers

theorem offer_eq_some (h : schema.add? field = some schema') : schema.offer field = schema' := by
  rw [offer, h, Option.getD_some]

theorem offer_eq_none (h : schema.add? field = none) : schema.offer field = schema := by
  rw [offer, h, Option.getD_none]

theorem offerAll_append (schema : Schema) (offers offers' : List Field) :
    schema.offerAll (offers ++ offers') = (schema.offerAll offers).offerAll offers' :=
  List.foldl_append

/-- The fields that are taken later on are those that the schema takes then. -/
theorem accepted_append (offers offers' : List Field) : ∀ schema : Schema,
    schema.accepted (offers ++ offers') =
      schema.accepted offers ++ (schema.offerAll offers).accepted offers' := by
  induction offers with
  | nil => exact fun _ => rfl
  | cons field offers ih =>
    intro schema
    rw [List.cons_append, accepted, accepted, offerAll, List.foldl_cons]
    cases hadd : schema.add? field with
    | none =>
      rw [offer_eq_none hadd]
      exact ih schema
    | some schema' =>
      rw [offer_eq_some hadd]
      exact congrArg (field :: ·) (ih schema')

/-- The fields that are taken go behind the fields of their kind, in the order of the offers. -/
theorem lists_offerAll (offers : List Field) : ∀ schema : Schema,
    (schema.offerAll offers).keys = schema.keys ++ (schema.accepted offers).filter (·.isKey) ∧
      (schema.offerAll offers).values =
        schema.values ++ (schema.accepted offers).filter (!·.isKey) := by
  induction offers with
  | nil => exact fun schema => ⟨(List.append_nil _).symm, (List.append_nil _).symm⟩
  | cons field offers ih =>
    intro schema
    rw [offerAll, List.foldl_cons, accepted]
    cases hadd : schema.add? field with
    | none =>
      rw [offer_eq_none hadd]
      exact ih schema
    | some schema' =>
      obtain ⟨hkeys, hvalues⟩ := ih schema'
      obtain ⟨hkeys', hvalues'⟩ := lists_of_add? hadd
      rw [hkeys', List.append_assoc, ← List.filter_append] at hkeys
      rw [hvalues', List.append_assoc, ← List.filter_append] at hvalues
      rw [offer_eq_some hadd]
      exact ⟨hkeys, hvalues⟩

/-- The fields of a schema are the keys that it took, then the values that it took. -/
theorem fields_offerAll (offers : List Field) : (offerAll {} offers).fields =
    (accepted {} offers).filter (·.isKey) ++ (accepted {} offers).filter (!·.isKey) := by
  obtain ⟨hkeys, hvalues⟩ := lists_offerAll offers {}
  rw [fields, hkeys, hvalues]
  rfl

theorem perm_fields_offerAll (offers : List Field) :
    (offerAll {} offers).fields.Perm (accepted {} offers) := by
  rw [fields_offerAll]
  exact List.filter_append_perm _ _

theorem Built.offerAll (h : schema.Built) (offers : List Field) : (schema.offerAll offers).Built := by
  induction offers generalizing schema with
  | nil => exact h
  | cons field offers ih =>
    have hoffer : (schema.offer field).Built := by
      cases hadd : schema.add? field with
      | none => rwa [offer_eq_none hadd]
      | some schema' =>
        rw [offer_eq_some hadd]
        exact .add h hadd
    exact ih hoffer

/-- No two of the fields that an empty schema takes share a name. -/
theorem nodup_accepted (offers : List Field) : ((accepted {} offers).map (·.name)).Nodup := by
  have hnames := (perm_fields_offerAll offers).map (·.name)
  exact hnames.nodup_iff.1 (Built.empty.offerAll offers).nodup

/-- One more field that is offered is rejected if a field of its name was taken, and then nothing changes.
Otherwise it is taken. -/
theorem offerAll_concat (offers : List Field) (field : Field) :
    (field.name ∈ (accepted {} offers).map (·.name) → (offerAll {} offers).add? field = none ∧
      offerAll {} (offers ++ [field]) = offerAll {} offers ∧
        accepted {} (offers ++ [field]) = accepted {} offers) ∧
    (field.name ∉ (accepted {} offers).map (·.name) →
      (offerAll {} offers).add? field = some (offerAll {} (offers ++ [field])) ∧
        accepted {} (offers ++ [field]) = accepted {} offers ++ [field]) := by
  have hnames : field.name ∈ (accepted {} offers).map (·.name) ↔
      field.name ∈ (offerAll {} offers).fields.map (·.name) :=
    ((perm_fields_offerAll offers).map (·.name)).mem_iff.symm
  have hschema : offerAll {} (offers ++ [field]) = (offerAll {} offers).offer field :=
    offerAll_append {} offers [field]
  rw [accepted_append, hschema, hnames, ← add?_eq_none_iff, accepted]
  cases hadd : (offerAll {} offers).add? field with
  | none =>
    rw [offer_eq_none hadd]
    exact ⟨fun _ => ⟨rfl, rfl, List.append_nil _⟩, fun hnot => absurd rfl hnot⟩
  | some schema' =>
    rw [offer_eq_some hadd]
    exact ⟨nofun, fun _ => ⟨rfl, rfl⟩⟩

end Schema

/-! ### Databases on the engine -/

/-- A database on the engine is laid out by a schema: it has the fields in their positions, its keys begin
with the leading one, and merges of its rows go by the positions. -/
structure Engine.Database.LaidOut (schema : Schema) (engine : Engine) (d : Handle)
    (stored : Engine.Database) : Prop where
  fields : stored.fields = schema.fields
  leading : stored.keyFields.head? = schema.leading?
  keys : ∀ r key, stored.keyOf r = .ok key → key.head? = schema.leading?.bind fun field =>
    (r.cells.get? field.name).bind (KeyPart.ofCell? field.type)
  merges : ∀ store row r merge, engine.objects.table.get? row = some (.row r) → r.db = d →
    (engine.objects.remove row).mergeOf store r = .ok merge →
      merge.ByPosition schema.fields engine store row r

/-- A database with the fields of a schema that was built field by field is laid out by it. -/
theorem Schema.Built.laidOut {schema : Schema} (h : schema.Built) {engine : Engine}
    (hr : engine.Reachable) {d : Handle} {stored : Engine.Database}
    (hstored : engine.objects.table.get? d = some (.database stored))
    (hfields : stored.fields = schema.fields) : stored.LaidOut schema engine d := by
  have hkeys := h.keyFields_eq hfields
  refine ⟨hfields, congrArg List.head? hkeys, fun r key hkey => ?_, ?_⟩
  · rw [Engine.Database.keyOf_eq_ok_iff, hkeys] at hkey
    unfold Schema.leading?
    generalize schema.keys = leading at hkey ⊢
    cases hkey with
    | nil => rfl
    | cons hpart _ => exact hpart.symm
  · rintro store row r merge hrow rfl hasks
    rw [← hfields]
    exact hr.byPosition hrow hstored (hfields ▸ h.nodup) hasks

namespace Client

/-- A database that was declared is live, and as long as it is it has the fields of its schema. -/
theorem Environment.fields_of_newDatabase {env : Environment} {name : String} {schema : Schema}
    {merge? : Option MergeFn} {before declared : World} {db : Database} (hr : before.Reachable)
    (hb : schema.Built)
    (hnew : env.newDatabase name schema merge? before = (.ok db, declared)) :
    db.schema = schema ∧
      (∃ stored, declared.engine.objects.table.get? db.handle = some (.database stored)) ∧
      ∀ (requests : List Engine.Request) (stored : Engine.Database),
        (declared.engine.run requests).objects.table.get? db.handle = some (.database stored) →
          stored.fields = schema.fields := by
  obtain ⟨token?, rfl, hdeclares⟩ := Environment.newDatabase_ok hr hnew
  have hdeclared := Environment.reachable_of_newDatabase hr hnew
  obtain ⟨hook?, hadded⟩ := hdeclares.added
  refine ⟨rfl, ⟨_, hadded⟩, fun requests stored hstored => ?_⟩
  have hsteady := Engine.steady_run hdeclared.engine requests
  have hle := (hdeclared.sound.live _ _ hadded).2
  obtain ⟨stored', heq, -, hkept⟩ := hsteady.database hle hadded hstored
  cases heq
  exact hkept.trans (hb.declared_fields env.handle name)

/-- **Client and engine agree on the positions of fields.** Of the fields that are offered to an empty
schema no two that it takes share a name. One more is rejected exactly if a field of its name was taken, and
then nothing changes; otherwise it is the last that is taken. The fields of the schema are the keys that it
took, then the values, each in the order of the offers. A database that is declared with it, in whatever
state and whatever calls are planned to fail, is live, and after any further calls, if it still is, the
engine has it laid out by the schema. -/
theorem positions_agree (offers : List Field) :
    ((Schema.accepted {} offers).map (·.name)).Nodup ∧
    (∀ field : Field,
      (field.name ∈ (Schema.accepted {} offers).map (·.name) →
        (Schema.offerAll {} offers).add? field = none ∧
          Schema.offerAll {} (offers ++ [field]) = Schema.offerAll {} offers ∧
            Schema.accepted {} (offers ++ [field]) = Schema.accepted {} offers) ∧
      (field.name ∉ (Schema.accepted {} offers).map (·.name) →
        (Schema.offerAll {} offers).add? field = some (Schema.offerAll {} (offers ++ [field])) ∧
          Schema.accepted {} (offers ++ [field]) = Schema.accepted {} offers ++ [field])) ∧
    (Schema.offerAll {} offers).fields = (Schema.accepted {} offers).filter (·.isKey) ++
      (Schema.accepted {} offers).filter (!·.isKey) ∧
    ∀ (env : Environment) (name : String) (merge? : Option MergeFn) (before declared : World)
      (db : Database), before.Reachable →
      env.newDatabase name (Schema.offerAll {} offers) merge? before = (.ok db, declared) →
        db.schema = Schema.offerAll {} offers ∧
        (∃ stored, declared.engine.objects.table.get? db.handle = some (.database stored)) ∧
        ∀ (requests : List Engine.Request) (stored : Engine.Database),
          (declared.engine.run requests).objects.table.get? db.handle = some (.database stored) →
            stored.LaidOut db.schema (declared.engine.run requests) db.handle := by
  refine ⟨Schema.nodup_accepted offers, Schema.offerAll_concat offers,
    Schema.fields_offerAll offers, ?_⟩
  intro env name merge? before declared db hr hnew
  have hb : (Schema.offerAll {} offers).Built := Schema.Built.empty.offerAll offers
  obtain ⟨hschema, hlive, hfields⟩ := Environment.fields_of_newDatabase hr hb hnew
  have hdeclared := (Environment.reachable_of_newDatabase hr hnew).engine
  refine ⟨hschema, hlive, fun requests stored hstored => ?_⟩
  rw [hschema]
  exact hb.laidOut (hdeclared.run requests) hstored (hfields requests stored hstored)

/-! ### A stock -/

namespace Stock

/-- Fields of a stock, keys and values mixed. Two of them have names that are taken. -/
def offers : List Field := [
  ⟨"count", .int .four false, false⟩, ⟨"zone", .string, true⟩, ⟨"count", .string, true⟩,
  ⟨"id", .int .eight false, true⟩, ⟨"zone", .int .one false, false⟩, ⟨"note", .string, false⟩]

/-- The merge function that adds up what is in the third position. -/
def adding : MergeFn := .ofActs [.add 2]

/-- The world with the stock declared. -/
def declared : World :=
  (Orders.env.newDatabase "stock" (Schema.offerAll {} offers) (some adding) Orders.created).2

/-- The calls that fill a new row of the stock. -/
def fill (row : Handle) (count : UInt64) : List Engine.Request := [
  ⟨fun _ => adding, .newRow 2⟩, ⟨fun _ => adding, .setBytes row "zone" [65]⟩,
  ⟨fun _ => adding, .setWord row "id" 7⟩, ⟨fun _ => adding, .setWord row "count" count⟩]

/-- The calls that upsert a row with a count of five and fill another with a count of six. -/
def requests : List Engine.Request :=
  ⟨fun _ => adding, .openEnvironment 1⟩ :: fill 3 5 ++ ⟨fun _ => adding, .upsert 2 3⟩ :: fill 4 6

/-- The engine after the calls. -/
def filled : Engine := declared.engine.run requests

/-- The other row. -/
def row : Engine.Row where
  db := 2
  cells := Table.ofList [("zone", .bytes [65]), ("id", .word 7), ("count", .word 6)]

/-- The merge that an upsert of the other row asks for. -/
def merge : Engine.Objects.Merge where
  target := .database 2
  place := ⟨2, [.bytes [65], .up 7]⟩
  hook := ⟨1, 1⟩
  existing := some [[65], Bytes.ofWord 8 7, Bytes.ofWord 4 5, []]
  incoming := [[65], Bytes.ofWord 8 7, Bytes.ofWord 4 6, []]

/-- The counts come third, where the merge function adds them up, although they were offered first. -/
theorem positions_agree_stock :
    (Schema.offerAll {} offers).fields.map (·.name) = ["zone", "id", "count", "note"] ∧
      ∃ db stored, Orders.env.newDatabase "stock" (Schema.offerAll {} offers) (some adding)
          Orders.created = (.ok db, declared) ∧
        filled.objects.table.get? 2 = some (.database stored) ∧
        stored.LaidOut (Schema.offerAll {} offers) filled 2 ∧
        merge.ByPosition (Schema.offerAll {} offers).fields filled 2 4 row ∧
        ∃ found, (filled.step (fun _ => adding) (.upsert 2 4)).2.objects.found? 2 row = some found ∧
          found.cells.get? "count" = some (.word 11) := by
  obtain ⟨-, -, -, hagree⟩ := positions_agree offers
  have hnew : (Orders.env.newDatabase "stock" (Schema.offerAll {} offers) (some adding)
      Orders.created).1 = .ok (Orders.env.database 2 "stock" (Schema.offerAll {} offers) (some 1)) := by
    cbv
  obtain ⟨-, -, hlaid⟩ :=
    hagree Orders.env "stock" (some adding) _ _ _ Orders.serves_created.reachable (Prod.ext hnew rfl)
  have hlive : (filled.objects.database 2).isOk = true := by cbv
  cases hstored : filled.objects.database 2 with
  | error refusal =>
    rw [hstored] at hlive
    cases hlive
  | ok stored =>
    have hfound := Engine.Objects.database_eq_ok.1 hstored
    have hout := hlaid requests stored hfound
    have hrow : filled.objects.table.get? 4 = some (.row row) := by cbv
    have hasks : (filled.objects.remove 4).mergeOf 2 row = .ok merge := by cbv
    have hmerge := hout.merges 2 4 row merge hrow rfl hasks
    have hupsert : (filled.step (fun _ => adding) (.upsert 2 4)).1 = true := by cbv
    obtain ⟨found, hlookup, hmade⟩ := hmerge.result (fun _ => adding) _ (Prod.ext hupsert rfl)
    obtain ⟨image, cell, himage, hdecode, hcell⟩ :=
      hmade 2 ⟨"count", .int .four false, false⟩ (by decide)
    cases himage.symm.trans (show _ = some (Bytes.ofWord 4 11) by decide)
    cases hdecode.symm.trans (show _ = some (Cell.word 11) by decide)
    exact ⟨by decide, _, stored, Prod.ext hnew rfl, hfound, hout, hmerge, found, hlookup, hcell⟩

end Stock

end Client
end RowStore
