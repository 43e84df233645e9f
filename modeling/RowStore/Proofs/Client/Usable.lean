/-
# Schemas that can be used

A name of a field is cut at its first NUL on the way to the engine, and three names mean something else
there: under the names of the pseudo-fields a row takes byte strings only, and under the key of the
diagnostic every handle reads as the diagnostic. If the fields of a schema keep clear of that, they are
set and read back each by itself, and rows are stored and found again under their keys.

Key definitions: `Schema.Built`, `Field.Accessible`, `Client.Database.Stands`, `Client.Database.Usable`.
Key theorems: `Client.Database.Stands.set_get`, `Client.Database.Stands.put_lookup`,
`Client.Database.usable_of_accessible`.
-/
import RowStore.Proofs.Client.Declaring
import RowStore.Proofs.Client.Writing
import RowStore.Proofs.Engine.Isolation

namespace RowStore

/-! ### Schemas that are built -/

namespace Schema

variable {schema schema' : Schema} {field : Field}

/-- A schema rejects the names that it has, and no others. -/
theorem add?_eq_none_iff :
    schema.add? field = none ↔ field.name ∈ schema.fields.map (·.name) := by
  have htaken : (schema.field? field.name).isSome = true ↔
      field.name ∈ schema.fields.map (·.name) := by
    unfold field?
    rw [List.find?_isSome, List.mem_map]
    simp only [beq_iff_eq]
  unfold add?
  rw [← htaken]
  by_cases h : (schema.field? field.name).isSome = true
  · simp [h]
  · rw [if_neg h]
    split <;> simp [h]

/-- A field that is taken goes behind the fields of its kind. -/
theorem lists_of_add? (h : schema.add? field = some schema') :
    schema'.keys = schema.keys ++ [field].filter (·.isKey) ∧
      schema'.values = schema.values ++ [field].filter (!·.isKey) := by
  unfold add? at h
  split at h
  · cases h
  · split at h
    · next hkey =>
      cases h
      simp [hkey]
    · next hkey =>
      cases h
      simp [Bool.eq_false_iff.2 hkey]

/-- It is one more field. -/
theorem perm_of_add? (h : schema.add? field = some schema') :
    schema'.fields.Perm (field :: schema.fields) := by
  obtain ⟨hkeys, hvalues⟩ := lists_of_add? h
  rw [fields, fields, hkeys, hvalues]
  cases hkey : field.isKey with
  | true => simp [hkey]
  | false =>
    simpa [hkey] using List.perm_append_singleton field (schema.keys ++ schema.values)

end Schema

/-- The schemas that are built field by field. -/
inductive Schema.Built : Schema → Prop where
  | empty : Built {}
  | add {schema schema' : Schema} {field : Field} (built : schema.Built)
    (added : schema.add? field = some schema') : schema'.Built

/-- Whether values of the kind are taken by fields of the type. -/
def FieldType.Takes (type : FieldType) (kind : ValueKind) : Prop := type.isString = (kind == .str)

/-- What a cell reads as, in a kind that it can be read in. -/
def Cell.read (kind : ValueKind) : Cell → Option Value
  | .word w =>
    match kind with
    | .int => some (.int w.toInt64)
    | .uint => some (.uint w)
    | .str => none
  | .bytes b => if kind = .str then some (.str b) else none

/-- A kind of values that fields of the type take. -/
def FieldType.kind (type : FieldType) : ValueKind := if type.isString then .str else .uint

theorem FieldType.takes_kind (type : FieldType) : type.Takes type.kind := by
  cases type <;> rfl

/-- A cell that fits reads as something in the kinds that its field takes. -/
theorem Cell.isSome_read {type : FieldType} {cell : Cell} (hfits : cell.Fits type) {kind : ValueKind}
    (hkind : type.Takes kind) : (cell.read kind).isSome = true := by
  cases cell with
  | word w =>
    have hint : false = (kind == .str) := hfits.1.symm.trans hkind
    cases kind with
    | int => rfl
    | uint => rfl
    | str => cases hint
  | bytes b =>
    have hstring : true = (kind == .str) := Eq.trans (Eq.symm hfits) hkind
    rw [eq_of_beq hstring.symm]
    rfl

/-- Cells that fit are told apart by what they read as. -/
theorem Cell.read_injective {type : FieldType} {cell cell' : Cell} (hfits : cell.Fits type)
    (hfits' : cell'.Fits type) (h : cell.read type.kind = cell'.read type.kind) : cell = cell' := by
  cases type with
  | int width reversed =>
    cases cell with
    | word w =>
      cases cell' with
      | word w' =>
        cases h
        rfl
      | bytes b => cases hfits'
    | bytes b => cases hfits
  | string =>
    cases cell with
    | word w => cases hfits.1
    | bytes b =>
      cases cell' with
      | word w => cases hfits'.1
      | bytes b' =>
        cases h
        rfl

/-- A field that can be accessed under its name: it has no NUL, is not that of a pseudo-field unless the
field is a byte string, and is not the key of the diagnostic if it is one. -/
structure Field.Accessible (field : Field) : Prop where
  noNul : '\x00' ∉ field.name.toList
  pseudo : Engine.isPseudoField field.name = true → field.type.isString = true
  diagnostic : field.name = Engine.diagnosticKey → field.type.isString = false

/-- Under a name without NUL that means nothing else, a field can be accessed. -/
theorem Field.accessible_of_name {field : Field} (hnul : '\x00' ∉ field.name.toList)
    (horder : field.name ≠ orderField) (hlead : field.name ≠ prefixField)
    (herror : field.name ≠ Engine.diagnosticKey) : field.Accessible where
  noNul := hnul
  pseudo hp := by
    rcases Bool.or_eq_true_iff.1 hp with h | h
    · exact absurd (eq_of_beq h) horder
    · exact absurd (eq_of_beq h) hlead
  diagnostic heq := absurd heq herror

namespace Schema.Built

variable {schema : Schema}

theorem nodup (h : schema.Built) : (schema.fields.map (·.name)).Nodup := by
  induction h with
  | empty => exact List.nodup_nil
  | @add schema schema' field _ added ih =>
    have hfresh : field.name ∉ schema.fields.map (·.name) := fun hm => by
      rw [add?_eq_none_iff.2 hm] at added
      cases added
    have hnodup : ((field :: schema.fields).map (·.name)).Nodup := by
      rw [List.map_cons, List.nodup_cons]
      exact ⟨hfresh, ih⟩
    exact ((perm_of_add? added).map _).nodup_iff.2 hnodup

theorem isKey (h : schema.Built) : (∀ field ∈ schema.keys, field.isKey = true) ∧
    ∀ field ∈ schema.values, field.isKey = false := by
  induction h with
  | empty => exact ⟨nofun, nofun⟩
  | add _ added ih =>
    obtain ⟨hkeys, hvalues⟩ := lists_of_add? added
    rw [hkeys, hvalues, List.forall_mem_append, List.forall_mem_append]
    refine ⟨⟨ih.1, fun other hm => (List.mem_filter.1 hm).2⟩, ih.2, fun other hm => ?_⟩
    simpa using (List.mem_filter.1 hm).2

/-- The key fields among the fields. -/
theorem filter_isKey (h : schema.Built) : schema.fields.filter (·.isKey) = schema.keys := by
  have hvalues : schema.values.filter (·.isKey) = [] :=
    List.filter_eq_nil_iff.2 fun field hm => by simp [h.isKey.2 field hm]
  rw [Schema.fields, List.filter_append, List.filter_eq_self.2 h.isKey.1, hvalues, List.append_nil]

/-- The key fields of a database with the fields of the schema. -/
theorem keyFields_eq (h : schema.Built) {stored : Engine.Database}
    (hfields : stored.fields = schema.fields) : stored.keyFields = schema.keys := by
  rw [Engine.Database.keyFields, hfields, h.filter_isKey]

/-- A declaration leaves the fields in their order. -/
theorem declared_fields (h : schema.Built) (env : Handle) (name : String) :
    (Engine.Objects.declared env name schema.fields).fields = schema.fields := by
  have hkeys : schema.keys.filter (!·.isKey) = [] :=
    List.filter_eq_nil_iff.2 fun field hm => by simp [h.isKey.1 field hm]
  have hvalues : schema.values.filter (!·.isKey) = schema.values :=
    List.filter_eq_self.2 fun field hm => by simp [h.isKey.2 field hm]
  show schema.fields.filter (·.isKey) ++ schema.fields.filter (!·.isKey) = _
  rw [h.filter_isKey, Schema.fields, List.filter_append, hkeys, hvalues, List.nil_append]

theorem wellTyped (h : schema.Built) (ha : ∀ field ∈ schema.fields, field.Accessible) :
    WellTyped schema.fields := ⟨h.nodup, fun field hm => (ha field hm).pseudo⟩

end Schema.Built

namespace Engine.Database

variable {db : Database} {r : Row}

/-- The part of a key that the cell of a field makes, the lowest if there is none. -/
def partOf (r : Row) (field : Field) : KeyPart :=
  ((r.cells.get? field.name).bind (KeyPart.ofCell? field.type)).getD (.least field.type)

/-- A row whose key fields hold cells that fit has a key. -/
theorem keyOf_eq_partOf (hfits : r.Fits db.fields)
    (hset : ∀ field ∈ db.keyFields, (r.cells.get? field.name).isSome = true) :
    db.keyOf r = .ok (db.keyFields.map (partOf r)) := by
  rw [keyOf_eq_ok_iff, List.forall₂_map_right_iff, List.forall₂_same]
  intro field hm
  obtain ⟨cell, hcell⟩ := Option.isSome_iff_exists.1 (hset field hm)
  have hfit := hfits field (List.mem_of_mem_filter hm) cell hcell
  obtain ⟨part, hpart⟩ := KeyPart.exists_ofCell? hfit
  unfold partOf
  rw [hcell, Option.bind_some, hpart, Option.getD_some]

/-- The cells of the row of a record that a row makes. -/
theorem rowOf_recordOf_get? (hn : (db.fields.map (·.name)).Nodup) (h : Handle) (name : String) :
    (db.rowOf h (db.recordOf r)).cells.get? name =
      (db.fields.find? (·.name == name)).map fun field =>
        (r.cells.get? field.name).getD (Cell.unset field.type) := by
  unfold recordOf
  rw [rowOf_get? hn (List.length_map _), ← List.map_prod_left_eq_zip, List.find?_map, Option.map_map]
  rfl

end Engine.Database

namespace Client

open Engine (Objects)

/-! ### Databases that stand -/

/-- The engine has the database, with the fields of its schema, and its environment is not closed. -/
structure Database.Stands (db : Database) (world : World) : Prop where
  serves : world.Serves db.env
  found : ∃ stored : Engine.Database,
    world.engine.objects.table.get? db.handle = some (.database stored) ∧ stored.env = db.env ∧
      stored.fields = db.schema.fields

/-- The row is one of the database, and the engine has it. -/
structure Database.Holds (db : Database) (world : World) (row : Row) (r : Engine.Row) : Prop where
  env : row.env = db.env
  found : world.engine.objects.table.get? row.handle = some (.row r)
  own : r.db = db.handle

/-- The stores that rows of the database go to: the database, and the transactions of its environment
that are not finished. -/
inductive Database.GoesTo (db : Database) (world : World) : Store → Prop where
  | database : GoesTo db world (.database db)
  | transaction {tx : Transaction} {pending : Engine.Transaction} (env : tx.env = db.env)
    (unfinished : tx.finished = false)
    (live : world.engine.objects.table.get? tx.handle = some (.transaction pending)) :
    GoesTo db world (.transaction tx)

/-- The databases and the transactions that there were are there, with what they have. -/
def KeepsStores (world world' : World) : Prop :=
  ∀ h object, object.storeEnv?.isSome = true → world.engine.objects.table.get? h = some object →
    world'.engine.objects.table.get? h = some object

/-- Whatever came before, fields of rows of the database can be set and read back, each by itself; and a
row whose key fields are set can be stored, and is found again under its key, fields that were not set at
zero or empty. -/
structure Database.Usable (db : Database) : Prop where
  set : ∀ world row r, db.Stands world → db.Holds world row r →
    ∀ field ∈ db.schema.fields, ∀ value : Value, field.type.Takes value.kind →
      (row.set field.name value world).1 = .ok () ∧
      (∀ kind, field.type.Takes kind →
        (row.get field.name kind (row.set field.name value world).2).1 =
          (value.cellIn field.type).read kind) ∧
      ∀ other ∈ db.schema.fields, other ≠ field → ∀ kind, other.type.Takes kind →
        (row.get other.name kind (row.set field.name value world).2).1 =
          (row.get other.name kind world).1
  store : ∀ world row r store, db.Stands world → db.Holds world row r → db.GoesTo world store →
    world.engine.objects.ensureOpened db.env = .ok () →
    (∀ field ∈ db.schema.keys, ∀ kind, field.type.Takes kind →
      (row.get field.name kind world).1.isSome = true) →
    (store.write row .put world).1 = .ok () ∧
    ∀ later key k, db.Stands later → KeepsStores (store.write row .put world).2 later →
      later.engine.objects.ensureOpened db.env = .ok () → db.Holds later key k →
      (∀ field ∈ db.schema.keys, ∀ kind, field.type.Takes kind →
        (key.get field.name kind later).1 = (row.get field.name kind world).1) →
      ∃ found after, store.lookup key later = (.ok found, after) ∧
        ∀ field ∈ db.schema.fields, ∀ kind, field.type.Takes kind →
          (found.get field.name kind after).1 =
            (row.get field.name kind world).1.or ((Cell.unset field.type).read kind)

variable {db : Database} {world : World} {row : Row} {r : Engine.Row} {field : Field}

/-! ### Fields that can be accessed -/

theorem isOk_eq_true {failure : Type} {result : Except failure Unit} (h : result.isOk = true) :
    result = .ok () := by
  cases result with
  | error _ => cases h
  | ok _ => rfl

/-- The fields on the engine are those of the schema. -/
theorem Database.Stands.fields_eq (hd : db.Stands world) {stored : Engine.Database}
    (hstored : world.engine.objects.table.get? db.handle = some (.database stored)) :
    stored.fields = db.schema.fields := by
  obtain ⟨found, hfound, -, hfields⟩ := hd.found
  cases hstored.symm.trans hfound
  exact hfields

/-- The cells of a row fit the fields of its database. -/
theorem Database.Stands.fits (hd : db.Stands world) (hrow : db.Holds world row r)
    (hw : WellTyped db.schema.fields) : r.Fits db.schema.fields := by
  obtain ⟨stored, hstored, -, hfields⟩ := hd.found
  obtain ⟨env, name, fields, houtline, hfits⟩ := hd.serves.reachable.sound.sound _ _ hrow.found
  rw [hrow.own, Objects.outline?_of_database hstored] at houtline
  cases houtline
  rw [← hfields] at hw ⊢
  exact hfits hw

/-- What is read of an accessible field of a row is what its cell reads as. -/
theorem get_apply (hd : db.Stands world) (hrow : db.Holds world row r)
    (hfits : r.Fits db.schema.fields) (hn : (db.schema.fields.map (·.name)).Nodup)
    (hm : field ∈ db.schema.fields) (ha : field.Accessible) {kind : ValueKind}
    (hkind : field.type.Takes kind) :
    (row.get field.name kind world).1 = (r.cells.get? field.name).bind (Cell.read kind) := by
  obtain ⟨stored, hstored, -, hfields⟩ := hd.found
  have hs : world.Serves row.env := hrow.env ▸ hd.serves
  have hword := (Row.getWord_apply hs ha.noNul hrow.found).1
  have hcell : ∀ cell, r.cells.get? field.name = some cell → cell.Fits field.type := hfits field hm
  cases kind with
  | int =>
    rw [Row.get_int_apply, hword]
    cases hget : r.cells.get? field.name with
    | none => rfl
    | some cell => cases cell <;> rfl
  | uint =>
    rw [Row.get_uint_apply, hword]
    cases hget : r.cells.get? field.name with
    | none => rfl
    | some cell => cases cell <;> rfl
  | str =>
    have hstring : field.type.isString = true := hkind
    have herror : field.name ≠ Engine.diagnosticKey := fun heq => by
      rw [ha.diagnostic heq] at hstring
      cases hstring
    rw [← hfields] at hn hm
    have hbytes := (Row.getBytes_apply hs ha.noNul herror hrow.found (hrow.own ▸ hstored)
      (Engine.Database.field_of_mem hn hm)).1
    rw [Row.get_str_apply, hbytes]
    cases hget : r.cells.get? field.name with
    | none => rfl
    | some cell =>
      cases cell with
      | bytes b => rfl
      | word w =>
        rw [(hcell _ hget).1] at hstring
        cases hstring

/-! ### What is kept -/

/-- Nothing but rows has changed. -/
structure Retains (world world' : World) : Prop where
  follows : world.Follows world'
  same : ∀ h object, world.engine.objects.table.get? h = some object → (∀ r, object ≠ .row r) →
    world'.engine.objects.table.get? h = some object

section Retains

variable {world' world'' : World}

theorem Retains.refl (world : World) : Retains world world := ⟨.refl world, fun _ _ h _ => h⟩

theorem Retains.trans (h : Retains world world') (h' : Retains world' world'') :
    Retains world world'' where
  follows := h.follows.trans h'.follows
  same handle object hget hne := h'.same handle object (h.same handle object hget hne) hne

theorem Retains.stands (h : Retains world world') (hd : db.Stands world) : db.Stands world' := by
  obtain ⟨stored, hstored, henv, hfields⟩ := hd.found
  exact ⟨hd.serves.follows h.follows, stored, h.same _ _ hstored nofun, henv, hfields⟩

theorem Retains.opened (h : Retains world world') {env : Handle}
    (hopen : world.engine.objects.ensureOpened env = .ok ()) :
    world'.engine.objects.ensureOpened env = .ok () := by
  obtain ⟨stored, hstored, hopened⟩ := Objects.ensureOpened_eq_ok.1 hopen
  exact Objects.ensureOpened_eq_ok.2 ⟨stored, h.same _ _ hstored nofun, hopened⟩

theorem Retains.keepsStores (h : Retains world world') : KeepsStores world world' :=
  fun handle object hstore hget => h.same handle object hget fun r heq => by
    rw [heq] at hstore
    cases hstore

end Retains

/-! ### Fields that are set -/

/-- Setting a field puts the cell of the value, if there is one, under the name up to its first NUL. -/
theorem Database.Stands.set_apply (hd : db.Stands world) (hrow : db.Holds world row r)
    {stored : Engine.Database}
    (hstored : world.engine.objects.table.get? db.handle = some (.database stored)) {name : String}
    {value : Value} {cell : Cell} (hcell : cell? stored (SharedName.beforeNul name) value = some cell) :
    ∃ after, row.set name value world = (.ok (), after) ∧ Retains world after ∧
      db.Holds after row { r with cells := r.cells.insert (SharedName.beforeNul name) cell } := by
  have hs : world.Serves row.env := hrow.env ▸ hd.serves
  obtain ⟨hok, hobjects, -⟩ := setValue_apply hs hrow.found (hrow.own ▸ hstored) name value hcell
  have hget : ∀ h, (row.set name value world).2.engine.objects.table.get? h =
      if h = row.handle then
        some (.row { r with cells := r.cells.insert (SharedName.beforeNul name) cell })
      else world.engine.objects.table.get? h := fun h => by
    rw [hobjects]
    exact Objects.get?_put ..
  refine ⟨(row.set name value world).2, Prod.ext (isOk_eq_true hok) rfl,
    ⟨(row.quiet_set name value).tame world, fun h object hobject hne => ?_⟩, hrow.env, ?_, hrow.own⟩
  · rw [hget, if_neg, hobject]
    rintro rfl
    rw [hrow.found] at hobject
    exact hne r (Option.some.inj hobject).symm
  · rw [hget, if_pos rfl]

/-- A value of a kind that a field takes makes its cell, if the name of the field means nothing else. -/
theorem cell?_of_field {stored : Engine.Database}
    (hn : (stored.fields.map (·.name)).Nodup) (hm : field ∈ stored.fields)
    (hnul : '\x00' ∉ field.name.toList)
    (hpseudo : Engine.isPseudoField field.name = true → field.type.isString = true)
    {value : Value} (hkind : field.type.Takes value.kind) :
    cell? stored (SharedName.beforeNul field.name) value = some (value.cellIn field.type) := by
  have hfield : (stored.field field.name).toOption = some field := by
    rw [Engine.Database.field_of_mem hn hm]
    rfl
  have hword : field.type.isString = false → ∀ w, wordCell? stored field.name w =
      some (.word (field.type.truncate w)) := fun hint w => by
    have hproper : Engine.isPseudoField field.name = false :=
      Bool.eq_false_iff.2 fun hp => Bool.false_ne_true (hint.symm.trans (hpseudo hp))
    simp [wordCell?, hproper, hfield, hint]
  rw [SharedName.beforeNul_eq hnul]
  cases value with
  | int v => exact hword hkind _
  | uint v => exact hword hkind _
  | str b =>
    have hstring : field.type = .string := by
      cases htype : field.type with
      | string => rfl
      | int width reversed =>
        rw [htype] at hkind
        cases hkind
    show bytesCell? stored field.name b = some (.bytes b)
    unfold bytesCell?
    split
    · rfl
    · rw [hfield, Option.bind_some, hstring]
      rfl

/-- A field that is accessible is set and read back, and no other is. -/
theorem Database.Stands.set_get (hd : db.Stands world) (hrow : db.Holds world row r)
    (hb : db.schema.Built) (ha : ∀ field ∈ db.schema.fields, field.Accessible)
    (hm : field ∈ db.schema.fields) {value : Value} (hkind : field.type.Takes value.kind) :
    (row.set field.name value world).1 = .ok () ∧
      (∀ kind, field.type.Takes kind →
        (row.get field.name kind (row.set field.name value world).2).1 =
          (value.cellIn field.type).read kind) ∧
      ∀ other ∈ db.schema.fields, other ≠ field → ∀ kind, other.type.Takes kind →
        (row.get other.name kind (row.set field.name value world).2).1 =
          (row.get other.name kind world).1 := by
  obtain ⟨stored, hstored, -, hfields⟩ := hd.found
  have hcell := cell?_of_field (hfields ▸ hb.nodup) (hfields ▸ hm) (ha field hm).noNul
    (ha field hm).pseudo hkind
  obtain ⟨after, hset, hretains, hafter⟩ := hd.set_apply hrow hstored hcell
  rw [hset]
  dsimp only
  have hd' := hretains.stands hd
  have hget {other : Field} (hother : other ∈ db.schema.fields) {k : ValueKind}
      (hk : other.type.Takes k) :=
    get_apply hd' hafter (hd'.fits hafter (hb.wellTyped ha)) hb.nodup hother (ha other hother) hk
  have hcells (other : Field) : (r.cells.insert (SharedName.beforeNul field.name)
      (value.cellIn field.type)).get? other.name =
        if other.name = field.name then some (value.cellIn field.type)
        else r.cells.get? other.name := by
    rw [SharedName.beforeNul_eq (ha field hm).noNul]
    exact Table.get?_insert ..
  refine ⟨rfl, fun kind htakes => ?_, fun other hother hne kind htakes => ?_⟩
  · rw [hget hm htakes, hcells, if_pos rfl]
    rfl
  · rw [hget hother htakes, hcells, if_neg fun hname =>
      hne (Engine.field_eq_of_name hb.nodup hother hm hname)]
    exact (get_apply hd hrow (hd.fits hrow (hb.wellTyped ha)) hb.nodup hother (ha other hother)
      htakes).symm

/-! ### Keys that are set -/

/-- A field that reads the same in two rows holds the same cell in both. -/
theorem bind_read_inj {type : FieldType} {cell? cell'? : Option Cell}
    (hfits : ∀ cell, cell? = some cell → cell.Fits type)
    (hfits' : ∀ cell, cell'? = some cell → cell.Fits type)
    (h : cell?.bind (Cell.read type.kind) = cell'?.bind (Cell.read type.kind)) : cell? = cell'? := by
  cases cell? with
  | none =>
    cases cell'? with
    | none => rfl
    | some cell' =>
      have hsome := Cell.isSome_read (hfits' _ rfl) type.takes_kind
      rw [show cell'.read type.kind = none from h.symm] at hsome
      cases hsome
  | some cell =>
    cases cell'? with
    | none =>
      have hsome := Cell.isSome_read (hfits _ rfl) type.takes_kind
      rw [show cell.read type.kind = none from h] at hsome
      cases hsome
    | some cell' => rw [Cell.read_injective (hfits _ rfl) (hfits' _ rfl) h]

/-- A row whose key fields read as something has a key. -/
theorem Database.Stands.keyOf_eq (hd : db.Stands world) (hrow : db.Holds world row r)
    (hb : db.schema.Built) (ha : ∀ field ∈ db.schema.fields, field.Accessible)
    {stored : Engine.Database} (hfields : stored.fields = db.schema.fields)
    (hset : ∀ field ∈ db.schema.keys, ∀ kind, field.type.Takes kind →
      (row.get field.name kind world).1.isSome = true) :
    stored.keyOf r = .ok (db.schema.keys.map (Engine.Database.partOf r)) := by
  have hfits := hd.fits hrow (hb.wellTyped ha)
  have hkeys := hb.keyFields_eq hfields
  rw [Engine.Database.keyOf_eq_partOf (hfields ▸ hfits), hkeys]
  rw [hkeys]
  intro field hm
  have hmem : field ∈ db.schema.fields := List.mem_append_left _ hm
  have hread := hset field hm _ field.type.takes_kind
  rw [get_apply hd hrow hfits hb.nodup hmem (ha field hmem) field.type.takes_kind] at hread
  cases hcell : r.cells.get? field.name with
  | none =>
    rw [hcell] at hread
    cases hread
  | some cell => rfl

/-! ### Rows that are stored and found -/

/-- A reader of the store sees the record in the place. -/
inductive Store.Shows (objects : Objects) (place : Engine.Place) (record : Record) : Store → Prop where
  | database {db : Database} {stored : Engine.Database} (own : place.db = db.handle)
    (found : objects.table.get? db.handle = some (.database stored))
    (shown : stored.records.get? place.key = some record) : Shows objects place record (.database db)
  | transaction {tx : Transaction} {pending : Engine.Transaction}
    (found : objects.table.get? tx.handle = some (.transaction pending))
    (shown : pending.writes.get? place = some (some record)) :
    Shows objects place record (.transaction tx)

section Stores

variable {store : Store} {objects objects' : Objects} {place : Engine.Place} {record : Record}

theorem Store.Shows.of_same (h : store.Shows objects place record)
    (hsame : ∀ h object, object.storeEnv?.isSome = true → objects.table.get? h = some object →
      objects'.table.get? h = some object) : store.Shows objects' place record := by
  cases h with
  | database own found shown => exact .database own (hsame _ _ rfl found) shown
  | transaction found shown => exact .transaction (hsame _ _ rfl found) shown

theorem Store.Shows.visible (h : store.Shows objects place record) {stored : Engine.Database}
    (hstored : objects.table.get? place.db = some (.database stored)) :
    objects.visible store.onEngine place.db place.key = .ok (some record) := by
  cases h with
  | database own found shown =>
    rw [← own, hstored] at found
    cases found
    exact (Objects.visible_database hstored _).trans (congrArg _ shown)
  | transaction found shown =>
    refine (Objects.visible_transaction hstored found _).trans ?_
    rw [shown]
    rfl

theorem Database.GoesTo.env (h : db.GoesTo world store) : store.env = db.env := by
  cases h with
  | database => rfl
  | transaction env => exact env

theorem Database.GoesTo.isFinished (h : db.GoesTo world store) : store.isFinished = false := by
  cases h with
  | database => rfl
  | transaction _ unfinished => exact unfinished

/-- A store that shows a record takes the rows of the database that it took before. -/
theorem Database.GoesTo.of_shows {world' : World} (h : db.GoesTo world store)
    (hshows : store.Shows world'.engine.objects place record) : db.GoesTo world' store := by
  cases h with
  | database => exact .database
  | transaction env unfinished =>
    cases hshows with
    | transaction found => exact .transaction env unfinished found

/-- Taking a row changes no database, no transaction and no environment. -/
theorem get?_remove_of_holds (hrow : db.Holds world row r) {h : Handle} {object : Engine.Object}
    (hget : world.engine.objects.table.get? h = some object) (hne : ∀ r, object ≠ .row r) :
    (world.engine.objects.remove row.handle).table.get? h = some object :=
  Objects.get?_remove_row (Objects.row_eq_ok.2 hrow.found) hget hne

/-- A row of the database goes to the store. -/
theorem Database.GoesTo.target (hgoes : db.GoesTo world store) (hd : db.Stands world)
    (hrow : db.Holds world row r) (hopen : world.engine.objects.ensureOpened db.env = .ok ()) :
    (world.engine.objects.remove row.handle).target store.handle r = .ok store.onEngine := by
  obtain ⟨stored, hstored, henv, -⟩ := hd.found
  have hstored' := get?_remove_of_holds hrow hstored nofun
  have hopen' : (world.engine.objects.remove row.handle).ensureOpened stored.env = .ok () := by
    obtain ⟨e, he, hopened⟩ := Objects.ensureOpened_eq_ok.1 hopen
    exact Objects.ensureOpened_eq_ok.2 ⟨e, henv ▸ get?_remove_of_holds hrow he nofun, hopened⟩
  have hown := hrow.own ▸ hstored'
  cases hgoes with
  | database => exact (Objects.target_database hown hopen' hstored').trans (if_pos hrow.own.symm)
  | transaction env unfinished live =>
    exact Objects.target_transaction hown hopen' (get?_remove_of_holds hrow live nofun)

/-- What is put through the store is shown. -/
theorem Database.GoesTo.shows_write (hgoes : db.GoesTo world store) (hd : db.Stands world)
    (hrow : db.Holds world row r) (key : Key) (record : Record) :
    ∃ objects', (world.engine.objects.remove row.handle).write store.onEngine ⟨db.handle, key⟩
        (some record) = .ok objects' ∧ store.Shows objects' ⟨db.handle, key⟩ record := by
  obtain ⟨stored, hstored, -⟩ := hd.found
  have hstored' := get?_remove_of_holds hrow hstored nofun
  cases hgoes with
  | database =>
    refine ⟨_, Objects.writeThrough_eq hstored' (some record), .database rfl
      ((Objects.get?_put ..).trans (if_pos rfl)) ?_⟩
    rw [Objects.get?_writtenRecords, if_pos rfl]
  | @transaction tx pending env unfinished live =>
    refine ⟨(world.engine.objects.remove row.handle).put tx.handle (.transaction { pending with
      writes := pending.writes.insert ⟨db.handle, key⟩ (some record) }), ?_, .transaction
        ((Objects.get?_put ..).trans (if_pos rfl)) ((Table.get?_insert ..).trans (if_pos rfl))⟩
    unfold Store.onEngine Objects.write
    dsimp only
    rw [Objects.transaction_eq_ok.2 (get?_remove_of_holds hrow live nofun)]
    rfl

/-- The store has something to show under every key of the database, or nothing. -/
theorem Database.GoesTo.exists_visible (hgoes : db.GoesTo world store) (hd : db.Stands world)
    (hrow : db.Holds world row r) : ∃ visible : Key → Option Record, ∀ key,
      (world.engine.objects.remove row.handle).visible store.onEngine db.handle key =
        .ok (visible key) := by
  obtain ⟨stored, hstored, -⟩ := hd.found
  have hstored' := get?_remove_of_holds hrow hstored nofun
  cases hgoes with
  | database => exact ⟨_, Objects.visible_database hstored'⟩
  | transaction env unfinished live =>
    exact ⟨_, Objects.visible_transaction hstored' (get?_remove_of_holds hrow live nofun)⟩

/-- A write that asks for a record is made, and the record shown; the database stands, in an opened
environment. -/
theorem Database.GoesTo.write_apply (hgoes : db.GoesTo world store) (hd : db.Stands world)
    (hrow : db.Holds world row r) (hopen : world.engine.objects.ensureOpened db.env = .ok ())
    {stored : Engine.Database}
    (hstored : world.engine.objects.table.get? db.handle = some (.database stored))
    {visible : Key → Option Record} (hvisible : ∀ key,
      (world.engine.objects.remove row.handle).visible store.onEngine db.handle key =
        .ok (visible key)) {kind : WriteKind} {key : Key}
    (hsettle : (stored.settle world.mergeFunctions visible r kind).1 = .ok (key, some record)) :
    ∃ after, store.write row kind world = (.ok (), after) ∧
      (world.engine.objects.remove row.handle).write store.onEngine ⟨db.handle, key⟩
        (some record) = .ok after.engine.objects ∧
      store.Shows after.engine.objects ⟨db.handle, key⟩ record ∧ db.Stands after ∧
      after.engine.objects.ensureOpened db.env = .ok () := by
  have hs : world.Serves store.env := hgoes.env ▸ hd.serves
  obtain ⟨hok, hafter⟩ := Store.write_of_open hs hgoes.isFinished row kind
  obtain ⟨objects', hwrite, hshows⟩ := hgoes.shows_write hd hrow key record
  have htarget := hgoes.target hd hrow hopen
  have hwritten := congrArg Prod.fst (Objects.written_eq htarget
    (hrow.own ▸ get?_remove_of_holds hrow hstored nofun) world.mergeFunctions
    (hrow.own.symm ▸ hvisible) kind)
  rw [hsettle, hrow.own] at hwritten
  rw [Engine.step_write _ hrow.found, hwritten, Except.bind, hwrite] at hok hafter
  have hobjects : (store.write row kind world).2.engine.objects = objects' := by
    rw [hafter, Engine.attemptFlag_objects]
    rfl
  have halters := Objects.alters_write htarget (hrow.own ▸ hwrite)
  refine ⟨_, Prod.ext (isOk_eq_true hok) rfl, hobjects ▸ hwrite, hobjects ▸ hshows, ?_, ?_⟩
  · obtain ⟨own, hown, henv, hfields⟩ := hd.found
    have houtline := (halters.outline db.handle).trans
      (Objects.outline?_of_database (get?_remove_of_holds hrow hown nofun))
    obtain ⟨own', hown', henv', -, hfields'⟩ := Objects.outline?_eq_database houtline
    exact ⟨hd.serves.follows ((store.plain_write row kind).tame world), own', hobjects ▸ hown',
      henv'.trans henv, hfields'.trans hfields⟩
  · obtain ⟨e, he, hopened⟩ := Objects.ensureOpened_eq_ok.1 hopen
    refine Objects.ensureOpened_eq_ok.2 ⟨e, ?_, hopened⟩
    have he' := get?_remove_of_holds hrow he nofun
    rw [hobjects, halters.same, he']
    rintro heq
    obtain ⟨own, hown, -, ⟨-, hstore⟩ | ⟨-, tx, htx⟩⟩ := Objects.target_eq_ok.1 htarget
    · rw [← hstore, ← heq, he'] at hown
      cases hown
    · rw [← heq, he'] at htx
      cases htx

/-- A row with a key is stored, and shown; the database stands, in an opened environment. -/
theorem Database.GoesTo.put_apply (hgoes : db.GoesTo world store) (hd : db.Stands world)
    (hrow : db.Holds world row r) (hopen : world.engine.objects.ensureOpened db.env = .ok ())
    {stored : Engine.Database}
    (hstored : world.engine.objects.table.get? db.handle = some (.database stored)) {key : Key}
    (hkey : stored.keyOf r = .ok key) :
    ∃ after, store.write row .put world = (.ok (), after) ∧
      store.Shows after.engine.objects ⟨db.handle, key⟩ (stored.recordOf r) ∧ db.Stands after ∧
      after.engine.objects.ensureOpened db.env = .ok () := by
  obtain ⟨visible, hvisible⟩ := hgoes.exists_visible hd hrow
  have hsettle : (stored.settle world.mergeFunctions visible r .put).1 =
      .ok (key, some (stored.recordOf r)) := by
    unfold Engine.Database.settle
    rw [hkey]
    rfl
  obtain ⟨after, hwrite, -, hafter⟩ := hgoes.write_apply hd hrow hopen hstored hvisible hsettle
  exact ⟨after, hwrite, hafter⟩

/-- A record that is visible under the key of a row is found. -/
theorem Database.GoesTo.lookup_of_visible (hgoes : db.GoesTo world store) (hd : db.Stands world)
    (hrow : db.Holds world row r) (hopen : world.engine.objects.ensureOpened db.env = .ok ())
    {stored : Engine.Database}
    (hstored : world.engine.objects.table.get? db.handle = some (.database stored)) {key : Key}
    (hkey : stored.keyOf r = .ok key)
    (hvisible : (world.engine.objects.remove row.handle).visible store.onEngine db.handle key =
      .ok (some record)) :
    ∃ found after, store.lookup row world = (.ok found, after) ∧ Retains world after ∧
      db.Holds after found (stored.rowOf db.handle record) := by
  have hs : world.Serves store.env := hgoes.env ▸ hd.serves
  obtain ⟨hresult, hafter⟩ := Store.lookup_of_open hs hgoes.isFinished row
  have hlookup : (world.engine.objects.remove row.handle).lookupRow store.handle r =
      .ok (some (world.engine.objects.issued + 1), ((world.engine.objects.remove row.handle).add
        (.row (stored.rowOf db.handle record))).2) := by
    rw [Objects.lookupRow_eq (hgoes.target hd hrow hopen)
      (hrow.own ▸ get?_remove_of_holds hrow hstored nofun), hkey, hrow.own]
    dsimp only [bind, Except.bind]
    rw [hvisible]
    rfl
  rw [Engine.lookup_eq hrow.found, hlookup] at hresult hafter
  have hget : ∀ h, (store.lookup row world).2.engine.objects.table.get? h =
      if h = world.engine.objects.issued + 1 then some (.row (stored.rowOf db.handle record))
      else (world.engine.objects.remove row.handle).table.get? h := fun h => by
    rw [hafter]
    exact Objects.get?_add ..
  refine ⟨_, _, Prod.ext hresult rfl, ⟨(store.plain_lookup row).tame world, fun h object hobject hne => ?_⟩,
    hgoes.env, ?_, rfl⟩
  · rw [hget, if_neg, get?_remove_of_holds hrow hobject hne]
    rintro rfl
    rw [hs.reachable.sound.fresh] at hobject
    cases hobject
  · rw [hget, if_pos rfl]

/-- A record that is shown is found. -/
theorem Database.GoesTo.lookup_of_shows (hgoes : db.GoesTo world store) (hd : db.Stands world)
    (hrow : db.Holds world row r) (hopen : world.engine.objects.ensureOpened db.env = .ok ())
    {stored : Engine.Database}
    (hstored : world.engine.objects.table.get? db.handle = some (.database stored)) {key : Key}
    (hkey : stored.keyOf r = .ok key)
    (hshows : store.Shows world.engine.objects ⟨db.handle, key⟩ record) :
    ∃ found after, store.lookup row world = (.ok found, after) ∧ Retains world after ∧
      db.Holds after found (stored.rowOf db.handle record) :=
  hgoes.lookup_of_visible hd hrow hopen hstored hkey <|
    (hshows.of_same fun _ _ hstore hget => get?_remove_of_holds hrow hget fun r heq => by
      rw [heq] at hstore
      cases hstore).visible (get?_remove_of_holds hrow hstored nofun)

end Stores

/-! ### Schemas whose fields can be accessed -/

/-- A row that is stored is found again under its key, with the defaults of the fields that were not
set. -/
theorem Database.Stands.put_lookup (hd : db.Stands world) (hrow : db.Holds world row r)
    (hb : db.schema.Built) (ha : ∀ field ∈ db.schema.fields, field.Accessible) {store : Store}
    (hgoes : db.GoesTo world store) (hopen : world.engine.objects.ensureOpened db.env = .ok ())
    (hset : ∀ field ∈ db.schema.keys, ∀ kind, field.type.Takes kind →
      (row.get field.name kind world).1.isSome = true) :
    (store.write row .put world).1 = .ok () ∧
      ∀ later key k, db.Stands later → KeepsStores (store.write row .put world).2 later →
        later.engine.objects.ensureOpened db.env = .ok () → db.Holds later key k →
        (∀ field ∈ db.schema.keys, ∀ kind, field.type.Takes kind →
          (key.get field.name kind later).1 = (row.get field.name kind world).1) →
        ∃ found after, store.lookup key later = (.ok found, after) ∧
          ∀ field ∈ db.schema.fields, ∀ kind, field.type.Takes kind →
            (found.get field.name kind after).1 =
              (row.get field.name kind world).1.or ((Cell.unset field.type).read kind) := by
  obtain ⟨stored, hstored, -, hfields⟩ := hd.found
  have hfits := hd.fits hrow (hb.wellTyped ha)
  have hrowKey := hd.keyOf_eq hrow hb ha hfields hset
  obtain ⟨middle, hput, hshows, -⟩ := hgoes.put_apply hd hrow hopen hstored hrowKey
  rw [hput]
  refine ⟨rfl, fun later key k hd' hkeeps hopen' hkey hsame => ?_⟩
  dsimp only at hkeeps
  obtain ⟨stored', hstored', -, hfields'⟩ := hd'.found
  have hkeyFits := hd'.fits hkey (hb.wellTyped ha)
  -- The key has the cells of the row in the key fields, so it is the same key.
  have hparts : ∀ field ∈ db.schema.keys, Engine.Database.partOf k field =
      Engine.Database.partOf r field := fun field hm => by
    have hmem : field ∈ db.schema.fields := List.mem_append_left _ hm
    have hread := hsame field hm _ field.type.takes_kind
    rw [get_apply hd' hkey hkeyFits hb.nodup hmem (ha field hmem) field.type.takes_kind,
      get_apply hd hrow hfits hb.nodup hmem (ha field hmem) field.type.takes_kind] at hread
    unfold Engine.Database.partOf
    rw [bind_read_inj (hkeyFits field hmem) (hfits field hmem) hread]
  have hkeyOf := hd'.keyOf_eq hkey hb ha hfields' fun field hm kind hkind => by
    rw [hsame field hm kind hkind]
    exact hset field hm kind hkind
  rw [List.map_congr_left hparts] at hkeyOf
  obtain ⟨found, after, hlookup, hretains, hfound⟩ :=
    (hgoes.of_shows (hshows.of_same hkeeps)).lookup_of_shows hd' hkey hopen' hstored'
      hkeyOf (hshows.of_same hkeeps)
  refine ⟨found, after, hlookup, fun field hm kind hkind => ?_⟩
  have hd'' := hretains.stands hd'
  rw [get_apply hd'' hfound (hd''.fits hfound (hb.wellTyped ha)) hb.nodup hm (ha field hm) hkind,
    get_apply hd hrow hfits hb.nodup hm (ha field hm) hkind]
  have hrecord : stored.recordOf r = stored'.recordOf r := by
    rw [Engine.Database.recordOf, Engine.Database.recordOf, hfields, hfields']
  have hfind : stored'.fields.find? (·.name == field.name) = some field := by
    rw [hfields']
    exact Engine.find?_eq_of_mem hb.nodup hm
  rw [hrecord, Engine.Database.rowOf_recordOf_get? (hfields' ▸ hb.nodup), hfind, Option.map_some,
    Option.bind_some]
  cases hcell : r.cells.get? field.name with
  | none => rfl
  | some cell =>
    obtain ⟨value, hvalue⟩ := Option.isSome_iff_exists.1
      (Cell.isSome_read (hfits field hm cell hcell) hkind)
    rw [Option.getD_some, Option.bind_some, hvalue]
    rfl

/-- A database can be used if all fields of its schema can be accessed. -/
theorem Database.usable_of_accessible (hb : db.schema.Built)
    (ha : ∀ field ∈ db.schema.fields, field.Accessible) : db.Usable where
  set _ _ _ hd hrow _ hm _ hkind := hd.set_get hrow hb ha hm hkind
  store _ _ _ _ hd hrow hgoes hopen hset := hd.put_lookup hrow hb ha hgoes hopen hset

end Client
end RowStore
