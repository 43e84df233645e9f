/-
# Rows that are filled and read as a whole

A new row that is filled holds in each field the value that was assigned to it last. The record it makes
has these values, cut to the widths of their fields, and zero or nothing in the fields without one; its
key tells rows apart exactly by the cells of their key fields. Reading all fields of a row gives back its
cells.

Key definitions: `Client.assigned?`, `Client.assignedCell`, `Schema.Fills`, `Client.Filled`.
Key theorems: `Client.Database.Stands.fill_apply`, `Schema.Fills.keyFrom_inj`,
`Client.Database.Stands.dump_rowOf`.
-/
import RowStore.Proofs.Client.Naming
import RowStore.Proofs.Engine.Keyed

namespace RowStore

namespace Client

/-- The value that is assigned to a name last. -/
def assigned? (fields : List (String × Value)) (name : String) : Option Value :=
  fields.reverse.lookup name

/-- The cell that a field of a new row is left with: of the value assigned to it last, or unset. -/
def assignedCell (fields : List (String × Value)) (field : Field) : Cell :=
  (assigned? fields field.name).elim (Cell.unset field.type) (·.cellIn field.type)

theorem assigned?_cons (name : String) (value : Value) (fields : List (String × Value))
    (name' : String) : assigned? ((name, value) :: fields) name' =
      (assigned? fields name').or (if name' = name then some value else none) := by
  unfold assigned?
  rw [List.reverse_cons, List.lookup_append]
  by_cases h : name' = name
  · rw [if_pos h, h, List.lookup_cons_self]
  · rw [if_neg h, List.lookup_cons, beq_eq_false_iff_ne.2 h]
    rfl

theorem mem_of_assigned? {fields : List (String × Value)} {name : String} {value : Value}
    (h : assigned? fields name = some value) : (name, value) ∈ fields := by
  obtain ⟨before, after, heq, -⟩ := List.lookup_eq_some_iff.1 h
  rw [← List.mem_reverse, heq]
  exact List.mem_append_right _ List.mem_cons_self

end Client

open Client (assigned? assignedCell)

/-- Rows of the schema take the value under the name: a field of the schema does, or a pseudo-field. -/
def Schema.Takes (schema : Schema) (name : String) (value : Value) : Prop :=
  (∃ field ∈ schema.fields, field.name = name ∧ field.type.Takes value.kind) ∨
    Engine.isPseudoField name = true ∧ value.kind = .str

/-- Rows of the schema take the values under their names, and no key field is without one. -/
structure Schema.Fills (schema : Schema) (fields : List (String × Value)) : Prop where
  typed : ∀ e ∈ fields, schema.Takes e.1 e.2
  keyed : ∀ field ∈ schema.keys, ∃ e ∈ fields, e.1 = field.name

instance (type : FieldType) (kind : ValueKind) : Decidable (type.Takes kind) :=
  inferInstanceAs (Decidable (type.isString = (kind == .str)))

instance (schema : Schema) (name : String) (value : Value) : Decidable (schema.Takes name value) :=
  inferInstanceAs (Decidable ((∃ field ∈ schema.fields, field.name = name ∧
    field.type.Takes value.kind) ∨ Engine.isPseudoField name = true ∧ value.kind = .str))

instance (schema : Schema) (fields : List (String × Value)) : Decidable (schema.Fills fields) :=
  decidable_of_iff ((∀ e ∈ fields, schema.Takes e.1 e.2) ∧
      ∀ field ∈ schema.keys, ∃ e ∈ fields, e.1 = field.name)
    ⟨fun h => ⟨h.1, h.2⟩, fun h => ⟨h.typed, h.keyed⟩⟩

/-- The record of a row that is filled. -/
def Schema.recordFrom (schema : Schema) (fields : List (String × Value)) : Record :=
  schema.fields.map (assignedCell fields)

/-- The key of a row that is filled. -/
def Schema.keyFrom (schema : Schema) (fields : List (String × Value)) : Key :=
  schema.keys.map fun field =>
    (KeyPart.ofCell? field.type (assignedCell fields field)).getD (.least field.type)

/-! ### Cells that are assigned -/

/-- A value of a kind that a type takes makes a cell that fits. -/
theorem Value.cellIn_fits {type : FieldType} {value : Value} (h : type.Takes value.kind) :
    (value.cellIn type).Fits type := by
  cases value with
  | int v => exact ⟨h, FieldType.truncate_truncate type _⟩
  | uint v => exact ⟨h, FieldType.truncate_truncate type _⟩
  | str b => exact h

/-- A field that has the name under which a value is taken takes it. -/
theorem Schema.Takes.of_mem {schema : Schema} {field : Field} {value : Value}
    (h : schema.Takes field.name value) (hw : WellTyped schema.fields) (hm : field ∈ schema.fields) :
    field.type.Takes value.kind := by
  rcases h with ⟨other, hother, hname, htakes⟩ | ⟨hpseudo, hkind⟩
  · rwa [← Engine.field_eq_of_name hw.nodup hother hm hname]
  · rw [FieldType.Takes, hw.pseudo field hm hpseudo, hkind]
    rfl

namespace Schema.Fills

variable {schema : Schema} {fields fields' : List (String × Value)} {field : Field}

theorem cell_fits (h : schema.Fills fields) (hw : WellTyped schema.fields)
    (hm : field ∈ schema.fields) : (assignedCell fields field).Fits field.type := by
  unfold assignedCell
  cases hvalue : assigned? fields field.name with
  | none => exact Cell.unset_fits _
  | some value =>
    exact Value.cellIn_fits ((h.typed _ (Client.mem_of_assigned? hvalue)).of_mem hw hm)

theorem isSome_assigned? (h : schema.Fills fields) (hm : field ∈ schema.keys) :
    (assigned? fields field.name).isSome = true := by
  obtain ⟨e, hmem, hname⟩ := h.keyed field hm
  unfold assigned?
  rw [List.lookup_isSome_iff]
  exact ⟨e, List.mem_reverse.2 hmem, by simp [hname]⟩

/-- Rows have the same key exactly if they have the same cells in the key fields. -/
theorem keyFrom_inj (h : schema.Fills fields) (h' : schema.Fills fields')
    (hw : WellTyped schema.fields) :
    schema.keyFrom fields = schema.keyFrom fields' ↔
      schema.keys.map (assignedCell fields) = schema.keys.map (assignedCell fields') := by
  unfold keyFrom
  rw [List.map_inj_left, List.map_inj_left]
  refine forall₂_congr fun field hm => ?_
  have hmem : field ∈ schema.fields := List.mem_append_left _ hm
  obtain ⟨part, hpart⟩ := KeyPart.exists_ofCell? (h.cell_fits hw hmem)
  obtain ⟨part', hpart'⟩ := KeyPart.exists_ofCell? (h'.cell_fits hw hmem)
  constructor
  · intro heq
    rw [hpart, hpart', Option.getD_some, Option.getD_some] at heq
    exact KeyPart.ofCell?_inj hpart (heq ▸ hpart')
  · intro heq
    rw [heq]

end Schema.Fills

namespace Client

variable {db : Database} {world : World} {row : Row} {r : Engine.Row} {field : Field}
  {fields : List (String × Value)}

/-! ### Filling -/

/-- The row holds the values that were assigned, each field the last one, and nothing in the others. -/
def Filled (schema : Schema) (fields : List (String × Value)) (r : Engine.Row) : Prop :=
  ∀ field ∈ schema.fields,
    r.cells.get? field.name = (assigned? fields field.name).map (·.cellIn field.type)

theorem Filled.recordOf {schema : Schema} {stored : Engine.Database} (h : Filled schema fields r)
    (hfields : stored.fields = schema.fields) : stored.recordOf r = schema.recordFrom fields := by
  unfold Engine.Database.recordOf Schema.recordFrom
  rw [hfields]
  refine List.map_congr_left fun field hm => ?_
  unfold assignedCell
  rw [h field hm]
  cases assigned? fields field.name <;> rfl

theorem Filled.keyOf {schema : Schema} {stored : Engine.Database} (h : Filled schema fields r)
    (hfields : stored.fields = schema.fields) (hb : schema.Built) (hfills : schema.Fills fields)
    (hfits : r.Fits schema.fields) : stored.keyOf r = .ok (schema.keyFrom fields) := by
  have hkeys := hb.keyFields_eq hfields
  have hcell : ∀ field ∈ schema.keys,
      r.cells.get? field.name = some (assignedCell fields field) := fun field hm => by
    rw [h field (List.mem_append_left _ hm)]
    obtain ⟨value, hvalue⟩ := Option.isSome_iff_exists.1 (hfills.isSome_assigned? hm)
    unfold assignedCell
    rw [hvalue]
    rfl
  rw [Engine.Database.keyOf_eq_partOf (hfields ▸ hfits), hkeys]
  · refine congrArg _ (List.map_congr_left fun field hm => ?_)
    unfold Engine.Database.partOf
    rw [hcell field hm, Option.bind_some]
  · rw [hkeys]
    intro field hm
    rw [hcell field hm]
    rfl

/-- A value that is taken makes a cell, the same in the field of its name. -/
theorem Database.Stands.cell?_of_takes (hd : db.Stands world) (hb : db.schema.Built)
    (ha : ∀ field ∈ db.schema.fields, field.Accessible) {stored : Engine.Database}
    (hstored : world.engine.objects.table.get? db.handle = some (.database stored)) {name : String}
    {value : Value} (h : db.schema.Takes name value) :
    ∃ cell, cell? stored (SharedName.beforeNul name) value = some cell ∧
      SharedName.beforeNul name = name ∧
      ∀ field ∈ db.schema.fields, field.name = name → cell = value.cellIn field.type := by
  have hfields := hd.fields_eq hstored
  rcases h with ⟨target, hm, rfl, htakes⟩ | ⟨hpseudo, hkind⟩
  · refine ⟨_, cell?_of_field (hfields ▸ hb.nodup) (hfields ▸ hm) (ha target hm).noNul
      (ha target hm).pseudo htakes,
      SharedName.beforeNul_eq (ha target hm).noNul, fun field hfield hname => ?_⟩
    rw [Engine.field_eq_of_name hb.nodup hfield hm hname]
  · have hname := SharedName.beforeNul_eq (Row.noNul_of_pseudo hpseudo)
    cases value with
    | int v => cases hkind
    | uint v => cases hkind
    | str b =>
      refine ⟨.bytes b, ?_, hname, fun _ _ _ => rfl⟩
      rw [hname, cell?, bytesCell?, if_pos hpseudo]

/-- Fields that are set one after the other are left with the last of their values. -/
theorem Database.Stands.setAll_apply (hb : db.schema.Built)
    (ha : ∀ field ∈ db.schema.fields, field.Accessible)
    (htyped : ∀ e ∈ fields, db.schema.Takes e.1 e.2) (hd : db.Stands world) (hrow : db.Holds world row r) :
    ∃ after r', row.setAll fields world = (.ok (), after) ∧ Retains world after ∧
      db.Holds after row r' ∧ ∀ field ∈ db.schema.fields, r'.cells.get? field.name =
        ((assigned? fields field.name).map (·.cellIn field.type)).or (r.cells.get? field.name) := by
  induction fields generalizing world r with
  | nil => exact ⟨world, r, rfl, .refl world, hrow, fun _ _ => rfl⟩
  | cons e fields ih =>
    obtain ⟨name, value⟩ := e
    obtain ⟨stored, hstored, -⟩ := hd.found
    obtain ⟨cell, hcell, hcut, hsame⟩ :=
      hd.cell?_of_takes hb ha hstored (htyped (name, value) List.mem_cons_self)
    obtain ⟨middle, hset, hretains, hrow'⟩ := hd.set_apply hrow hstored hcell
    obtain ⟨after, r', hrest, hretains', hrow'', hcells⟩ :=
      ih (fun e hmem => htyped e (List.mem_cons_of_mem _ hmem)) (hretains.stands hd) hrow'
    refine ⟨after, r', ?_, hretains.trans hretains', hrow'', fun field hfield => ?_⟩
    · show (row.set name value >>= fun _ => row.setAll fields) world = _
      rw [attempt_bind_apply, hset]
      exact hrest
    · rw [hcells field hfield, assigned?_cons, hcut]
      dsimp only
      rw [Table.get?_insert]
      by_cases hname : field.name = name
      · rw [if_pos hname, if_pos hname, hsame field hfield hname]
        cases assigned? fields field.name <;> rfl
      · rw [if_neg hname, if_neg hname, Option.or_none]

/-- A new row is filled. -/
theorem Database.Stands.fill_apply (hd : db.Stands world) (hb : db.schema.Built)
    (ha : ∀ field ∈ db.schema.fields, field.Accessible) (hfills : db.schema.Fills fields) :
    ∃ row middle after r, db.newRow world = (.ok row, middle) ∧
      row.setAll fields middle = (.ok (), after) ∧ Retains world after ∧ db.Holds after row r ∧
      Filled db.schema fields r := by
  obtain ⟨row, middle, hnew, hretains, hrow⟩ := hd.newRow_apply
  obtain ⟨after, r, hset, hretains', hrow', hcells⟩ :=
    (hretains.stands hd).setAll_apply hb ha hfills.typed hrow
  refine ⟨row, middle, after, r, hnew, hset, hretains.trans hretains', hrow', fun field hm => ?_⟩
  rw [hcells field hm]
  exact Option.or_none

/-! ### Reading -/

/-- Reading a field changes no object. -/
theorem get_objects (hs : world.Serves row.env) (name : String) (kind : ValueKind) :
    (row.get name kind world).2.engine.objects = world.engine.objects := by
  have hword : (row.getWord name world).2.engine.objects = world.engine.objects := by
    rw [(Row.getWord_eq hs name).2]
    exact Engine.inquire_objects _
  cases kind with
  | int => exact hword
  | uint => exact hword
  | str =>
    rw [Row.get_str_apply, (Row.getBytes_eq hs name).2]
    unfold Engine.getBytes
    split
    · rfl
    · exact Engine.inquire_objects _

/-- All fields of a row are read. -/
theorem Database.Stands.dump_apply (hd : db.Stands world) (hrow : db.Holds world row r)
    (hb : db.schema.Built) (ha : ∀ field ∈ db.schema.fields, field.Accessible) :
    (row.dump db.schema world).1 = db.schema.fields.map fun field =>
      (r.cells.get? field.name).bind (Cell.read field.type.kind) := by
  have hread : ∀ (fields : List Field) (world : World), (∀ field ∈ fields, field ∈ db.schema.fields) →
      db.Stands world → db.Holds world row r →
      (fields.mapM (fun field => row.get field.name field.type.kind) world).1 =
        fields.map fun field => (r.cells.get? field.name).bind (Cell.read field.type.kind) := by
    intro fields
    induction fields with
    | nil => exact fun _ _ _ _ => rfl
    | cons field fields ih =>
      intro world hm hd hrow
      rw [List.forall_mem_cons] at hm
      have hobjects := get_objects (hrow.env ▸ hd.serves) field.name field.type.kind
      have hretains : Retains world (row.get field.name field.type.kind world).2 :=
        ⟨(row.quiet_get field.name field.type.kind).tame world, fun h object hget _ => by
          rw [hobjects, hget]⟩
      have hrow' : db.Holds (row.get field.name field.type.kind world).2 row r :=
        ⟨hrow.env, by rw [hobjects, hrow.found], hrow.own⟩
      rw [List.mapM_cons, List.map_cons, bind_apply, bind_apply,
        ih _ hm.2 (hretains.stands hd) hrow',
        get_apply hd hrow (hd.fits hrow (hb.wellTyped ha)) hb.nodup hm.1 (ha field hm.1)
          field.type.takes_kind]
      rfl
  exact hread _ world (fun _ => id) hd hrow

/-- The row of a record reads as the cells of the record. -/
theorem Database.Stands.dump_rowOf {stored : Engine.Database} {record : Record}
    (hd : db.Stands world) (hrow : db.Holds world row (stored.rowOf db.handle record))
    (hb : db.schema.Built) (ha : ∀ field ∈ db.schema.fields, field.Accessible)
    (hfields : stored.fields = db.schema.fields) (hlength : record.length = db.schema.fields.length) :
    (row.dump db.schema world).1 =
      List.zipWith (fun field cell => Cell.read field.type.kind cell) db.schema.fields record := by
  rw [hd.dump_apply hrow hb ha]
  refine List.ext_getElem (by simp [hlength]) fun j hj hj' => ?_
  rw [List.length_map] at hj
  have hfield : stored.fields[j]? = some db.schema.fields[j] := by
    rw [hfields, List.getElem?_eq_getElem hj]
  have hcell : (stored.rowOf db.handle record).cells.get? (db.schema.fields[j]).name =
      some record[j] :=
    Engine.Database.rowOf_get?_of_getElem? (hfields ▸ hb.nodup) (hfields ▸ hlength) hfield
      (List.getElem?_eq_getElem (hlength.symm ▸ hj)) db.handle
  rw [List.getElem_map, List.getElem_zipWith, hcell, Option.bind_some]

end Client
end RowStore
