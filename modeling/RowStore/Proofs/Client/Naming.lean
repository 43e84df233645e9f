/-
# Names under which fields cannot be used

A schema is built whatever its fields are called. An integer under the name of a pseudo-field takes no
value, and a byte string under the key of the diagnostic reads as the diagnostic. A field with a NUL in
its name is accessed under what comes before it: there is another field, which then changes with it, or
there is none and no value is taken, or it is a pseudo-field, and what was set in it is not stored. So
the database of a schema can be used exactly if all fields can be accessed under their names.

Key theorems: `Client.Database.Usable.accessible`, `Client.newDatabase_usable_iff`.
-/
import RowStore.Proofs.Client.Opening
import RowStore.Proofs.Client.Usable

namespace RowStore

/-- A value that fields of the type take. -/
def FieldType.zero (type : FieldType) : Value := if type.isString then .str [] else .uint 0

theorem FieldType.takes_zero (type : FieldType) : type.Takes type.zero.kind := by
  cases type <;> rfl

theorem FieldType.cellIn_zero (type : FieldType) : type.zero.cellIn type = Cell.unset type := by
  rcases type with ⟨width, reversed⟩ | _
  · rcases width with _ | _ | _ | _ <;> rfl
  · rfl

theorem FieldType.isSome_read_zero (type : FieldType) {kind : ValueKind} (hkind : type.Takes kind) :
    ((type.zero.cellIn type).read kind).isSome = true :=
  Cell.isSome_read (type.cellIn_zero ▸ Cell.unset_fits type) hkind

/-- What comes before a NUL has none. -/
theorem SharedName.noNul_beforeNul (text : String) :
    '\x00' ∉ (SharedName.beforeNul text).toList := fun hm => by
  unfold SharedName.beforeNul at hm
  rw [String.toList_ofList] at hm
  simpa using List.mem_takeWhile_imp hm

/-- The row of a record has nothing under names that are not those of fields. -/
theorem Engine.Database.rowOf_get?_of_notMem {db : Engine.Database} {name : String}
    (hnot : name ∉ db.fields.map (·.name)) (h : Handle) (record : Record) :
    (db.rowOf h record).cells.get? name = none := by
  have hfold : ∀ (entries : List (String × Cell)) (table : Table String Cell),
      name ∉ entries.map Prod.fst →
      (entries.foldl (fun table e => table.insert e.1 e.2) table).get? name = table.get? name := by
    intro entries
    induction entries with
    | nil => exact fun _ _ => rfl
    | cons e entries ih =>
      intro table hnot
      rw [List.map_cons, List.mem_cons, not_or] at hnot
      rw [List.foldl_cons, ih _ hnot.2, Table.get?_insert, if_neg hnot.1]
  refine (hfold _ _ fun hm => hnot ?_).trans (Table.get?_empty name)
  rw [List.map_map, List.mem_map] at hm
  obtain ⟨⟨field, cell⟩, hmem, hname⟩ := hm
  exact List.mem_map.2 ⟨field, (List.of_mem_zip hmem).1, hname⟩

/-- A call that succeeds leaves no diagnostic. -/
theorem Engine.attemptFlag_diagnostic {engine : Engine} {result : Except Refusal Engine.Objects}
    (h : (engine.attemptFlag result).1 = true) : (engine.attemptFlag result).2.diagnostic? = none := by
  cases result with
  | error refusal => cases h
  | ok objects => rfl

namespace Client

open Engine (Objects)

variable {db : Database} {world : World} {row : Row} {r : Engine.Row} {field : Field}
  {stored : Engine.Database}

/-! ### Rows in databases that can be used -/

/-- A database that stands has new rows. -/
theorem Database.Stands.newRow_apply (hd : db.Stands world) : ∃ row after,
    db.newRow world = (.ok row, after) ∧ Retains world after ∧
      db.Holds after row { db := db.handle } := by
  obtain ⟨stored, hstored, -⟩ := hd.found
  obtain ⟨after, happly, hfollows, hengine⟩ := Client.newRow_apply db hd.serves hstored
  have hget : ∀ h, after.engine.objects.table.get? h =
      if h = world.engine.objects.issued + 1 then some (.row { db := db.handle })
      else world.engine.objects.table.get? h := fun h => by
    rw [hengine]
    exact Objects.get?_add ..
  refine ⟨_, after, happly, ⟨hfollows, fun h object hobject _ => ?_⟩, rfl,
    (hget _).trans (if_pos rfl), rfl⟩
  rw [hget, if_neg, hobject]
  rintro rfl
  rw [hd.serves.reachable.sound.fresh] at hobject
  cases hobject

/-- A cursor is made in the environment of a database that stands. -/
theorem Database.Stands.newCursor_apply (hd : db.Stands world) : ∃ after,
    handleOrRefused db.env "create cursor" (.newCursor db.env) world =
      (.ok (world.engine.objects.issued + 1), after) ∧
    after.engine.objects = (world.engine.objects.add (.cursor { env := db.env })).2 := by
  obtain ⟨stored, hstored, henv, -⟩ := hd.found
  obtain ⟨env, hlive⟩ :=
    Objects.outline?_eq_environment (hd.serves.reachable.sound.sound _ _ hstored).1
  rw [henv] at hlive
  have hstep : world.engine.step world.mergeFunctions (.newCursor db.env) =
      (some (world.engine.objects.issued + 1), { world.engine with
        objects := (world.engine.objects.add (.cursor { env := db.env })).2
        diagnostic? := none }) := by
    show world.engine.attempt (world.engine.objects.newCursor db.env) = _
    unfold Objects.newCursor
    rw [Objects.environment_eq_ok.2 hlive]
    rfl
  exact ⟨_, handleOrRefused_of_some hd.serves.faultFree (congrArg Prod.fst hstep) db.env _,
    congrArg (fun p => p.2.objects) hstep⟩

theorem Database.Stands.newRow (hd : db.Stands world) :
    ∃ row after, Retains world after ∧ db.Holds after row { db := db.handle } := by
  obtain ⟨row, after, -, hretains, hrow⟩ := hd.newRow_apply
  exact ⟨row, after, hretains, hrow⟩

/-- A value that is set made a cell. -/
theorem cell?_of_set (hd : db.Stands world) (hrow : db.Holds world row r)
    (hstored : world.engine.objects.table.get? db.handle = some (.database stored)) {name : String}
    {value : Value} (hset : (row.set name value world).1 = .ok ()) :
    ∃ cell, cell? stored (SharedName.beforeNul name) value = some cell := by
  have hs : world.Serves row.env := hrow.env ▸ hd.serves
  obtain ⟨hok, -⟩ := setValue_apply hs hrow.found (hrow.own ▸ hstored) name value rfl
  rw [hset] at hok
  exact Option.isSome_iff_exists.1 hok.symm

/-- Fields of a row are set one after the other. -/
theorem Database.Usable.set_zeros (hu : db.Usable) (hd : db.Stands world)
    (hrow : db.Holds world row r) : ∀ fields : List Field, (∀ field ∈ fields, field ∈ db.schema.fields) →
    fields.Nodup →
    ∃ after r', Retains world after ∧ db.Holds after row r' ∧
      ∀ field ∈ fields, ∀ kind, field.type.Takes kind →
        (row.get field.name kind after).1 = (field.type.zero.cellIn field.type).read kind
  | [], _, _ => ⟨world, r, .refl world, hrow, nofun⟩
  | field :: fields, hm, hn => by
    rw [List.forall_mem_cons] at hm
    rw [List.nodup_cons] at hn
    obtain ⟨middle, r', hretains, hrow', hread⟩ := hu.set_zeros hd hrow fields hm.2 hn.2
    have hd' := hretains.stands hd
    obtain ⟨stored, hstored, -⟩ := hd'.found
    obtain ⟨hset, hown, hothers⟩ :=
      hu.set middle row r' hd' hrow' field hm.1 field.type.zero field.type.takes_zero
    obtain ⟨cell, hcell⟩ := cell?_of_set hd' hrow' hstored hset
    obtain ⟨after, hafter, hretains', hrow''⟩ := hd'.set_apply hrow' hstored hcell
    rw [hafter] at hown hothers
    refine ⟨after, _, hretains.trans hretains', hrow'', fun other hother kind hkind => ?_⟩
    rcases List.mem_cons.1 hother with rfl | hother
    · exact hown kind hkind
    · rw [hothers other (hm.2 other hother) (fun heq => hn.1 (heq ▸ hother)) kind hkind]
      exact hread other hother kind hkind

/-- A row that is put has a key. -/
theorem Database.GoesTo.keyOf_of_put {store : Store} (hgoes : db.GoesTo world store)
    (hd : db.Stands world) (hrow : db.Holds world row r)
    (hopen : world.engine.objects.ensureOpened db.env = .ok ())
    (hstored : world.engine.objects.table.get? db.handle = some (.database stored))
    (hput : (store.write row .put world).1 = .ok ()) : ∃ key, stored.keyOf r = .ok key := by
  have hs : world.Serves store.env := hgoes.env ▸ hd.serves
  obtain ⟨hok, -⟩ := Store.write_of_open hs hgoes.isFinished row .put
  cases hkey : stored.keyOf r with
  | ok key => exact ⟨key, rfl⟩
  | error refusal =>
    obtain ⟨refusal', hwritten⟩ := Objects.written_of_key_error (hgoes.target hd hrow hopen)
      (hrow.own ▸ get?_remove_of_holds hrow hstored nofun) world.mergeFunctions hkey .put
    rw [hput, Engine.step_write _ hrow.found, hwritten] at hok
    cases hok

/-- A row that is looked up is one of a record. -/
theorem Database.GoesTo.holds_of_lookup {store : Store} (hgoes : db.GoesTo world store)
    (hd : db.Stands world) (hrow : db.Holds world row r)
    (hopen : world.engine.objects.ensureOpened db.env = .ok ())
    (hstored : world.engine.objects.table.get? db.handle = some (.database stored)) {found : Row}
    {after : World} (hlookup : store.lookup row world = (.ok found, after)) :
    ∃ record, Retains world after ∧ db.Holds after found (stored.rowOf db.handle record) := by
  have hs : world.Serves store.env := hgoes.env ▸ hd.serves
  have hrowEq := Objects.lookupRow_eq (hgoes.target hd hrow hopen)
    (hrow.own ▸ get?_remove_of_holds hrow hstored nofun)
  rw [hrow.own] at hrowEq
  obtain ⟨hresult, -⟩ := Store.lookup_of_open hs hgoes.isFinished row
  rw [Engine.lookup_eq hrow.found, hlookup, hrowEq] at hresult
  cases hkey : stored.keyOf r with
  | error refusal =>
    rw [hkey] at hresult
    cases hresult
  | ok key =>
    rw [hkey] at hresult
    cases hvisible : (world.engine.objects.remove row.handle).visible store.onEngine db.handle key with
    | error refusal =>
      dsimp only [bind, Except.bind] at hresult
      rw [hvisible] at hresult
      cases hresult
    | ok record? =>
      cases record? with
      | none =>
        dsimp only [bind, Except.bind] at hresult
        rw [hvisible] at hresult
        cases hresult
      | some record =>
        obtain ⟨found', after', hlookup', hretains, hfound⟩ :=
          hgoes.lookup_of_visible hd hrow hopen hstored hkey hvisible
        rw [hlookup] at hlookup'
        cases hlookup'
        exact ⟨record, hretains, hfound⟩

/-! ### Fields that cannot be accessed -/

/-- A field with the name of a pseudo-field takes byte strings only. -/
theorem Database.Usable.isString_of_pseudo (hu : db.Usable) (hd : db.Stands world)
    (hm : field ∈ db.schema.fields) (hpseudo : Engine.isPseudoField field.name = true) :
    field.type.isString = true := by
  by_contra hint
  obtain ⟨row, after, hretains, hrow⟩ := hd.newRow
  have hd' := hretains.stands hd
  obtain ⟨stored, hstored, -⟩ := hd'.found
  have hname := SharedName.beforeNul_eq (Row.noNul_of_pseudo hpseudo)
  obtain ⟨hset, -⟩ := hu.set after row _ hd' hrow field hm (.uint 0) (Bool.eq_false_iff.2 hint)
  obtain ⟨cell, hcell⟩ := cell?_of_set hd' hrow hstored hset
  rw [hname, cell?, wordCell?, if_pos hpseudo] at hcell
  cases hcell

/-- A field with the name of the diagnostic holds no byte strings. -/
theorem Database.Usable.isString_of_diagnostic (hu : db.Usable) (hd : db.Stands world)
    (hm : field ∈ db.schema.fields) (hname : field.name = Engine.diagnosticKey) :
    field.type.isString = false := by
  by_contra hstring
  have hstring : field.type.isString = true := Bool.eq_true_of_not_eq_false hstring
  obtain ⟨row, world', hretains, hrow⟩ := hd.newRow
  have hs : world'.Serves row.env := hrow.env ▸ (hretains.stands hd).serves
  obtain ⟨hset, hget, -⟩ :=
    hu.set world' row _ (hretains.stands hd) hrow field hm (.str []) hstring
  have hread := hget .str hstring
  obtain ⟨hok, hengine⟩ := Row.tryWithName_eq hs field.name "set field"
    (fun name => .setBytes row.handle name []) rfl
  have hdone := congrArg Except.isOk hset
  -- The call that set the bytes left no diagnostic, and the diagnostic is what is read.
  have hnone : (row.set field.name (.str []) world').2.engine.diagnostic? = none :=
    (congrArg Engine.diagnostic? hengine).trans
      (Engine.attemptFlag_diagnostic (hok.symm.trans hdone))
  have hs' : (row.set field.name (.str []) world').2.Serves row.env :=
    hs.follows ((row.quiet_set ..).tame world')
  have hnul : '\x00' ∉ Engine.diagnosticKey.toList := by decide
  generalize (row.set field.name (.str []) world').2 = after at hread hnone hs'
  rw [Row.get_str_apply, (Row.getBytes_eq hs' field.name).1, hname, SharedName.beforeNul_eq hnul,
    Engine.getBytes, if_pos rfl, Engine.diagnosticText?, hnone] at hread
  cases hread

/-- There is no field under what comes before a NUL in the name of a field. -/
theorem Database.Usable.beforeNul_notMem (hu : db.Usable) (hd : db.Stands world)
    (hb : db.schema.Built) (hm : field ∈ db.schema.fields) (hnul : '\x00' ∈ field.name.toList) :
    SharedName.beforeNul field.name ∉ db.schema.fields.map (·.name) := fun hother => by
  obtain ⟨other, hother, hname⟩ := List.mem_map.1 hother
  have hne : other ≠ field := by
    rintro rfl
    exact SharedName.noNul_beforeNul other.name (hname ▸ hnul)
  have haccess : other.Accessible :=
    ⟨hname ▸ SharedName.noNul_beforeNul field.name, hu.isString_of_pseudo hd hother,
      hu.isString_of_diagnostic hd hother⟩
  have htyped : WellTyped db.schema.fields := ⟨hb.nodup, fun _ hf => hu.isString_of_pseudo hd hf⟩
  obtain ⟨row, middle, hretains, hrow⟩ := hd.newRow
  have hd' := hretains.stands hd
  obtain ⟨stored, hstored, -⟩ := hd'.found
  obtain ⟨hset, -, hothers⟩ := hu.set middle row _ hd' hrow field hm field.type.zero
    field.type.takes_zero
  obtain ⟨cell, hcell⟩ := cell?_of_set hd' hrow hstored hset
  obtain ⟨after, hafter, hretains', hrow'⟩ := hd'.set_apply hrow hstored hcell
  have hd'' := hretains'.stands hd'
  have hread := hothers other hother hne _ other.type.takes_kind
  rw [hafter, get_apply hd'' hrow' (hd''.fits hrow' htyped) hb.nodup hother haccess
      other.type.takes_kind,
    get_apply hd' hrow (hd'.fits hrow htyped) hb.nodup hother haccess other.type.takes_kind] at hread
  -- The other field was not set, and now holds the cell.
  have hget : (Table.insert ({} : Table String Cell) (SharedName.beforeNul field.name) cell).get?
      other.name = some cell := by
    rw [Table.get?_insert, if_pos hname]
  have hsome := Cell.isSome_read (hd''.fits hrow' htyped other hother cell hget) other.type.takes_kind
  dsimp only at hread
  rw [hget, Option.bind_some] at hread
  rw [hread] at hsome
  cases hsome

/-- What comes before a NUL in the name of a field is the name of a pseudo-field, and the field a byte
string. -/
theorem Database.Usable.pseudo_of_nul (hu : db.Usable) (hd : db.Stands world)
    (hb : db.schema.Built) (hm : field ∈ db.schema.fields) (hnul : '\x00' ∈ field.name.toList) :
    Engine.isPseudoField (SharedName.beforeNul field.name) = true ∧ field.type.isString = true := by
  obtain ⟨row, middle, hretains, hrow⟩ := hd.newRow
  have hd' := hretains.stands hd
  obtain ⟨stored, hstored, -, hfields⟩ := hd'.found
  obtain ⟨hset, -⟩ := hu.set middle row _ hd' hrow field hm field.type.zero field.type.takes_zero
  obtain ⟨cell, hcell⟩ := cell?_of_set hd' hrow hstored hset
  have hnone : (stored.field (SharedName.beforeNul field.name)).toOption = none := by
    cases hfield : stored.field (SharedName.beforeNul field.name) with
    | error refusal => rfl
    | ok other =>
      obtain ⟨hmem, hname⟩ := Engine.Database.field_eq_ok hfield
      exact absurd (List.mem_map.2 ⟨other, hfields ▸ hmem, hname⟩)
        (hu.beforeNul_notMem hd hb hm hnul)
  cases hstring : field.type.isString with
  | false =>
    rw [FieldType.zero, hstring] at hcell
    change wordCell? stored _ 0 = _ at hcell
    rw [wordCell?, hnone] at hcell
    split at hcell <;> cases hcell
  | true =>
    rw [FieldType.zero, hstring] at hcell
    change bytesCell? stored _ [] = _ at hcell
    rw [bytesCell?, hnone] at hcell
    split at hcell
    · next hpseudo => exact ⟨hpseudo, rfl⟩
    · cases hcell

/-- No field has a NUL in its name: what is set under the name of a pseudo-field is not stored. -/
theorem Database.Usable.noNul (hu : db.Usable) (hd : db.Stands world) (hb : db.schema.Built)
    (hopen : world.engine.objects.ensureOpened db.env = .ok ()) (hm : field ∈ db.schema.fields) :
    '\x00' ∉ field.name.toList := fun hnul => by
  have hnot := hu.beforeNul_notMem hd hb hm hnul
  obtain ⟨hpseudo, hstring⟩ := hu.pseudo_of_nul hd hb hm hnul
  have hkeys : ∀ field ∈ db.schema.keys, field ∈ db.schema.fields := fun field hm =>
    List.mem_append_left _ hm
  have hnodup : db.schema.keys.Nodup :=
    (List.Nodup.of_map _ hb.nodup).sublist (List.sublist_append_left ..)
  -- A row whose key fields are set is put.
  obtain ⟨row, world₁, hretains, hrow⟩ := hd.newRow
  have hd₁ := hretains.stands hd
  obtain ⟨world₂, r, hretains₂, hrow₂, hread₂⟩ := hu.set_zeros hd₁ hrow _ hkeys hnodup
  have hd₂ := hretains₂.stands hd₁
  have hopen₂ := hretains₂.opened (hretains.opened hopen)
  obtain ⟨hput, hfound⟩ := hu.store world₂ row r _ hd₂ hrow₂ .database hopen₂
    fun field hm kind hkind => by
      rw [hread₂ field hm kind hkind]
      exact field.type.isSome_read_zero hkind
  obtain ⟨stored₂, hstored₂, -⟩ := hd₂.found
  obtain ⟨key, hkey⟩ := Database.GoesTo.database.keyOf_of_put hd₂ hrow₂ hopen₂ hstored₂ hput
  obtain ⟨world₃, hput₃, -, hd₃, hopen₃⟩ :=
    Database.GoesTo.database.put_apply hd₂ hrow₂ hopen₂ hstored₂ hkey
  rw [hput₃] at hfound
  -- Another one with the same key looks it up.
  obtain ⟨row', world₄, hretains₄, hrow₄⟩ := hd₃.newRow
  have hd₄ := hretains₄.stands hd₃
  obtain ⟨world₅, k, hretains₅, hrow₅, hread₅⟩ := hu.set_zeros hd₄ hrow₄ _ hkeys hnodup
  have hd₅ := hretains₅.stands hd₄
  have hopen₅ := hretains₅.opened (hretains₄.opened hopen₃)
  obtain ⟨found, world₆, hlookup, hread₆⟩ := hfound world₅ row' k hd₅
    (hretains₄.trans hretains₅).keepsStores hopen₅ hrow₅ fun field hm kind hkind => by
      rw [hread₅ field hm kind hkind, hread₂ field hm kind hkind]
  obtain ⟨stored₅, hstored₅, -, hfields₅⟩ := hd₅.found
  obtain ⟨record, hretains₆, hfound₆⟩ :=
    Database.GoesTo.database.holds_of_lookup hd₅ hrow₅ hopen₅ hstored₅ hlookup
  -- The row that is found has nothing under the name that the field is read under.
  have hs₆ : world₆.Serves found.env := hfound₆.env ▸ (hretains₆.stands hd₅).serves
  have herror : SharedName.beforeNul field.name ≠ Engine.diagnosticKey := fun heq => by
    rw [heq] at hpseudo
    exact absurd hpseudo (by decide)
  have hnone := (getValue_apply hs₆ hfound₆.found
    (hfound₆.own ▸ hretains₆.same _ _ hstored₅ nofun) herror .str).1
  rw [hread₆ field hm .str hstring, fieldValue?,
    Engine.Database.rowOf_get?_of_notMem (hfields₅ ▸ hnot), Option.map_none] at hnone
  have hunset : field.type = .string := by
    cases htype : field.type with
    | string => rfl
    | int width reversed =>
      rw [htype] at hstring
      cases hstring
  rw [hunset, Option.or_eq_none_iff] at hnone
  cases hnone.2

/-! ### Databases that can be used -/

/-- An environment with a database that stands is opened, or it can be. -/
theorem Database.Stands.open (hd : db.Stands world) :
    ∃ after, db.Stands after ∧ after.engine.objects.ensureOpened db.env = .ok () := by
  obtain ⟨stored, hstored, henv, hfields⟩ := hd.found
  have houtline := (hd.serves.reachable.sound.sound _ _ hstored).1
  rw [henv] at houtline
  obtain ⟨e, he⟩ := Objects.outline?_eq_environment houtline
  by_cases hopened : e.opened = true
  · exact ⟨world, hd, Objects.ensureOpened_eq_ok.2 ⟨e, he, hopened⟩⟩
  have hobjects : (call (.openEnvironment db.env) world).2.engine.objects =
      world.engine.objects.put db.env (.environment { e with opened := true }) := by
    rw [call_apply hd.serves.faultFree, reach_engine]
    show (world.engine.attemptFlag _).2.objects = _
    rw [Engine.attemptFlag_objects, Objects.openEnvironment, Objects.environment_eq_ok.2 he]
    dsimp only [bind, Except.bind]
    rw [if_neg hopened]
    rfl
  refine ⟨(call (.openEnvironment db.env) world).2, ⟨hd.serves.follows (tame_call _ _), stored, ?_,
    henv, hfields⟩, Objects.ensureOpened_eq_ok.2 ⟨{ e with opened := true }, ?_, rfl⟩⟩
  · rw [hobjects, Objects.get?_put, if_neg, hstored]
    intro heq
    rw [heq, he] at hstored
    cases hstored
  · rw [hobjects, Objects.get?_put, if_pos rfl]

/-- The fields of a database that can be used can be accessed. -/
theorem Database.Usable.accessible (hu : db.Usable) (hd : db.Stands world) (hb : db.schema.Built)
    (hm : field ∈ db.schema.fields) : field.Accessible := by
  obtain ⟨after, hd', hopen⟩ := hd.open
  exact ⟨hu.noNul hd' hb hopen hm, hu.isString_of_pseudo hd hm, hu.isString_of_diagnostic hd hm⟩

/-- A database that was declared stands, with the schema that it was declared with. -/
theorem Database.stands_of_newDatabase {env : Environment} {name : String} {schema : Schema}
    {merge? : Option MergeFn} {before after : World} (hs : before.Serves env.handle)
    (hb : schema.Built) (hnew : env.newDatabase name schema merge? before = (.ok db, after)) :
    db.schema = schema ∧ db.Stands after := by
  obtain ⟨result, after', happly, hcontinues, ⟨failure, rfl, -⟩ | ⟨token?, rfl, hdeclares⟩⟩ :=
    Environment.newDatabase_cases hs name schema merge?
  · rw [hnew] at happly
    cases happly
  rw [hnew] at happly
  cases happly
  obtain ⟨hook?, hadded⟩ := hdeclares.added
  exact ⟨rfl, hs.continues hcontinues, _, hadded, rfl, hb.declared_fields env.handle name⟩

/-- A database that was declared stands, and it can be used exactly if every field of its schema can be
accessed under its name. -/
theorem newDatabase_usable_iff {env : Environment} {name : String} {schema : Schema}
    {merge? : Option MergeFn} {before after : World} (hs : before.Serves env.handle)
    (hb : schema.Built) (hnew : env.newDatabase name schema merge? before = (.ok db, after)) :
    db.Stands after ∧ (db.Usable ↔ ∀ field ∈ schema.fields, field.Accessible) := by
  obtain ⟨rfl, hd⟩ := db.stands_of_newDatabase hs hb hnew
  refine ⟨hd, fun hu field hm => hu.accessible hd hb hm, fun ha => ?_⟩
  exact Database.usable_of_accessible hb ha

/-! ### A field with a reserved name -/

namespace Orders

/-- The schema of a database of orders: a number, and what was ordered. -/
def schema : Schema where
  keys := [⟨"number", .int .eight false, true⟩]
  values := [⟨"order", .int .four false, false⟩]

theorem built : schema.Built := by
  let keyed : Schema := { keys := [⟨"number", .int .eight false, true⟩] }
  have hnumber : Schema.add? {} ⟨"number", .int .eight false, true⟩ = some keyed := rfl
  have horder : keyed.add? ⟨"order", .int .four false, false⟩ = some schema := rfl
  exact .add (.add .empty hnumber) horder

/-- An environment. -/
def env : Environment := { handle := 1 }

/-- The world with the environment created. -/
def created : World := (call .newEnvironment {}).2.setLink 1 { cache := .ofPolicy .static }

theorem serves_created : created.Serves env.handle :=
  ⟨(World.Reachable.start.call _).create _ _, rfl, rfl⟩

/-- The database is declared, and it cannot be used. -/
theorem declared_not_usable : ∃ db after,
    env.newDatabase "orders" schema none created = (.ok db, after) ∧ db.Stands after ∧ ¬ db.Usable := by
  obtain ⟨db, after, hnew⟩ : ∃ db after,
      env.newDatabase "orders" schema none created = (.ok db, after) := by
    have hname : (!Environment.isDatabaseName "orders") = false := by
      simp [Environment.isDatabaseName]
    unfold Environment.newDatabase
    rw [attempt_bind_apply, ensureOpen_apply rfl, hname]
    refine ⟨env.database 2 "orders" schema none, _, Prod.ext ?_ rfl⟩
    dsimp only
    rw [if_neg Bool.false_ne_true, attempt_bind_apply, orRefused_apply,
      call_apply serves_created.faultFree]
    unfold World.reach Engine.step
    dsimp only
    unfold Engine.declare
    rw [Objects.declare_eq (by simp)]
    rfl
  obtain ⟨hstands, husable⟩ := newDatabase_usable_iff serves_created built hnew
  refine ⟨db, after, hnew, hstands, fun hu => ?_⟩
  have haccess := husable.1 hu ⟨"order", .int .four false, false⟩ (by decide)
  exact absurd (haccess.pseudo rfl) (by decide)

end Orders

end Client
end RowStore
