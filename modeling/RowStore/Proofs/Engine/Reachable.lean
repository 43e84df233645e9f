/-
# Calls keep object tables sound

Every primitive of the engine keeps a sound table sound, so every state that calls lead to has one
(`Reachable.sound`). A primitive changes the table by adding an object, replacing one by another of
the same outline or removing one that no other relies on; only destroying an environment removes
outlines, and with them all that relied on them.

Key definition: `Engine.Action.IsQuiet`.
Key theorems: `Engine.Objects.Sound.write`, `Engine.Objects.Sound.destroy`,
`Engine.Objects.Sound.fetchNext`, `Engine.Reachable.sound`.
-/
import RowStore.Proofs.Engine.Sound

namespace RowStore.Engine

/-- The calls that neither make nor take objects. -/
def Action.IsQuiet : Action kind → Prop
  | .setBytes .. => True
  | .setWord .. => True
  | .getBytes .. => True
  | .getWord .. => True
  | .resolve .. => True
  | .installHook .. => True
  | .openEnvironment _ => True
  | _ => False

namespace Objects

variable {objects objects' : Objects} {h : Handle}

/-! ### Rows and settings -/

/-- A cell is the bytes of a pseudo-field, or fits the field of its name. -/
theorem cellOfBytes_eq_ok {r : Row} {name : String} {bytes : Bytes} {cell : Cell}
    (hc : objects.cellOfBytes r name bytes = .ok cell) :
    (isPseudoField name = true ∧ cell = .bytes bytes) ∨
      ∃ db field, objects.table.get? r.db = some (.database db) ∧ field ∈ db.fields ∧
        field.name = name ∧ cell.Fits field.type := by
  unfold cellOfBytes at hc
  split at hc
  · next hp =>
    cases hc
    exact .inl ⟨hp, rfl⟩
  · obtain ⟨db, hdb, hc⟩ := bind_eq_ok.1 hc
    obtain ⟨field, hfield, hc⟩ := bind_eq_ok.1 hc
    obtain ⟨hm, hname⟩ := Database.field_eq_ok hfield
    split at hc
    · next hd =>
      cases hc
      exact .inr ⟨db, field, database_eq_ok.1 hdb, hm, hname, Cell.decode?_fits hd⟩
    · simp at hc

theorem cellOfWord_eq_ok {r : Row} {name : String} {w : UInt64} {cell : Cell}
    (hc : objects.cellOfWord r name w = .ok cell) :
      ∃ db field, objects.table.get? r.db = some (.database db) ∧ field ∈ db.fields ∧
        field.name = name ∧ cell.Fits field.type := by
  unfold cellOfWord at hc
  split at hc
  · simp at hc
  · obtain ⟨db, hdb, hc⟩ := bind_eq_ok.1 hc
    obtain ⟨field, hfield, hc⟩ := bind_eq_ok.1 hc
    obtain ⟨hm, hname⟩ := Database.field_eq_ok hfield
    split at hc
    · simp at hc
    · next hstr =>
      cases hc
      refine ⟨db, field, database_eq_ok.1 hdb, hm, hname, by simpa using hstr, ?_⟩
      exact FieldType.truncate_truncate _ _

theorem Sound.setSetting (hs : objects.Sound) {env : Environment} {name : String} {cell : Cell}
    (hget : objects.table.get? h = some (.environment env)) :
    (objects.setSetting h env name cell).Sound := by
  have hsound := hs.sound h _ hget
  exact hs.put hget rfl hsound

theorem Sound.setCell (hs : objects.Sound) {r : Row} {name : String} {cell : Cell}
    (hget : objects.table.get? h = some (.row r))
    (hc : (isPseudoField name = true ∧ ∃ bytes, cell = .bytes bytes) ∨
      ∃ db field, objects.table.get? r.db = some (.database db) ∧ field ∈ db.fields ∧
        field.name = name ∧ cell.Fits field.type) :
    (objects.setCell h r name cell).Sound := by
  refine hs.put hget rfl ?_
  obtain ⟨env, dbName, fields, hf, hfit⟩ := hs.sound h _ hget
  refine ⟨env, dbName, fields, hf, fun hw => ?_⟩
  rcases hc with ⟨hp, bytes, rfl⟩ | ⟨db, field, hdb, hm, rfl, hcell⟩
  · exact (hfit hw).insert_pseudo hw hp bytes
  · rw [outline?_of_database hdb] at hf
    cases hf
    exact (hfit hw).insert hw.nodup hm hcell

/-- A setter keeps a table sound if the cells that rows make fit. -/
theorem Sound.assign (hs : objects.Sound) {name : String} {cell : Cell}
    {cellOf : Row → Except Refusal Cell} (hcell : ∀ r made, cellOf r = .ok made →
      (isPseudoField name = true ∧ ∃ bytes, made = .bytes bytes) ∨
        ∃ db field, objects.table.get? r.db = some (.database db) ∧ field ∈ db.fields ∧
          field.name = name ∧ made.Fits field.type)
    (hr : objects.assign h name cell cellOf = .ok objects') : objects'.Sound := by
  obtain ⟨env, hget, rfl⟩ | ⟨r, made, hget, hmade, rfl⟩ := assign_eq_ok.1 hr
  · exact hs.setSetting hget
  · exact hs.setCell hget (hcell r made hmade)

theorem Sound.setBytes (hs : objects.Sound) {name : String} {bytes : Bytes}
    (hr : objects.setBytes h name bytes = .ok objects') : objects'.Sound :=
  hs.assign (fun _ _ hmade => (cellOfBytes_eq_ok hmade).imp_left fun h => ⟨h.1, bytes, h.2⟩) hr

theorem Sound.setWord (hs : objects.Sound) {name : String} {w : UInt64}
    (hr : objects.setWord h name w = .ok objects') : objects'.Sound :=
  hs.assign (fun _ _ hmade => .inr (cellOfWord_eq_ok hmade)) hr

/-! ### Environments and databases -/

theorem Sound.declare (hs : objects.Sound) {name : String} {fields : List Field}
    (hr : objects.declare h name fields = .ok objects') : objects'.Sound := by
  unfold Objects.declare at hr
  dsimp only at hr
  split at hr
  · cases hr
  next hname =>
  obtain ⟨env, henv, hr⟩ := bind_eq_ok.1 hr
  rw [environment_eq_ok] at henv
  split at hr
  · cases hr
  split at hr
  · cases hr
  next hkey =>
  cases hr
  clear hr
  set ordered := fields.filter (·.isKey) ++ fields.filter (!·.isKey) with hordered
  have hkeys : ordered.any (·.isKey) = true := by
    have : fields.any (·.isKey) = true := by simpa using hkey
    simpa [hordered, List.any_append, List.any_filter] using this
  have hsplit : ordered = ordered.filter (·.isKey) ++ ordered.filter (!·.isKey) := by
    simp [hordered, List.filter_append, List.filter_filter]
  have hadd : (objects.add (.database { env := h, name, fields := ordered })).2.Sound := hs.add
    ⟨outline?_of_get henv, hsplit, hkeys, fun _ e he => absurd he List.not_mem_nil⟩
  have hne : h ≠ objects.issued + 1 := by
    rintro rfl
    rw [hs.fresh] at henv
    simp at henv
  have hget : (objects.add (.database { env := h, name, fields := ordered })).2.table.get? h =
      some (.environment env) := by
    rw [get?_add, if_neg hne]
    exact henv
  refine hadd.put hget rfl fun name' d hd => ?_
  rw [Table.get?_insert] at hd
  split at hd
  · next heq =>
    cases hd
    subst heq
    have hboth : name'.isEmpty = false ∧ name'.contains '.' = false := by simpa using hname
    refine ⟨hboth.1, hboth.2, ordered, ?_⟩
    exact outline?_of_database ((get?_add ..).trans (if_pos rfl))
  · exact hadd.sound h _ hget name' d hd

theorem Sound.installHook (hs : objects.Sound) {hook : Hook}
    (hr : objects.installHook h hook = .ok objects') : objects'.Sound := by
  obtain ⟨db, hdb, hr⟩ := bind_eq_ok.1 hr
  rw [database_eq_ok] at hdb
  cases hr
  have hsound := hs.sound h _ hdb
  exact hs.put hdb rfl hsound

theorem Sound.openEnvironment (hs : objects.Sound)
    (hr : objects.openEnvironment h = .ok objects') : objects'.Sound := by
  obtain ⟨env, henv, hr⟩ := bind_eq_ok.1 hr
  rw [environment_eq_ok] at henv
  split at hr
  · cases hr
  · cases hr
    have hsound := hs.sound h _ henv
    exact hs.put henv rfl hsound

theorem get?_filter {p : Handle → Object → Bool} {h' : Handle} {object : Object} :
    (objects.table.filter p).get? h' = some object ↔
      objects.table.get? h' = some object ∧ p h' object = true := by
  rw [Table.get?_eq_some_iff, Table.get?_eq_some_iff]
  simp [Table.filter]

/-- The objects of an environment go together: what remains relied on nothing that goes. -/
theorem Sound.destroyEnvironment (hs : objects.Sound) :
    ({ objects with
      table := objects.table.filter fun h' object => objects.owner? h' object != some h } :
        Objects).Sound := by
  set rest : Objects := { objects with
    table := objects.table.filter fun h' object => objects.owner? h' object != some h } with hrest
  have hget : ∀ h' object, rest.table.get? h' = some object ↔
      objects.table.get? h' = some object ∧ objects.owner? h' object ≠ some h := by
    intro h' object
    rw [hrest, get?_filter]
    simp
  have hdatabase : ∀ d env name fields, env ≠ h →
      objects.outline? d = some (.database env name fields) →
      rest.outline? d = some (.database env name fields) := by
    intro d env name fields hne ho
    obtain ⟨db, hdb, rfl, rfl, rfl⟩ := outline?_eq_database ho
    refine outline?_of_database ((hget d _).2 ⟨hdb, ?_⟩)
    simpa [owner?] using hne
  have henvironment : ∀ e, e ≠ h → objects.outline? e = some .environment →
      rest.outline? e = some .environment := by
    intro e hne ho
    obtain ⟨env, henv⟩ := outline?_eq_environment ho
    refine outline?_of_get ((hget e _).2 ⟨henv, ?_⟩)
    simpa [owner?] using hne
  have hback : ∀ d outline, rest.outline? d = some outline →
      objects.outline? d = some outline := by
    intro d outline ho
    obtain ⟨object, hobj, ho⟩ := Option.bind_eq_some_iff.1 ho
    rw [outline?_of_get ((hget d object).1 hobj).1]
    exact ho
  refine ⟨fun h' object ho => hs.live h' object ((hget h' object).1 ho).1, fun h' object ho => ?_⟩
  obtain ⟨hold, howner⟩ := (hget h' object).1 ho
  have hsound := hs.sound h' object hold
  cases object with
  | environment env =>
    have hne : h' ≠ h := by simpa [owner?] using howner
    intro name d hd
    obtain ⟨hname, hdot, fields, hf⟩ := hsound name d hd
    exact ⟨hname, hdot, fields, hdatabase d h' name fields hne hf⟩
  | database db =>
    have hne : db.env ≠ h := by simpa [owner?] using howner
    exact ⟨henvironment _ hne hsound.1, hsound.2⟩
  | row r =>
    obtain ⟨env, name, fields, hf, hfit⟩ := hsound
    refine ⟨env, name, fields, hdatabase _ env name fields ?_ hf, hfit⟩
    obtain ⟨db, hdb, rfl, rfl, rfl⟩ := outline?_eq_database hf
    simpa [owner?, hdb] using howner
  | cursor c =>
    have hne : c.env ≠ h := by simpa [owner?] using howner
    exact henvironment _ hne hsound
  | transaction tx =>
    have hne : tx.env ≠ h := by simpa [owner?] using howner
    refine ⟨henvironment _ hne hsound.1, fun place write hw => ?_⟩
    obtain ⟨hle, hplaces⟩ := hsound.2 place write hw
    exact ⟨hle, fun env name fields hf => hplaces env name fields (hback _ _ hf)⟩

theorem Sound.destroy (hs : objects.Sound) (hr : objects.destroy h = .ok objects') :
    objects'.Sound := by
  obtain ⟨env, -, rfl⟩ | ⟨object, hget, hnone, rfl⟩ := destroy_eq_ok.1 hr
  · exact hs.destroyEnvironment
  · exact hs.remove ((outline?_of_get hget).trans hnone)

theorem Sound.newRow (hs : objects.Sound) {r : Handle} (hr : objects.newRow h = .ok (r, objects')) :
    objects'.Sound := by
  obtain ⟨db, hdb, hr⟩ := bind_eq_ok.1 hr
  rw [database_eq_ok] at hdb
  cases hr
  refine hs.add ⟨_, _, _, outline?_of_database hdb, fun _ field _ cell hc => ?_⟩
  cases hc

theorem Sound.newCursor (hs : objects.Sound) {c : Handle}
    (hr : objects.newCursor h = .ok (c, objects')) : objects'.Sound := by
  obtain ⟨env, henv, hr⟩ := bind_eq_ok.1 hr
  rw [environment_eq_ok] at henv
  cases hr
  have hsound : (Object.cursor { env := h }).SoundIn objects (objects.issued + 1) :=
    outline?_of_get henv
  exact hs.add hsound

theorem Sound.begin (hs : objects.Sound) {tx : Handle}
    (hr : objects.begin h = .ok (tx, objects')) : objects'.Sound := by
  obtain ⟨⟨⟩, hopen, hr⟩ := bind_eq_ok.1 hr
  obtain ⟨env, henv, -⟩ := ensureOpened_eq_ok.1 hopen
  cases hr
  have hsound : (Object.transaction { env := h }).SoundIn objects (objects.issued + 1) :=
    ⟨outline?_of_get henv, fun place write hw => by cases hw⟩
  exact hs.add hsound

/-! ### Writes -/

theorem Sound.writeThrough (hs : objects.Sound) {place : Place} {record? : Option Record}
    (hfit : objects.Admits place record?)
    (hr : objects.writeThrough place record? = .ok objects') : objects'.Sound := by
  obtain ⟨db, hdb, hr⟩ := bind_eq_ok.1 hr
  rw [database_eq_ok] at hdb
  cases hr
  have hsound := hs.sound _ _ hdb
  refine hs.put hdb rfl ⟨hsound.1, hsound.2.1, hsound.2.2.1, fun hw e he => ?_⟩
  have hplace := hfit _ _ _ (outline?_of_database hdb) hw
  have hold := hsound.2.2.2 hw e
  cases record? with
  | some record =>
    rcases Table.mem_entries_insert.1 he with ⟨hkey, hrecord⟩ | ⟨-, he⟩
    · rw [hkey, hrecord]
      exact ⟨hplace.1, hplace.2 record rfl⟩
    · exact hold he
  | none => exact hold (Table.mem_entries_erase.1 he).2

theorem Sound.write (hs : objects.Sound) {store : Store} {place : Place} {record? : Option Record}
    (hle : place.db ≤ objects.issued) (hfit : objects.Admits place record?)
    (hr : objects.write store place record? = .ok objects') : objects'.Sound := by
  cases store with
  | database d => exact hs.writeThrough hfit hr
  | transaction t =>
    obtain ⟨tx, htx, hr⟩ := bind_eq_ok.1 hr
    rw [transaction_eq_ok] at htx
    cases hr
    have hsound := hs.sound _ _ htx
    refine hs.put htx rfl ⟨hsound.1, fun place' write hw => ?_⟩
    rw [Table.get?_insert] at hw
    split at hw
    · next heq =>
      cases hw
      subst heq
      exact ⟨hle, hfit⟩
    · exact hsound.2 place' write hw

/-- The place of a row and what a row makes fit, if the row is sound. -/
theorem admits_of_row {r : Row} {db : Database} {key : Key} {record? : Option Record}
    (hrow : (Object.row r).SoundIn objects h) (hdb : objects.database r.db = .ok db)
    (hkey : db.keyOf r = .ok key)
    (hrecord : WellTyped db.fields → r.Fits db.fields →
      ∀ record, record? = some record → Record.Fits db.fields record) :
    objects.Admits ⟨r.db, key⟩ record? := by
  intro env name fields hf hw
  rw [outline?_of_database (database_eq_ok.1 hdb)] at hf
  cases hf
  obtain ⟨env', name', fields', hf', hfit⟩ := hrow
  rw [outline?_of_database (database_eq_ok.1 hdb)] at hf'
  cases hf'
  exact ⟨Database.keyOf_fits (hfit hw) hkey, hrecord hw (hfit hw)⟩

theorem Sound.row_le (hs : objects.Sound) {r : Row} (hrow : (Object.row r).SoundIn objects h) :
    r.db ≤ objects.issued := by
  obtain ⟨env, name, fields, hf, -⟩ := hrow
  exact hs.le_issued hf

theorem Sound.putRow (hs : objects.Sound) {store : Handle} {r : Row}
    (hrow : (Object.row r).SoundIn objects h)
    (hr : objects.putRow store r = .ok objects') : objects'.Sound := by
  obtain ⟨target, -, hr⟩ := bind_eq_ok.1 hr
  obtain ⟨db, hdb, hr⟩ := bind_eq_ok.1 hr
  obtain ⟨key, hkey, hr⟩ := bind_eq_ok.1 hr
  refine hs.write (hs.row_le hrow) (admits_of_row hrow hdb hkey fun _ hfit record hrecord => ?_) hr
  cases hrecord
  exact Database.recordOf_fits hfit

theorem Sound.deleteRow (hs : objects.Sound) {store : Handle} {r : Row}
    (hrow : (Object.row r).SoundIn objects h)
    (hr : objects.deleteRow store r = .ok objects') : objects'.Sound := by
  obtain ⟨target, -, hr⟩ := bind_eq_ok.1 hr
  obtain ⟨db, hdb, hr⟩ := bind_eq_ok.1 hr
  obtain ⟨key, hkey, hr⟩ := bind_eq_ok.1 hr
  exact hs.write (hs.row_le hrow) (admits_of_row hrow hdb hkey fun _ _ record hrecord => by cases hrecord) hr

theorem Sound.storeMerge (hs : objects.Sound) {store : Handle} {r : Row} {merge : Merge}
    {reply : MergeReply} (hrow : (Object.row r).SoundIn objects h)
    (hm : objects.mergeOf store r = .ok merge)
    (hlength : reply.result.length = merge.incoming.length)
    (hr : objects.storeMerge merge reply = .ok objects') : objects'.Sound := by
  obtain ⟨target, -, hm⟩ := bind_eq_ok.1 hm
  obtain ⟨db, hdb, hm⟩ := bind_eq_ok.1 hm
  split at hm
  next hook _ =>
    obtain ⟨key, hkey, hm⟩ := bind_eq_ok.1 hm
    obtain ⟨existing, -, hm⟩ := bind_eq_ok.1 hm
    cases hm
    unfold Objects.storeMerge at hr
    split at hr
    · simp at hr
    · obtain ⟨db', hdb', hstore⟩ := bind_eq_ok.1 hr
      obtain ⟨record, hrecord, hwrite⟩ := bind_eq_ok.1 hstore
      obtain rfl : db' = db := Except.ok.inj (hdb'.symm.trans hdb)
      refine hs.write (hs.row_le hrow) (admits_of_row hrow hdb hkey fun _ _ other heq => ?_) hwrite
      cases heq
      refine Database.decode_fits ?_ hrecord
      rw [hlength]
      simp [Database.encode, Database.recordOf]
  · simp at hm

/-- The row of a stored record is sound. -/
theorem rowOf_soundIn {db : Database} {d : Handle} {record : Record}
    (hdb : objects.table.get? d = some (.database db))
    (hfit : WellTyped db.fields → Record.Fits db.fields record) :
    (Object.row (db.rowOf d record)).SoundIn objects h :=
  ⟨_, _, _, outline?_of_database hdb, fun hw => Database.rowOf_fits hw.nodup (hfit hw)⟩

/-- What a reader sees fits. -/
theorem Sound.visible (hs : objects.Sound) {store : Store} {d : Handle} {db : Database} {key : Key}
    {record : Record} (hdb : objects.table.get? d = some (.database db))
    (hv : objects.visible store d key = .ok (some record)) (hw : WellTyped db.fields) :
    Record.Fits db.fields record := by
  unfold Objects.visible at hv
  split at hv
  · next write hp =>
    cases hv
    cases store with
    | database d => cases hp
    | transaction t =>
      simp only [pending?] at hp
      split at hp
      · next tx htx =>
        have hplaces := ((hs.sound _ _ htx).2 _ _ hp).2
        exact (hplaces _ _ _ (outline?_of_database hdb) hw).2 record rfl
      · simp at hp
  · obtain ⟨db', hdb', hv⟩ := bind_eq_ok.1 hv
    rw [database_eq_ok, hdb] at hdb'
    cases hdb'
    have hget : db.records.get? key = some record := Except.ok.inj hv
    exact ((hs.sound _ _ hdb).2.2.2 hw _ (Table.get?_eq_some_iff.1 hget)).2

theorem Sound.lookupRow (hs : objects.Sound) {store : Handle} {r : Row} {found : Option Handle}
    (hr : objects.lookupRow store r = .ok (found, objects')) : objects'.Sound := by
  obtain ⟨target, -, hr⟩ := bind_eq_ok.1 hr
  obtain ⟨db, hdb, hr⟩ := bind_eq_ok.1 hr
  obtain ⟨key, hkey, hr⟩ := bind_eq_ok.1 hr
  obtain ⟨record?, hv, hr⟩ := bind_eq_ok.1 hr
  cases record? with
  | none =>
    cases hr
    exact hs
  | some record =>
    cases hr
    rw [database_eq_ok] at hdb
    exact hs.add (rowOf_soundIn hdb (hs.visible hdb hv))

theorem Sound.writeAll : ∀ (writes : List (Place × Option Record)) {objects : Objects},
    objects.Sound → (∀ e ∈ writes, objects.Admits e.1 e.2) →
    (Objects.writeAll writes objects).2.Sound
  | [], _, hs, _ => hs
  | (place, record?) :: writes, objects, hs, hfit => by
    rw [Objects.writeAll]
    split
    · next objects' hw =>
      refine Sound.writeAll writes (hs.writeThrough (hfit _ List.mem_cons_self) hw) ?_
      intro e he env name fields hf
      refine hfit e (List.mem_cons_of_mem _ he) env name fields ?_
      obtain ⟨db, hdb, hw⟩ := bind_eq_ok.1 hw
      rw [database_eq_ok] at hdb
      cases hw
      rw [← hf]
      exact (outline?_put hdb (by rfl) e.1.db).symm
    · exact hs

theorem Sound.commit (hs : objects.Sound) : (objects.commit h).2.Sound := by
  unfold Objects.commit
  split
  · exact hs
  · next tx hchecked =>
    obtain ⟨tx', htx, hchecked⟩ := bind_eq_ok.1 hchecked
    obtain ⟨⟨⟩, -, hchecked⟩ := bind_eq_ok.1 hchecked
    rw [transaction_eq_ok] at htx
    obtain rfl : tx' = tx := Except.ok.inj hchecked
    have hrest : (objects.remove h).Sound := hs.remove (outline?_of_get htx)
    refine Sound.writeAll tx'.writes.entries hrest fun e he => ?_
    have hsound := (hs.sound _ _ htx).2 e.1 e.2 (Table.get?_eq_some_iff.2 he)
    intro env name fields hf
    refine hsound.2 env name fields ?_
    rw [← hf]
    exact ((keeps_remove (outline?_of_get htx)).outline _ hsound.1).symm

/-! ### Scans -/

theorem mem_candidates {seek : Seek} {records : Records} {e : Key × Record}
    (he : e ∈ seek.candidates records) : e ∈ records.entries := by
  unfold Seek.candidates at he
  split at he
  · exact List.mem_of_mem_filter he
  · exact List.mem_reverse.1 (List.mem_of_mem_filter he)
  · exact List.mem_of_mem_filter ((List.dropWhile_sublist _).subset he)
  · exact List.mem_reverse.1 ((List.dropWhile_sublist _).subset he)

theorem mem_of_firstWithin {seek : Seek} : ∀ {candidates : List (Key × Record)}
    {e : Key × Record}, seek.firstWithin candidates = some e → e ∈ candidates
  | [], _, h => by cases h
  | c :: rest, e, h => by
    rw [Seek.firstWithin] at h
    split at h
    · cases h
      exact List.mem_cons_self
    · exact List.mem_cons_of_mem _ (mem_of_firstWithin h)
    · simp at h

theorem Sound.advance (hs : objects.Sound) {cursor : Cursor} {seek : Seek}
    (hget : objects.table.get? h = some (.cursor cursor)) :
    (objects.advance h cursor seek).2.Sound := by
  have hcursor := hs.sound _ _ hget
  unfold Objects.advance
  split
  · exact hs.put hget rfl hcursor
  · next db hdb =>
    rw [database_eq_ok] at hdb
    split
    · exact hs.put hget rfl hcursor
    · next key record hnext =>
      have hmem : (key, record) ∈ db.records.entries :=
        mem_candidates (mem_of_firstWithin hnext)
      have hadd := hs.add (rowOf_soundIn hdb fun hw => ((hs.sound _ _ hdb).2.2.2 hw _ hmem).2)
      have hlive : (objects.add (.row (db.rowOf seek.db record))).2.table.get? h =
          some (.cursor cursor) := by
        rw [get?_add, if_neg, hget]
        rintro rfl
        rw [hs.fresh] at hget
        simp at hget
      exact hadd.put hlive rfl (hs.mono (keeps_add _) hcursor)

theorem Sound.fetchNext (hs : objects.Sound) {r : Row} : (objects.fetchNext h r).2.Sound := by
  unfold Objects.fetchNext
  split
  · exact hs
  · next cursor hcursor =>
    rw [cursor_eq_ok] at hcursor
    split
    · exact hs
    · exact hs.advance hcursor
    · split
      · exact hs
      · exact hs.advance hcursor

end Objects

/-! ### Calls -/

variable {engine : Engine}

theorem sound_attempt {α : Type} {result : Except Refusal (α × Objects)}
    (hs : engine.objects.Sound) (hr : ∀ a objects, result = .ok (a, objects) → objects.Sound) :
    (engine.attempt result).2.objects.Sound := by
  cases result with
  | error refusal => exact hs
  | ok r => exact hr r.1 r.2 rfl

theorem sound_attemptFlag {result : Except Refusal Objects} (hs : engine.objects.Sound)
    (hr : ∀ objects, result = .ok objects → objects.Sound) :
    (engine.attemptFlag result).2.objects.Sound := by
  cases result with
  | error refusal => exact hs
  | ok objects => exact hr objects rfl

@[simp] theorem inquire_objects {α : Type} (result : Except Refusal (Option α)) :
    (engine.inquire result).2.objects = engine.objects := by
  cases result <;> rfl

/-- A primitive that takes a row is given a sound one, and a sound table without it. -/
theorem sound_consume {α : Type} {row : Handle}
    {primitive : Row → Objects → Except Refusal (α × Objects)} (hs : engine.objects.Sound)
    (hr : ∀ r rest a objects, rest.Sound → (Object.row r).SoundIn rest row →
      primitive r rest = .ok (a, objects) → objects.Sound) :
    (engine.consume row primitive).2.objects.Sound := by
  unfold consume
  split
  · exact hs
  · next r hrow =>
    have hrest := hs.removeRow hrow
    rw [Objects.row_eq_ok] at hrow
    have htaken := hs.mono (Objects.keeps_remove (Objects.outline?_of_get hrow))
      (hs.sound _ _ hrow)
    exact sound_attempt hrest fun a objects h => hr r _ a objects hrest htaken h

theorem map_unit_eq_ok {result : Except Refusal Objects} {a : Unit} {objects : Objects} :
    result.map ((), ·) = .ok (a, objects) ↔ result = .ok objects := by
  cases result with
  | error refusal => simp [Except.map]
  | ok o => simp [Except.map]

theorem sound_upsert (hs : engine.objects.Sound) (functions : Hook → MergeFn)
    (store row : Handle) : (engine.upsert functions store row).2.objects.Sound := by
  unfold upsert
  split
  · exact hs
  · next r hrow =>
    have hrest := hs.removeRow hrow
    rw [Objects.row_eq_ok] at hrow
    have htaken := hs.mono (Objects.keeps_remove (Objects.outline?_of_get hrow))
      (hs.sound _ _ hrow)
    dsimp only
    split
    · exact hrest
    · next merge hmerge =>
      refine sound_attemptFlag hrest fun objects hstore => ?_
      exact hrest.storeMerge htaken hmerge (MergeFn.length_run ..) hstore

theorem sound_fetchNext (hs : engine.objects.Sound) (cursor row : Handle) :
    (engine.fetchNext cursor row).2.objects.Sound := by
  unfold fetchNext
  split
  · exact hs
  · next r hrow =>
    have hfetch := (hs.removeRow hrow).fetchNext (h := cursor) (r := r)
    split <;> next hresult => rw [hresult] at hfetch; exact hfetch

theorem sound_commit (hs : engine.objects.Sound) (tx : Handle) :
    (engine.commit tx).2.objects.Sound := by
  have hcommit := hs.commit (h := tx)
  unfold commit
  split <;> next hresult => rw [hresult] at hcommit; exact hcommit

/-- Every call keeps the table sound. -/
theorem sound_step (functions : Hook → MergeFn) (hs : engine.objects.Sound) {kind : AnswerKind}
    (action : Action kind) : (engine.step functions action).2.objects.Sound := by
  cases action with
  | newEnvironment =>
    refine sound_attempt hs fun a objects h => ?_
    cases h
    have hsound : (Object.environment {}).SoundIn engine.objects (engine.objects.issued + 1) :=
      fun _ _ hd => by cases hd
    exact hs.add hsound
  | setBytes h name bytes => exact sound_attemptFlag hs fun _ => hs.setBytes
  | setWord h name w => exact sound_attemptFlag hs fun _ => hs.setWord
  | getBytes h name =>
    show (engine.getBytes h name).2.objects.Sound
    unfold getBytes
    split
    · exact hs
    · rw [inquire_objects]
      exact hs
  | getWord h name =>
    show (engine.inquire _).2.objects.Sound
    rw [inquire_objects]
    exact hs
  | resolve h path =>
    show (engine.inquire _).2.objects.Sound
    rw [inquire_objects]
    exact hs
  | declare env name fields => exact sound_attemptFlag hs fun _ => hs.declare
  | installHook db hook => exact sound_attemptFlag hs fun _ => hs.installHook
  | openEnvironment env => exact sound_attemptFlag hs fun _ => hs.openEnvironment
  | destroy h => exact sound_attemptFlag hs fun _ => hs.destroy
  | newRow db => exact sound_attempt hs fun _ _ => hs.newRow
  | put store row =>
    exact sound_consume hs fun r rest a objects hrest htaken h =>
      hrest.putRow htaken (map_unit_eq_ok.1 h)
  | upsert store row => exact sound_upsert hs functions store row
  | delete store row =>
    exact sound_consume hs fun r rest a objects hrest htaken h =>
      hrest.deleteRow htaken (map_unit_eq_ok.1 h)
  | lookup store row =>
    exact sound_consume hs fun r rest a objects hrest htaken h => hrest.lookupRow h
  | newCursor env => exact sound_attempt hs fun _ _ => hs.newCursor
  | fetchNext cursor row => exact sound_fetchNext hs cursor row
  | begin env => exact sound_attempt hs fun _ _ => hs.begin
  | commit tx => exact sound_commit hs tx

/-- Every state that calls lead to has a sound table. -/
theorem Reachable.sound (h : Reachable engine) : engine.objects.Sound := by
  induction h with
  | start => exact ⟨nofun, nofun⟩
  | step functions action _ ih => exact sound_step functions ih action

end RowStore.Engine
