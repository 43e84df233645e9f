/-
# What calls make and take

Some calls change no title. The others make an object of an environment, or take the one that they are
given: a row that is written, looked up or fetched from, an object that is destroyed, a transaction that
is committed. A fetch and a commit rely on objects that keep to their environment: a row that is fetched
is then of the environment of the cursor, and the writes that are committed are all made.

Key definitions: `Engine.Objects.Exchanges`, `Engine.Objects.Offers`.
Key theorems: `Engine.retitles_quiet`, `Engine.retitles_write`, `Engine.exchanges_lookup`,
`Engine.exchanges_fetchNext`, `Engine.retitles_commit`, `Engine.retitles_destroy`.
-/
import RowStore.Proofs.Engine.Titles

namespace RowStore.Engine

open Client (WriteKind)

/-- A row that is handed in is gone, and a row that is handed out is a new one of the environment. -/
def Objects.Exchanges (objects : Objects) (row e : Handle) : Option Handle → Objects → Prop
  | none, objects' =>
    objects.Retitles objects.issued (Function.update objects.title? row none) objects'
  | some found, objects' => found = objects.issued + 1 ∧
    objects.Retitles (objects.issued + 1) (Function.update (Function.update objects.title? row none)
      (objects.issued + 1) (some ⟨.row, e⟩)) objects'

/-! ### Calls that neither make nor take objects -/

variable {engine : Engine} {functions : Hook → MergeFn} {h e row store : Handle}

theorem retitles_attemptFlag {result : Except Refusal Objects}
    (hr : ∀ objects', result = .ok objects' →
      engine.objects.Retitles engine.objects.issued engine.objects.title? objects') :
    engine.objects.Retitles engine.objects.issued engine.objects.title?
      (engine.attemptFlag result).2.objects := by
  rw [attemptFlag_objects]
  cases result with
  | error _ => exact .refl _
  | ok objects' => exact hr objects' rfl

theorem Objects.retitles_assign {objects objects' : Objects} {name : String} {cell : Cell}
    {cellOf : Row → Except Refusal Cell} (hr : objects.assign h name cell cellOf = .ok objects') :
    objects.Retitles objects.issued objects.title? objects' := by
  obtain ⟨env, hget, rfl⟩ | ⟨row, made, hget, -, rfl⟩ := Objects.assign_eq_ok.1 hr
  · exact retitles_putEnvironment hget id
  · exact retitles_putRow hget rfl

/-- A quiet call changes no title. -/
theorem retitles_quiet (functions : Hook → MergeFn) {kind : AnswerKind} {action : Action kind}
    (hquiet : action.IsQuiet) : engine.objects.Retitles engine.objects.issued engine.objects.title?
      (engine.step functions action).2.objects := by
  cases action with
  | setBytes h name bytes => exact retitles_attemptFlag fun _ => Objects.retitles_assign
  | setWord h name w => exact retitles_attemptFlag fun _ => Objects.retitles_assign
  | getBytes h name =>
    show Objects.Retitles _ _ _ (engine.getBytes h name).2.objects
    unfold getBytes
    split
    · exact .refl _
    · rw [inquire_objects]
      exact .refl _
  | getWord h name =>
    show Objects.Retitles _ _ _ (engine.inquire _).2.objects
    rw [inquire_objects]
    exact .refl _
  | resolve h path =>
    show Objects.Retitles _ _ _ (engine.inquire _).2.objects
    rw [inquire_objects]
    exact .refl _
  | installHook db hook =>
    refine retitles_attemptFlag fun objects' hr => ?_
    obtain ⟨own, hown, hr⟩ := bind_eq_ok.1 hr
    cases hr
    exact Objects.retitles_putDatabase (Objects.database_eq_ok.1 hown) ⟨rfl, rfl, rfl⟩
  | openEnvironment env =>
    refine retitles_attemptFlag fun objects' hr => ?_
    obtain ⟨own, hown, hr⟩ := bind_eq_ok.1 hr
    split at hr
    · cases hr
    · cases hr
      exact Objects.retitles_putEnvironment (Objects.environment_eq_ok.1 hown) fun _ => rfl
  | newEnvironment => exact hquiet.elim
  | declare _ _ _ => exact hquiet.elim
  | destroy _ => exact hquiet.elim
  | newRow _ => exact hquiet.elim
  | put _ _ => exact hquiet.elim
  | upsert _ _ => exact hquiet.elim
  | delete _ _ => exact hquiet.elim
  | lookup _ _ => exact hquiet.elim
  | newCursor _ => exact hquiet.elim
  | fetchNext _ _ => exact hquiet.elim
  | begin _ => exact hquiet.elim
  | commit _ => exact hquiet.elim

/-! ### Calls that make objects -/

theorem retitles_newEnvironment (hs : engine.objects.Sound) :
    engine.newEnvironment.1 = some (engine.objects.issued + 1) ∧
      engine.objects.Retitles (engine.objects.issued + 1) (Function.update engine.objects.title?
        (engine.objects.issued + 1) (some ⟨.environment, engine.objects.issued + 1⟩))
        engine.newEnvironment.2.objects :=
  ⟨rfl, Objects.retitles_add hs (.environment {}) rfl fun _ => trivial⟩

theorem retitles_newRow (hs : engine.objects.Sound)
    (hd : engine.objects.title? h = some ⟨.database, e⟩) :
    (engine.newRow h).1 = some (engine.objects.issued + 1) ∧
      engine.objects.Retitles (engine.objects.issued + 1) (Function.update engine.objects.title?
        (engine.objects.issued + 1) (some ⟨.row, e⟩)) (engine.newRow h).2.objects := by
  obtain ⟨db, hdb, -⟩ := Objects.title?_eq_database.1 hd
  have hnew : engine.objects.newRow h = .ok (engine.objects.add (.row { db := h })) := by
    unfold Objects.newRow
    rw [Objects.database_eq_ok.2 hdb]
    rfl
  rw [newRow, hnew]
  exact ⟨rfl, Objects.retitles_add hs (.row { db := h }) (Objects.owner?_row_eq_some.2 hd)
    fun _ => trivial⟩

theorem retitles_newCursor (hs : engine.objects.Sound)
    (he : engine.objects.title? e = some ⟨.environment, e⟩) :
    (engine.newCursor e).1 = some (engine.objects.issued + 1) ∧
      engine.objects.Retitles (engine.objects.issued + 1) (Function.update engine.objects.title?
        (engine.objects.issued + 1) (some ⟨.cursor, e⟩)) (engine.newCursor e).2.objects := by
  obtain ⟨-, env, henv⟩ := Objects.title?_eq_environment.1 he
  have hnew : engine.objects.newCursor e = .ok (engine.objects.add (.cursor { env := e })) := by
    unfold Objects.newCursor
    rw [Objects.environment_eq_ok.2 henv]
    rfl
  rw [newCursor, hnew]
  exact ⟨rfl, Objects.retitles_add hs (.cursor { env := e }) rfl fun _ => nofun⟩

/-- A transaction begins in an environment that is opened. -/
theorem retitles_begin (hs : engine.objects.Sound) (e : Handle) :
    ((engine.begin e).1 = none ∧ (engine.begin e).2.objects = engine.objects) ∨
      (engine.begin e).1 = some (engine.objects.issued + 1) ∧
        engine.objects.Retitles (engine.objects.issued + 1) (Function.update engine.objects.title?
          (engine.objects.issued + 1) (some ⟨.transaction, e⟩)) (engine.begin e).2.objects := by
  cases hopen : engine.objects.ensureOpened e with
  | error refusal =>
    have hbegin : engine.objects.begin e = .error refusal := by
      unfold Objects.begin
      rw [hopen]
      rfl
    rw [begin, hbegin]
    exact .inl ⟨rfl, rfl⟩
  | ok _ =>
    have hbegin : engine.objects.begin e = .ok (engine.objects.add (.transaction { env := e })) := by
      unfold Objects.begin
      rw [hopen]
      rfl
    rw [begin, hbegin]
    exact .inr ⟨rfl, Objects.retitles_add hs (.transaction { env := e }) rfl
      fun _ => ⟨hopen, fun _ _ => nofun⟩⟩

/-! ### Calls that take objects -/

/-- Destroying a row, a cursor or a transaction takes its title. -/
theorem retitles_destroy {kind : Kind} (hh : engine.objects.title? h = some ⟨kind, e⟩)
    (hkind : kind ≠ .environment ∧ kind ≠ .database) :
    (engine.destroy h).1 = true ∧ engine.objects.Retitles engine.objects.issued
      (Function.update engine.objects.title? h none) (engine.destroy h).2.objects := by
  obtain ⟨object, hget, rfl, -⟩ := Objects.title?_eq_some.1 hh
  have hnone : object.outline? = none := by
    cases object with
    | environment _ => exact absurd rfl hkind.1
    | database _ => exact absurd rfl hkind.2
    | _ => rfl
  rw [destroy, Objects.destroy_eq_ok.2 (.inr ⟨object, hget, hnone, rfl⟩)]
  exact ⟨rfl, Objects.retitles_remove ((Objects.outline?_of_get hget).trans hnone)⟩

theorem retitles_destroyEnvironment (hs : engine.objects.Sound)
    (he : engine.objects.title? e = some ⟨.environment, e⟩) :
    (engine.destroy e).1 = true ∧ engine.objects.Retitles engine.objects.issued
      (fun h => (engine.objects.title? h).filter (·.env != e)) (engine.destroy e).2.objects := by
  obtain ⟨-, env, henv⟩ := Objects.title?_eq_environment.1 he
  rw [destroy, Objects.destroy_eq_ok.2 (.inl ⟨env, henv, rfl⟩)]
  exact ⟨rfl, Objects.retitles_close hs e⟩

namespace Objects

variable {objects objects' : Objects} {r : Row}

/-- A write of a row of the environment through a store of the environment. -/
theorem retitles_made {goal : Store} {key : Key} {record? : Option Record}
    (hr : objects.title? r.db = some ⟨.database, e⟩)
    (hstore : ∀ tx, objects.table.get? store = some (.transaction tx) → tx.env = e)
    (ht : objects.target store r = .ok goal)
    (hw : objects.write goal ⟨r.db, key⟩ record? = .ok objects') :
    objects.Retitles objects.issued objects.title? objects' := by
  obtain ⟨db, hdb, -, ⟨rfl, hown⟩ | ⟨rfl, tx, htx⟩⟩ := target_eq_ok.1 ht
  · obtain ⟨db', hdb', hw⟩ := bind_eq_ok.1 hw
    cases hw
    exact retitles_putDatabase (database_eq_ok.1 hdb') ⟨rfl, rfl, rfl⟩
  · obtain ⟨tx', htx', hw⟩ := bind_eq_ok.1 hw
    rw [transaction_eq_ok, htx] at htx'
    cases htx'
    cases hw
    exact retitles_putTransaction htx (hstore tx htx ▸ hr)

/-- The database of a row is there without the row. -/
theorem title?_removeRow (hrow : objects.table.get? row = some (.row r)) {d : Handle}
    (hd : objects.title? d = some ⟨.database, e⟩) :
    (objects.remove row).title? d = some ⟨.database, e⟩ := by
  obtain ⟨db, hdb, rfl⟩ := title?_eq_database.1 hd
  exact title?_eq_database.2 ⟨db, get?_remove_row (row_eq_ok.2 hrow) hdb nofun, rfl⟩

end Objects

/-- A write takes its row. -/
theorem retitles_write (functions : Hook → MergeFn)
    (hrow : engine.objects.title? row = some ⟨.row, e⟩)
    (hstore : engine.objects.title? store = some ⟨.database, e⟩ ∨
      engine.objects.title? store = some ⟨.transaction, e⟩) (kind : WriteKind) :
    engine.objects.Retitles engine.objects.issued (Function.update engine.objects.title? row none)
      (engine.step functions (kind.action store row)).2.objects := by
  obtain ⟨r, hget, hdb⟩ := Objects.title?_eq_row.1 hrow
  have hremove := Objects.retitles_removeRow hget
  have htx : ∀ tx, (engine.objects.remove row).table.get? store = some (.transaction tx) →
      tx.env = e := fun tx hlive => by
    rw [Objects.get?_remove] at hlive
    split at hlive
    · cases hlive
    have htitle := Objects.title?_eq_transaction.2 ⟨tx, hlive, rfl⟩
    rcases hstore with hstore | hstore <;> rw [hstore] at htitle <;> cases htitle
    rfl
  rw [step_write functions hget]
  rw [attemptFlag_objects]
  cases hwritten : ((engine.objects.remove row).written functions store r kind).1 with
  | error refusal => exact hremove
  | ok objects' =>
    obtain ⟨target, db, key, record?, hwriting, hmade⟩ := Objects.written_eq_ok.1 hwritten
    have hput := Objects.retitles_made (Objects.title?_removeRow hget hdb) htx hwriting.goes hmade
    rw [hremove.issued, hremove.titles] at hput
    exact hremove.trans hput

namespace Objects

variable {objects objects' : Objects} {r : Row}

/-- A row that is handed out is a new one of the environment. -/
def Offers (objects : Objects) (e : Handle) : Option Handle → Objects → Prop
  | none, objects' => objects.Retitles objects.issued objects.title? objects'
  | some found, objects' => found = objects.issued + 1 ∧
    objects.Retitles (objects.issued + 1)
      (Function.update objects.title? (objects.issued + 1) (some ⟨.row, e⟩)) objects'

theorem Offers.exchanges {found? : Option Handle}
    (ho : (objects.remove row).Offers e found? objects')
    (hget : objects.table.get? row = some (.row r)) :
    objects.Exchanges row e found? objects' := by
  have hremove := retitles_removeRow hget
  unfold Offers at ho
  rw [hremove.issued, hremove.titles] at ho
  cases found? with
  | none => exact hremove.trans ho
  | some found => exact ⟨ho.1, hremove.trans ho.2⟩

/-- A lookup makes a row of the database of the key. -/
theorem offers_lookupRow (hs : objects.Sound) (hdb : objects.title? r.db = some ⟨.database, e⟩)
    {found? : Option Handle} (hlookup : objects.lookupRow store r = .ok (found?, objects')) :
    objects.Offers e found? objects' := by
  obtain ⟨target, -, hlookup⟩ := bind_eq_ok.1 hlookup
  obtain ⟨db, -, hlookup⟩ := bind_eq_ok.1 hlookup
  obtain ⟨key, -, hlookup⟩ := bind_eq_ok.1 hlookup
  obtain ⟨record?, -, hlookup⟩ := bind_eq_ok.1 hlookup
  cases record? with
  | none =>
    cases hlookup
    exact .refl _
  | some record =>
    cases hlookup
    exact ⟨rfl, retitles_add hs (.row (db.rowOf r.db record)) (owner?_row_eq_some.2 hdb)
      fun _ => trivial⟩

/-- A cursor moves on in a database of its environment, and may make a row. -/
theorem offers_advance (hs : objects.Sound) {c : Cursor} {seek : Seek}
    (hcursor : objects.table.get? h = some (.cursor c))
    (hseek : objects.title? seek.db = some ⟨.database, c.env⟩) :
    objects.Offers c.env (objects.advance h c seek).1.toOption.join
      (objects.advance h c seek).2 := by
  obtain ⟨db, hdb, -⟩ := title?_eq_database.1 hseek
  unfold advance
  rw [database_eq_ok.2 hdb]
  dsimp only
  cases seek.next? db.records with
  | none => exact retitles_putCursor hcursor rfl fun _ _ => nofun
  | some entry =>
    have hadd := retitles_add hs (.row (db.rowOf seek.db entry.2)) (owner?_row_eq_some.2 hseek)
      fun _ => trivial
    have hlive := hs.get?_add hcursor (.row (db.rowOf seek.db entry.2))
    have hput : Retitles _ _ _ (Objects.put _ h (.cursor { c with
        progress := .scanning { seek with last? := some entry.1 } })) :=
      retitles_putCursor hlive rfl fun _ seek' hseek' => by
        cases hseek'
        rw [hadd.titles, Function.update_of_ne]
        · exact hseek
        · intro heq
          rw [show seek.db = _ from heq, hs.fresh] at hdb
          cases hdb
    rw [hadd.issued, hadd.titles] at hput
    exact ⟨rfl, hadd.trans hput⟩

/-- A row of the environment seeds a scan of a database of the environment. -/
theorem db_of_seek {seek : Seek} (hseek : objects.seek r = .ok seek) : seek.db = r.db := by
  obtain ⟨db, -, hseek⟩ := bind_eq_ok.1 hseek
  obtain ⟨⟨⟩, -, hseek⟩ := bind_eq_ok.1 hseek
  obtain ⟨order, -, hseek⟩ := bind_eq_ok.1 hseek
  obtain ⟨start, -, hseek⟩ := bind_eq_ok.1 hseek
  cases hseek
  rfl

/-- A fetch whose row is gone moves its cursor on in the scan that it is in or that the row seeds. -/
theorem offers_fetchNext (hs : objects.Sound) (hh : objects.Homely)
    (hcursor : objects.title? h = some ⟨.cursor, e⟩)
    (hdb : objects.title? r.db = some ⟨.database, e⟩) :
    objects.Offers e (objects.fetchNext h r).1.toOption.join (objects.fetchNext h r).2 := by
  obtain ⟨c, hc, rfl⟩ := title?_eq_cursor.1 hcursor
  unfold fetchNext
  rw [cursor_eq_ok.2 hc]
  dsimp only
  cases hprogress : c.progress with
  | finished => exact .refl _
  | scanning seek => exact offers_advance hs hc (hh h _ hc seek hprogress)
  | unstarted =>
    dsimp only
    cases hseek : objects.seek r with
    | error refusal => exact .refl _
    | ok seek => exact offers_advance hs hc (db_of_seek hseek ▸ hdb)

end Objects

/-- A lookup takes its row and may make one. -/
theorem exchanges_lookup (hs : engine.objects.Sound)
    (hrow : engine.objects.title? row = some ⟨.row, e⟩) (store : Handle) :
    engine.objects.Exchanges row e (engine.lookup store row).1 (engine.lookup store row).2.objects := by
  obtain ⟨r, hget, hdb⟩ := Objects.title?_eq_row.1 hrow
  rw [lookup_eq hget]
  cases hlookup : (engine.objects.remove row).lookupRow store r with
  | error refusal => exact Objects.retitles_removeRow hget
  | ok answer =>
    have hoffers := Objects.offers_lookupRow (hs.removeRow (Objects.row_eq_ok.2 hget))
      (Objects.title?_removeRow hget hdb) hlookup
    exact hoffers.exchanges hget

/-- A fetch takes its row and may make one, of the environment of both. -/
theorem exchanges_fetchNext (hs : engine.objects.Sound) (hh : engine.objects.Homely)
    (hcursor : engine.objects.title? h = some ⟨.cursor, e⟩)
    (hrow : engine.objects.title? row = some ⟨.row, e⟩) :
    engine.objects.Exchanges row e (engine.fetchNext h row).1 (engine.fetchNext h row).2.objects := by
  obtain ⟨c, hc, he⟩ := Objects.title?_eq_cursor.1 hcursor
  obtain ⟨r, hget, hdb⟩ := Objects.title?_eq_row.1 hrow
  have hc' := Objects.get?_remove_row (Objects.row_eq_ok.2 hget) hc nofun
  have hoffers := Objects.offers_fetchNext (hs.removeRow (Objects.row_eq_ok.2 hget))
    ((Objects.retitles_removeRow hget).homely hh) (Objects.title?_eq_cursor.2 ⟨c, hc', he⟩)
    (Objects.title?_removeRow hget hdb)
  unfold fetchNext
  rw [Objects.row_eq_ok.2 hget]
  dsimp only
  generalize (engine.objects.remove row).fetchNext h r = answer at hoffers
  obtain ⟨_ | found, objects'⟩ := answer
  · exact hoffers.exchanges hget
  · exact hoffers.exchanges hget

/-- Writes to live databases are all made. -/
theorem Objects.retitles_writeAll : ∀ (writes : List (Place × Option Record)) {objects : Objects},
    (∀ write ∈ writes, objects.HasDatabase write.1.db) →
    (writeAll writes objects).1 = .ok () ∧
      objects.Retitles objects.issued objects.title? (writeAll writes objects).2
  | [], objects, _ => ⟨rfl, .refl objects⟩
  | (place, record?) :: writes, objects, hall => by
    rw [List.forall_mem_cons] at hall
    obtain ⟨⟨db, hdb⟩, hall⟩ := hall
    rw [writeAll, writeThrough_eq hdb]
    dsimp only
    obtain ⟨hok, hrest⟩ := retitles_writeAll writes fun write hm =>
      (hasDatabase_put hdb _).2 (hall write hm)
    have hput : objects.Retitles objects.issued objects.title? (objects.put place.db
        (.database { db with records := writtenRecords db.records place.key record? })) :=
      retitles_putDatabase hdb ⟨rfl, rfl, rfl⟩
    rw [hput.issued, hput.titles] at hrest
    exact ⟨hok, hput.trans hrest⟩

/-- A transaction that keeps to its environment is committed. -/
theorem retitles_commit (hh : engine.objects.Homely)
    (htx : engine.objects.title? h = some ⟨.transaction, e⟩) :
    (engine.commit h).1 = commitOk ∧ engine.objects.Retitles engine.objects.issued
      (Function.update engine.objects.title? h none) (engine.commit h).2.objects := by
  obtain ⟨tx, hlive, rfl⟩ := Objects.title?_eq_transaction.1 htx
  obtain ⟨hopen, hplaces⟩ := hh h _ hlive
  have hremove : engine.objects.Retitles engine.objects.issued
      (Function.update engine.objects.title? h none) (engine.objects.remove h) :=
    Objects.retitles_remove (Objects.outline?_of_get hlive)
  obtain ⟨hok, hwrites⟩ := Objects.retitles_writeAll tx.writes.entries fun write hm => by
      obtain ⟨db, hdb, -⟩ := Objects.title?_eq_database.1
        (hplaces write.1 write.2 (Table.get?_eq_some_iff.2 hm))
      exact (hasDatabase_removeTransaction hlive).2 ⟨db, hdb⟩
  rw [hremove.issued, hremove.titles] at hwrites
  have hcommit : engine.objects.commit h =
      Objects.writeAll tx.writes.entries (engine.objects.remove h) := by
    unfold Objects.commit
    rw [Objects.transaction_eq_ok.2 hlive]
    simp only [bind, Except.bind, hopen]
    rfl
  unfold commit
  rw [hcommit]
  generalize Objects.writeAll tx.writes.entries (engine.objects.remove h) = answer at hok hwrites
  obtain ⟨result, objects'⟩ := answer
  cases hok
  exact ⟨rfl, hremove.trans hwrites⟩

end RowStore.Engine
