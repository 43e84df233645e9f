/-
# Writes and lookups in the ledger

A store that takes a row is, for the engine, where the row goes; what it shows of a place is what
the ledger sees there, and what is written through it is written into the base or into the overlay.
So a write of a row and a lookup come out as the ledger has them, and a commit puts the overlay over
the base.

Key definitions: `Client.Taking`, `Client.Catalog.settle`, `Client.Outcome`.
Key theorems: `Client.setValue_told`, `Client.Reflects.written_eq`, `Client.Reflects.written`,
`Client.Reflects.lookupRow`, `Client.Reflects.commit`.
-/
import RowStore.Proofs.Client.Reflection
import RowStore.Proofs.Client.Stores
import RowStore.Proofs.Engine.Points

namespace RowStore.Client

open Engine (Place Objects)

variable {catalog : Catalog} {objects : Objects} {hand : Hand} {ledger : Ledger} {ref : StoreRef}
  {store : Store} {r : Engine.Row} {key : Key} {i : Nat}

/-! ### Fields of rows -/

section Fields

variable {db : Engine.Database} {h : Handle} {name : String}

/-- The cell that a word makes in a field, unless it is refused. -/
def wordCell (db : Engine.Database) (name : String) (w : UInt64) : Except Refusal Cell :=
  if Engine.isPseudoField name then .error (.typeMismatch name .string)
  else do
    let field ← db.field name
    if field.type.isString then .error (.typeMismatch field.name field.type)
    else .ok (.word (field.type.truncate w))

/-- The cell that bytes make in a field, unless they are refused. -/
def bytesCell (db : Engine.Database) (name : String) (bytes : Bytes) : Except Refusal Cell :=
  if Engine.isPseudoField name then .ok (.bytes bytes)
  else do
    let field ← db.field name
    match Cell.decode? field.type bytes with
    | some cell => .ok cell
    | none => .error (.typeMismatch field.name field.type)

/-- The cell that a value makes in a field, unless it is refused. -/
def cellOf (db : Engine.Database) (name : String) : Value → Except Refusal Cell
  | .int v => wordCell db name v.toUInt64
  | .uint v => wordCell db name v
  | .str bytes => bytesCell db name bytes

theorem wordCell_toOption (w : UInt64) : (wordCell db name w).toOption = wordCell? db name w := by
  unfold wordCell wordCell?
  split
  · rfl
  · cases db.field name with
    | error refusal => rfl
    | ok field =>
      dsimp only [bind, Except.bind, Except.toOption, Option.bind_some]
      cases field.type.isString <;> rfl

theorem bytesCell_toOption (bytes : Bytes) :
    (bytesCell db name bytes).toOption = bytesCell? db name bytes := by
  unfold bytesCell bytesCell?
  split
  · rfl
  · cases db.field name with
    | error refusal => rfl
    | ok field =>
      dsimp only [bind, Except.bind, Except.toOption, Option.bind_some]
      cases Cell.decode? field.type bytes <;> rfl

theorem cellOf_toOption (value : Value) : (cellOf db name value).toOption = cell? db name value := by
  cases value with
  | int v => exact wordCell_toOption _
  | uint v => exact wordCell_toOption _
  | str bytes => exact bytesCell_toOption _

theorem setWord_eq (hrow : objects.table.get? h = some (.row r))
    (hdb : objects.table.get? r.db = some (.database db)) (name : String) (w : UInt64) :
    objects.setWord h name w = (wordCell db name w).map (objects.setCell h r name) := by
  have hcell : objects.cellOfWord r name w = wordCell db name w := by
    unfold Objects.cellOfWord wordCell
    rw [Objects.database_eq_ok.2 hdb]
    rfl
  unfold Objects.setWord
  rw [Objects.assign_row hrow, hcell]

theorem setBytes_eq (hrow : objects.table.get? h = some (.row r))
    (hdb : objects.table.get? r.db = some (.database db)) (name : String) (bytes : Bytes) :
    objects.setBytes h name bytes = (bytesCell db name bytes).map (objects.setCell h r name) := by
  have hcell : objects.cellOfBytes r name bytes = bytesCell db name bytes := by
    unfold Objects.cellOfBytes bytesCell
    rw [Objects.database_eq_ok.2 hdb]
    rfl
  unfold Objects.setBytes
  rw [Objects.assign_row hrow, hcell]

/-- A field of a row is set to the cell that the value makes, or the client is told why not. -/
theorem setValue_told {world : World} {row : Row} (hs : world.Serves row.env)
    (hrow : world.engine.objects.table.get? row.handle = some (.row r))
    (hdb : world.engine.objects.table.get? r.db = some (.database db)) (field : String)
    (value : Value) :
    (row.set field value world).1 =
        told "set field" (cellOf db (SharedName.beforeNul field) value) ∧
      (row.set field value world).2.engine = (world.engine.attemptFlag
        ((cellOf db (SharedName.beforeNul field) value).map
          (world.engine.objects.setCell row.handle r (SharedName.beforeNul field)))).2 := by
  have htold : ∀ made : Except Refusal Cell, told "set field"
      (made.map (world.engine.objects.setCell row.handle r (SharedName.beforeNul field))) =
        told "set field" made := fun made => by cases made <;> rfl
  obtain ⟨action, hset, hstep⟩ : ∃ action : String → Engine.Action .flag,
      (row.set field value = do
        ensureOpen row.env
        tryWithName row.env field fun name => orRefused row.env "set field" (action name)) ∧
      ∀ name, world.engine.step world.mergeFunctions (action name) = world.engine.attemptFlag
        ((cellOf db name value).map (world.engine.objects.setCell row.handle r name)) := by
    cases value with
    | int v =>
      exact ⟨(.setWord row.handle · v.toUInt64), rfl, fun name =>
        congrArg world.engine.attemptFlag (setWord_eq hrow hdb name v.toUInt64)⟩
    | uint v =>
      exact ⟨(.setWord row.handle · v), rfl, fun name =>
        congrArg world.engine.attemptFlag (setWord_eq hrow hdb name v)⟩
    | str bytes =>
      exact ⟨(.setBytes row.handle · bytes), rfl, fun name =>
        congrArg world.engine.attemptFlag (setBytes_eq hrow hdb name bytes)⟩
  rw [← htold]
  exact ⟨Row.tryWithName_told hs field "set field" action hset (hstep _),
    (Row.tryWithName_eq hs field "set field" action hset).2.trans (congrArg Prod.snd (hstep _))⟩

theorem setValue_apply {world : World} {row : Row} (hs : world.Serves row.env)
    (hrow : world.engine.objects.table.get? row.handle = some (.row r))
    (hdb : world.engine.objects.table.get? r.db = some (.database db)) (field : String)
    (value : Value) {made : Option Cell}
    (hmade : cell? db (SharedName.beforeNul field) value = made) :
    (row.set field value world).1.isOk = made.isSome ∧
      (row.set field value world).2.engine.objects =
        (made.map (world.engine.objects.setCell row.handle r (SharedName.beforeNul field))).getD
          world.engine.objects ∧
      (row.set field value world).2.engine.journal = world.engine.journal := by
  obtain ⟨hanswer, hengine⟩ := setValue_told hs hrow hdb field value
  rw [hanswer, hengine, Engine.attemptFlag_objects, Engine.attemptFlag_journal, ← hmade,
    ← cellOf_toOption]
  cases cellOf db (SharedName.beforeNul field) value <;> exact ⟨rfl, rfl, rfl⟩

theorem getValue_apply {world : World} {row : Row} (hs : world.Serves row.env)
    (hrow : world.engine.objects.table.get? row.handle = some (.row r))
    (hdb : world.engine.objects.table.get? r.db = some (.database db)) {field : String}
    (herror : SharedName.beforeNul field ≠ Engine.diagnosticKey) (kind : ValueKind) :
    (row.get field kind world).1 = fieldValue? db r (SharedName.beforeNul field) kind ∧
      (row.get field kind world).2.engine.objects = world.engine.objects ∧
      (row.get field kind world).2.engine.journal = world.engine.journal := by
  obtain ⟨hword, hafterword⟩ := Row.getWord_eq hs field
  rw [Engine.getWord_of_row hrow] at hword
  obtain ⟨hbytes, hafterbytes⟩ := Row.getBytes_eq hs field
  rw [Engine.getBytes_of_ne herror] at hbytes hafterbytes
  rw [Engine.inquire_fst, Objects.getBytes_of_row hrow hdb] at hbytes
  cases kind with
  | int =>
    rw [Row.get_int_apply, hword, hafterword]
    exact ⟨rfl, Engine.inquire_objects _, Engine.inquire_journal _⟩
  | uint =>
    rw [Row.get_uint_apply, hword, hafterword]
    exact ⟨rfl, Engine.inquire_objects _, Engine.inquire_journal _⟩
  | str =>
    rw [Row.get_str_apply, hbytes, hafterbytes]
    refine ⟨?_, Engine.inquire_objects _, Engine.inquire_journal _⟩
    unfold fieldValue?
    dsimp only
    cases r.cells.get? (SharedName.beforeNul field) <;> rfl

end Fields

/-! ### Stores -/

/-- Where a store is on the engine. -/
def Store.onEngine : Store → Engine.Store
  | .database db => .database db.handle
  | .transaction tx => .transaction tx.handle

/-- The store is the one of the number, and takes the row. -/
inductive Taking (catalog : Catalog) (objects : Objects) (hand : Hand) (ledger : Ledger)
    (r : Engine.Row) : StoreRef → Store → Prop where
  | database {i : Nat} {db : Database} (listed : catalog.databases[i]? = some db)
    (own : db.handle = r.db) : Taking catalog objects hand ledger r (.database i) (.database db)
  | transaction {i : Nat} {tx : Transaction} {overlay : Overlay} (held : hand.txs.get? i = some tx)
    (draft : ledger.drafts.get? i = some (.pending overlay))
    (pending : catalog.Pending objects tx overlay) :
    Taking catalog objects hand ledger r (.transaction i) (.transaction tx)

namespace Reflects

theorem has_eq (h : Reflects catalog objects hand ledger) (ref : StoreRef) :
    ledger.has catalog ref = (hand.store? catalog ref).isSome := by
  cases ref with
  | database i => exact (Option.isSome_map ..).symm
  | transaction i =>
    show (ledger.drafts.get? i).isSome = ((hand.txs.get? i).map Store.transaction).isSome
    rcases h.drafts.elim i with ⟨hs, ht⟩ | ⟨tx, draft, hs, ht, -⟩
    · rw [hs, ht]
      rfl
    · rw [hs, ht]
      rfl

theorem taking (h : Reflects catalog objects hand ledger)
    (hstore : hand.store? catalog ref = some store) (htakes : ledger.takes catalog r ref = true) :
    Taking catalog objects hand ledger r ref store := by
  cases ref with
  | database i =>
    obtain ⟨db, listed, rfl⟩ := Option.map_eq_some_iff.1 hstore
    rw [Ledger.takes_database listed] at htakes
    exact .database listed (beq_iff_eq.1 htakes)
  | transaction i =>
    obtain ⟨tx, held, rfl⟩ := Option.map_eq_some_iff.1 hstore
    obtain ⟨draft, hdraft, hlive⟩ := h.drafts.of_some held
    cases draft with
    | finished =>
      rw [Ledger.takes_of_finished hdraft] at htakes
      exact absurd htakes Bool.false_ne_true
    | pending overlay => exact .transaction held hdraft hlive

/-- A finished transaction takes no rows. -/
theorem takes_of_isFinished (h : Reflects catalog objects hand ledger)
    (hstore : hand.store? catalog ref = some store) (hfinished : store.isFinished = true) :
    ledger.takes catalog r ref = false := by
  by_contra htakes
  cases h.taking hstore (Bool.eq_true_of_not_eq_false htakes) with
  | database listed own => exact Bool.false_ne_true hfinished
  | transaction held draft pending =>
    exact Bool.false_ne_true (pending.unfinished.symm.trans hfinished)

/-- A row that a store takes goes there. -/
theorem target_eq_ok (h : Reflects catalog objects hand ledger) (hr : catalog.Lists r.db)
    (ht : Taking catalog objects hand ledger r ref store) :
    objects.target store.handle r = .ok store.onEngine := by
  obtain ⟨records, hdb, -⟩ := h.stores _ hr
  cases ht with
  | database listed own =>
    obtain ⟨records', hown, -⟩ := h.stores _ ⟨_, List.mem_of_getElem? listed, rfl⟩
    exact (Objects.target_database hdb h.opened hown).trans (if_pos own)
  | transaction held draft pending =>
    obtain ⟨writes, hfound, -⟩ := pending.found
    exact Objects.target_transaction hdb h.opened hfound

/-- A row that a store does not take goes nowhere. -/
theorem target_eq_error (h : Reflects catalog objects hand ledger)
    (hstore : hand.store? catalog ref = some store) (hr : catalog.Lists r.db)
    (hopen : store.isFinished = false) (htakes : ledger.takes catalog r ref = false) :
    ∃ refusal, objects.target store.handle r = .error refusal := by
  obtain ⟨records, hdb, -⟩ := h.stores _ hr
  cases ref with
  | database i =>
    obtain ⟨db, listed, rfl⟩ := Option.map_eq_some_iff.1 hstore
    obtain ⟨records', hown, -⟩ := h.stores _ ⟨_, List.mem_of_getElem? listed, rfl⟩
    rw [Ledger.takes_database listed] at htakes
    exact ⟨_, (Objects.target_database hdb h.opened hown).trans (if_neg (beq_eq_false_iff_ne.1 htakes))⟩
  | transaction i =>
    obtain ⟨tx, held, rfl⟩ := Option.map_eq_some_iff.1 hstore
    obtain ⟨draft, hdraft, hlive⟩ := h.drafts.of_some held
    cases draft with
    | finished => exact absurd (hopen.symm.trans hlive) Bool.false_ne_true
    | pending overlay =>
      rw [Ledger.takes_of_pending hdraft] at htakes
      exact absurd htakes.symm Bool.false_ne_true

/-- A reader of a store sees what the ledger sees. -/
theorem visible_eq (h : Reflects catalog objects hand ledger) (hr : catalog.Lists r.db)
    (ht : Taking catalog objects hand ledger r ref store) (key : Key) :
    objects.visible store.onEngine r.db key = .ok (ledger.view ref ⟨r.db, key⟩) := by
  obtain ⟨records, hdb, hrecords⟩ := h.stores _ hr
  cases ht with
  | database listed own => exact (Objects.visible_database hdb key).trans (congrArg _ (hrecords key))
  | transaction held draft pending =>
    obtain ⟨writes, hfound, hwrites⟩ := pending.found
    rw [Ledger.view_of_pending draft]
    refine (Objects.visible_transaction hdb hfound key).trans ?_
    dsimp only [Catalog.stored]
    rw [hwrites, hrecords]
    rfl

/-- What is written through a store is written into the ledger. -/
theorem write_eq_ok (h : Reflects catalog objects hand ledger) (hr : catalog.Lists r.db)
    (ht : Taking catalog objects hand ledger r ref store) (key : Key) (record? : Option Record) :
    ∃ objects', objects.write store.onEngine ⟨r.db, key⟩ record? = .ok objects' ∧
      Reflects catalog objects' hand (ledger.assign ⟨r.db, key⟩ record? ref) := by
  cases ht with
  | database listed own => exact h.writeThrough hr record?
  | transaction held draft pending =>
    rw [Ledger.assign_of_pending draft]
    exact h.writePending held pending hr record?

/-- What the merge functions noted has nothing to do with the objects. -/
theorem noted (h : Reflects catalog objects hand ledger) (journal : List MergeRun) :
    Reflects catalog objects hand { ledger with journal } := { h with }

end Reflects

theorem Taking.noted (ht : Taking catalog objects hand ledger r ref store)
    (journal : List MergeRun) : Taking catalog objects hand { ledger with journal } r ref store := by
  cases ht with
  | database listed own => exact .database listed own
  | transaction held draft pending => exact .transaction held draft pending

theorem Taking.isFinished (ht : Taking catalog objects hand ledger r ref store) :
    store.isFinished = false := by
  cases ht with
  | database listed own => rfl
  | transaction held draft pending => exact pending.unfinished

theorem Taking.env (ht : Taking catalog objects hand ledger r ref store)
    (h : Reflects catalog objects hand ledger) : store.env = catalog.env.handle := by
  cases ht with
  | database listed own => exact h.envs _ (List.mem_of_getElem? listed)
  | transaction held draft pending => exact pending.env

/-! ### Writing a row -/

/-- What a write of a row asks for when it is given what is seen under every place. -/
def Catalog.settle (catalog : Catalog) (seen : Base) (r : Engine.Row) (kind : WriteKind) :
    Except Refusal (Key × Option Record) × List MergeRun :=
  (catalog.layout r.db).settle catalog.functions (fun key => seen ⟨r.db, key⟩) r kind

theorem accepted?_eq (layout : Engine.Database) (reply : MergeReply) :
    accepted? layout reply = (layout.accept reply).toOption := by
  unfold accepted? Engine.Database.accept
  cases reply.rejection <;> rfl

/-- What is entered for a write that a store takes is what the write asks for. -/
theorem Ledger.writeRow_eq (htakes : ledger.takes catalog r ref = true) (kind : WriteKind) :
    ledger.writeRow catalog ref r kind =
      match catalog.settle (ledger.view ref) r kind with
      | (.ok (key, record?), notes) => ledger.enter ref ⟨r.db, key⟩ (some record?, notes)
      | (.error _, notes) => (.refused, { ledger with journal := ledger.journal ++ notes }) := by
  have hquiet : { ledger with journal := ledger.journal ++ [] } = ledger := by rw [List.append_nil]
  unfold writeRow Catalog.settle Engine.Database.settle
  rw [htakes]
  cases hkey : (catalog.layout r.db).keyOf r with
  | error refusal =>
    cases kind with
    | put => exact congrArg (Answer.refused, ·) hquiet.symm
    | delete => exact congrArg (Answer.refused, ·) hquiet.symm
    | upsert => cases (catalog.layout r.db).hook? <;> exact congrArg (Answer.refused, ·) hquiet.symm
  | ok key =>
    cases kind with
    | put => rfl
    | delete => rfl
    | upsert =>
      unfold Catalog.written
      dsimp only
      cases (catalog.layout r.db).hook? with
      | none => rfl
      | some hook =>
        dsimp only
        rw [accepted?_eq]
        cases (catalog.layout r.db).accept _ <;> rfl

/-- The engine makes the write that is asked for. -/
theorem Reflects.written_eq (h : Reflects catalog objects hand ledger) (hr : catalog.Lists r.db)
    (ht : Taking catalog objects hand ledger r ref store) (kind : WriteKind) :
    objects.written catalog.functions store.handle r kind =
      ((catalog.settle (ledger.view ref) r kind).1.bind fun asked =>
        objects.write store.onEngine ⟨r.db, asked.1⟩ asked.2,
        (catalog.settle (ledger.view ref) r kind).2) := by
  obtain ⟨records, hdb, -⟩ := h.stores _ hr
  exact Objects.written_eq (h.target_eq_ok hr ht) hdb catalog.functions (h.visible_eq hr ht) kind

/-- What a write of a row came to on the engine is what was entered for it. -/
structure Outcome (catalog : Catalog) (objects : Objects) (hand : Hand) (ledger : Ledger)
    (result : Except Refusal Objects × List MergeRun) (entry : Answer × Ledger) : Prop where
  answer : entry.1 = .ofFlag result.1.isOk
  reflects : Reflects catalog (result.1.toOption.getD objects) hand entry.2
  journal : entry.2.journal = ledger.journal ++ result.2

theorem Reflects.written (h : Reflects catalog objects hand ledger)
    (hstore : hand.store? catalog ref = some store) (hopen : store.isFinished = false)
    (hr : catalog.Lists r.db) (kind : WriteKind) :
    Outcome catalog objects hand ledger (objects.written catalog.functions store.handle r kind)
      (ledger.writeRow catalog ref r kind) := by
  cases htakes : ledger.takes catalog r ref with
  | false =>
    obtain ⟨refusal, htarget⟩ := h.target_eq_error hstore hr hopen htakes
    rw [Objects.written_of_target_error htarget, Ledger.writeRow_of_takes htakes]
    exact ⟨rfl, h, (List.append_nil _).symm⟩
  | true =>
    have ht := h.taking hstore htakes
    rw [h.written_eq hr ht, Ledger.writeRow_eq htakes]
    rcases catalog.settle (ledger.view ref) r kind with ⟨refusal | ⟨key, record?⟩, notes⟩
    · exact ⟨rfl, h.noted _, rfl⟩
    · obtain ⟨objects', hwrite, hreflects⟩ := (h.noted _).write_eq_ok hr (ht.noted _) key record?
      dsimp only [Except.bind]
      rw [hwrite]
      exact ⟨rfl, hreflects, Ledger.journal_assign ..⟩

/-! ### Looking a row up -/

/-- What a lookup came to on the engine is what was entered for it; the row that was found is the
next in the hand. -/
inductive LookupOutcome (catalog : Catalog) (objects : Objects) (hand : Hand) (ledger : Ledger) :
    Except Refusal (Option Handle × Objects) → Answer × Ledger → Prop where
  | refused (refusal : Refusal) :
    LookupOutcome catalog objects hand ledger (.error refusal) (.refused, ledger)
  | missing : LookupOutcome catalog objects hand ledger (.ok (none, objects)) (.missing, ledger)
  | found {row : Handle} {objects' : Objects} {ledger' : Ledger}
    (reflects : Reflects catalog objects'
      { hand with rows := hand.rows.add ⟨catalog.env.handle, row⟩ } ledger')
    (journal : ledger'.journal = ledger.journal) :
    LookupOutcome catalog objects hand ledger (.ok (some row, objects')) (.done, ledger')

theorem Reflects.lookupRow (h : Reflects catalog objects hand ledger)
    (hstore : hand.store? catalog ref = some store) (hopen : store.isFinished = false)
    (hr : catalog.Lists r.db) (hfresh : objects.table.get? (objects.issued + 1) = none) :
    LookupOutcome catalog objects hand ledger (objects.lookupRow store.handle r)
      (ledger.lookupRow catalog ref r) := by
  obtain ⟨records, hdb, -⟩ := h.stores _ hr
  cases htakes : ledger.takes catalog r ref with
  | false =>
    obtain ⟨refusal, htarget⟩ := h.target_eq_error hstore hr hopen htakes
    rw [Objects.lookupRow_of_target_error htarget, Ledger.lookupRow_of_takes htakes]
    exact .refused refusal
  | true =>
    unfold Ledger.lookupRow
    have ht := h.taking hstore htakes
    rw [htakes, Objects.lookupRow_eq (h.target_eq_ok hr ht) hdb]
    have hsame : (catalog.stored r.db records).keyOf r = (catalog.layout r.db).keyOf r := rfl
    rw [hsame]
    cases (catalog.layout r.db).keyOf r with
    | error refusal => exact .refused refusal
    | ok key =>
      dsimp only [bind, Except.bind]
      rw [h.visible_eq hr ht key]
      cases ledger.view ref ⟨r.db, key⟩ with
      | none => exact .missing
      | some record => exact .found (h.addRow hfresh hr) rfl

/-! ### Commits -/

/-- Making the writes of a table one after the other puts it over the base. -/
theorem foldl_entries (writes : Table Place (Option Record)) (base : Base) :
    writes.entries.foldl (fun base e => Function.update base e.1 e.2) base =
      Overlay.over writes.get? base := by
  obtain ⟨entries, sorted⟩ := writes
  induction entries generalizing base with
  | nil => rfl
  | cons e rest ih =>
    rw [List.foldl_cons, ih _ (List.Pairwise.of_cons sorted)]
    funext place
    unfold Overlay.over
    by_cases hplace : place = e.1
    · subst hplace
      have hnone : (⟨rest, List.Pairwise.of_cons sorted⟩ : Table Place (Option Record)).get? e.1 =
          none := by
        refine Table.get?_eq_none_iff.2 fun a hmem => ?_
        have hlt : compare e.1 e.1 = .lt := (List.pairwise_cons.1 sorted).1 (e.1, a) hmem
        cases hlt.symm.trans Std.ReflCmp.compare_self
      have hsome : (⟨e :: rest, sorted⟩ : Table Place (Option Record)).get? e.1 = some e.2 :=
        Table.get?_eq_some_iff.2 List.mem_cons_self
      rw [hnone, hsome]
      exact Function.update_self ..
    · have hskip : (⟨e :: rest, sorted⟩ : Table Place (Option Record)).get? place =
          (⟨rest, List.Pairwise.of_cons sorted⟩ : Table Place (Option Record)).get? place := by
        apply Option.ext
        intro a
        rw [Table.get?_eq_some_iff, Table.get?_eq_some_iff]
        refine ⟨fun hmem => ?_, List.mem_cons_of_mem _⟩
        rcases List.mem_cons.1 hmem with heq | hmem
        · exact absurd (congrArg Prod.fst heq) hplace
        · exact hmem
      rw [hskip, Function.update_of_ne hplace]

namespace Reflects

theorem writeAll {writes : List (Place × Option Record)}
    (hlisted : ∀ e ∈ writes, catalog.Lists e.1.db) (h : Reflects catalog objects hand ledger) :
    ∃ objects', Objects.writeAll writes objects = (.ok (), objects') ∧
      Reflects catalog objects' hand { ledger with
        base := writes.foldl (fun base e => Function.update base e.1 e.2) ledger.base } := by
  induction writes generalizing objects ledger with
  | nil => exact ⟨objects, rfl, h⟩
  | cons e rest ih =>
    obtain ⟨middle, hwrite, hmiddle⟩ := h.writeThrough (hlisted e List.mem_cons_self) e.2
    obtain ⟨objects', hrest, hreflects⟩ :=
      ih (fun e' hmem => hlisted e' (List.mem_cons_of_mem _ hmem)) hmiddle
    refine ⟨objects', ?_, hreflects⟩
    unfold Objects.writeAll
    rw [hwrite]
    exact hrest

/-- A commit puts the overlay over the base and ends the transaction. -/
theorem commit (h : Reflects catalog objects hand ledger) {tx : Transaction} {overlay : Overlay}
    (hget : hand.txs.get? i = some tx) (ht : catalog.Pending objects tx overlay) :
    ∃ objects', objects.commit tx.handle = (.ok (), objects') ∧
      Reflects catalog objects' { hand with txs := hand.txs.put i { tx with finished := true } }
        { ledger with base := overlay.over ledger.base, drafts := ledger.drafts.put i .finished } := by
  obtain ⟨writes, hfound, rfl⟩ := ht.found
  have hlisted : ∀ e ∈ writes.entries, catalog.Lists e.1.db := fun e hmem =>
    ht.listed e.1 e.2 (Table.get?_eq_some_iff.2 hmem)
  obtain ⟨objects', hwrites, hreflects⟩ := (h.finishTx hget ht).writeAll hlisted
  rw [foldl_entries] at hreflects
  refine ⟨objects', ?_, hreflects⟩
  unfold Objects.commit
  rw [Objects.transaction_eq_ok.2 hfound]
  dsimp only [bind, Except.bind]
  rw [h.opened]
  exact hwrites

end Reflects
end RowStore.Client
