/-
# Errands

What a program does with rows of the databases of an environment, told with every failure: each row goes
to its own database, or all go through one transaction. A sheet has no engine: it has the record that the
program sees under every place, what is set in every row, and what the merge functions noted. The program
is told what the sheet says, whichever way its rows go.

Key definitions: `Client.Errand`, `Client.Errand.exec`, `Client.runErrands`, `Client.Sheet`,
`Client.Sheet.step`, `Client.Keeps`, `Client.Kept`.
Key theorems: `Client.Agrees.settled`, `Client.Agrees.sought`, `Client.Keeps.step`, `Client.Kept.run`.
-/
import RowStore.Proofs.Client.Transactions

namespace RowStore.Client

open Engine (Place Objects)

/-! ### Programs -/

/-- What a program does with its rows, which go by number. A write and a lookup take their row. -/
inductive Errand where
  | newRow (db : Database)
  | setField (i : Nat) (field : String) (value : Value)
  | getField (i : Nat) (field : String) (kind : ValueKind)
  | write (i : Nat) (kind : WriteKind)
  | lookup (i : Nat)

/-- What a program is told, failures included. -/
inductive Report where
  /-- There is no row of the number. -/
  | absent
  | done (result : Except Failure Unit)
  | value (value? : Option Value)
  /-- The fields of the row that was found. -/
  | found (result : Except Failure (List (Option Value)))
  deriving DecidableEq

/-- The rows of a program by number, and the database of each. -/
structure Desk where
  rows : Slots Row := {}
  owner : Nat → Database := fun _ => default

namespace Desk

/-- Adds a row of a database. -/
def add (desk : Desk) (db : Database) (row : Row) : Desk where
  rows := desk.rows.add row
  owner := Function.update desk.owner desk.rows.made db

/-- Takes the row of a number away. -/
def remove (desk : Desk) (i : Nat) : Desk := { desk with rows := desk.rows.remove i }

end Desk

/-- Where the rows of a database go: to the transaction, or without one to the database. -/
def Store.via (via? : Option Transaction) (db : Database) : Store :=
  via?.elim (.database db) .transaction

/-- Runs an errand. -/
def Errand.exec (via? : Option Transaction) (desk : Desk) : Errand → Client (Report × Desk)
  | .newRow db => do
    match ← db.newRow.run with
    | .ok row => return (.done (.ok ()), desk.add db row)
    | .error failure => return (.done (.error failure), desk)
  | .setField i field value =>
    match desk.rows.get? i with
    | none => return (.absent, desk)
    | some row => return (.done (← (row.set field value).run), desk)
  | .getField i field kind =>
    match desk.rows.get? i with
    | none => return (.absent, desk)
    | some row => return (.value (← row.get field kind), desk)
  | .write i kind =>
    match desk.rows.get? i with
    | none => return (.absent, desk)
    | some row =>
      return (.done (← ((Store.via via? (desk.owner i)).write row kind).run), desk.remove i)
  | .lookup i =>
    match desk.rows.get? i with
    | none => return (.absent, desk)
    | some key => do
      match ← ((Store.via via? (desk.owner i)).lookup key).run with
      | .ok row =>
        return (.found (.ok (← row.dump (desk.owner i).schema)),
          (desk.remove i).add (desk.owner i) row)
      | .error failure => return (.found (.error failure), desk.remove i)

/-- Runs errands one after the other. -/
def runErrands (via? : Option Transaction) : List Errand → Desk → Client (List Report × Desk)
  | [], desk => return ([], desk)
  | errand :: errands, desk => do
    let (report, desk) ← errand.exec via? desk
    let (reports, desk) ← runErrands via? errands desk
    return (report :: reports, desk)

/-! ### Sheets -/

/-- The row of the record under the key of a row, when it is given what is seen under every place. -/
def Catalog.seek (catalog : Catalog) (seen : Base) (r : Engine.Row) : Except Failure Engine.Row :=
  match (catalog.layout r.db).keyOf r with
  | .error refusal => .error (.engine "get" refusal.message)
  | .ok key =>
    match seen ⟨r.db, key⟩ with
    | none => .error .notFound
    | some record => .ok ((catalog.layout r.db).rowOf r.db record)

/-- What a program sees under every place, its rows and the database of each, and what the merge
functions noted. -/
structure Sheet where
  seen : Base
  rows : Slots Engine.Row
  owner : Nat → Database
  journal : List MergeRun

namespace Sheet

/-- Adds a row of a database. -/
def add (sheet : Sheet) (db : Database) (r : Engine.Row) : Sheet :=
  { sheet with
    rows := sheet.rows.add r
    owner := Function.update sheet.owner sheet.rows.made db }

/-- Takes the row of a number away. -/
def remove (sheet : Sheet) (i : Nat) : Sheet := { sheet with rows := sheet.rows.remove i }

/-- The fields of a row that are in a schema. -/
def dump (layout : Engine.Database) (r : Engine.Row) (schema : Schema) : List (Option Value) :=
  schema.fields.map fun field => fieldValue? layout r (SharedName.beforeNul field.name)
    (if field.type.isString then .str else .uint)

/-- Sets a field of a row. -/
def setField (catalog : Catalog) (sheet : Sheet) (i : Nat) (r : Engine.Row) (field : String)
    (value : Value) : Report × Sheet :=
  let name := SharedName.beforeNul field
  let made := cellOf (catalog.layout r.db) name value
  (.done (told "set field" made),
    match made with
    | .ok cell =>
      { sheet with rows := sheet.rows.put i { r with cells := r.cells.insert name cell } }
    | .error _ => sheet)

/-- Writes a row that was taken. -/
def write (catalog : Catalog) (sheet : Sheet) (r : Engine.Row) (kind : WriteKind) : Report × Sheet :=
  let (asked, notes) := catalog.settle sheet.seen r kind
  let sheet := { sheet with journal := sheet.journal ++ notes }
  (.done (told kind.operation asked),
    match asked with
    | .ok (key, record?) =>
      { sheet with seen := Function.update sheet.seen ⟨r.db, key⟩ record? }
    | .error _ => sheet)

/-- Looks up the record under the key of a row that was taken. -/
def lookup (catalog : Catalog) (sheet : Sheet) (db : Database) (r : Engine.Row) : Report × Sheet :=
  match catalog.seek sheet.seen r with
  | .error failure => (.found (.error failure), sheet)
  | .ok found => (.found (.ok (dump (catalog.layout r.db) found db.schema)), sheet.add db found)

/-- Runs an errand on the sheet. -/
def step (catalog : Catalog) (sheet : Sheet) : Errand → Report × Sheet
  | .newRow db => (.done (.ok ()), sheet.add db { db := db.handle })
  | .setField i field value =>
    match sheet.rows.get? i with
    | none => (.absent, sheet)
    | some r => sheet.setField catalog i r field value
  | .getField i field kind =>
    match sheet.rows.get? i with
    | none => (.absent, sheet)
    | some r =>
      (.value (fieldValue? (catalog.layout r.db) r (SharedName.beforeNul field) kind), sheet)
  | .write i kind =>
    match sheet.rows.get? i with
    | none => (.absent, sheet)
    | some r => (sheet.remove i).write catalog r kind
  | .lookup i =>
    match sheet.rows.get? i with
    | none => (.absent, sheet)
    | some r => (sheet.remove i).lookup catalog (sheet.owner i) r

/-- Runs errands on the sheet one after the other. -/
def run (catalog : Catalog) : List Errand → Sheet → List Report × Sheet
  | [], sheet => ([], sheet)
  | errand :: errands, sheet =>
    let (report, sheet) := sheet.step catalog errand
    let (reports, sheet) := run catalog errands sheet
    (report :: reports, sheet)

end Sheet

/-! ### Sheets and worlds -/

/-- The errand is about a database of the catalog, or reads no field under the key of the
diagnostic. -/
def Errand.Proper (catalog : Catalog) : Errand → Prop
  | .newRow db => db ∈ catalog.databases
  | .getField _ field _ => SharedName.beforeNul field ≠ Engine.diagnosticKey
  | _ => True

instance (catalog : Catalog) : DecidablePred (Errand.Proper catalog)
  | .newRow db => inferInstanceAs (Decidable (db ∈ catalog.databases))
  | .getField _ field _ =>
    inferInstanceAs (Decidable (SharedName.beforeNul field ≠ Engine.diagnosticKey))
  | .setField .. | .write .. | .lookup _ => .isTrue trivial

/-- No field of the databases is named as the key of the diagnostic. -/
def Catalog.WellNamed (catalog : Catalog) : Prop :=
  ∀ db ∈ catalog.databases, ∀ field ∈ db.schema.fields,
    SharedName.beforeNul field.name ≠ Engine.diagnosticKey

instance (catalog : Catalog) : Decidable catalog.WellNamed :=
  inferInstanceAs (Decidable (∀ db ∈ catalog.databases, ∀ field ∈ db.schema.fields,
    SharedName.beforeNul field.name ≠ Engine.diagnosticKey))

/-- The transactions of a program that has one, or none. -/
def txsOf (via? : Option Transaction) : Slots Transaction := via?.elim {} (Slots.add {})

/-- A program without a transaction sees the base, one with a transaction its overlay over it. -/
def Shows (base : Base) (drafts : Slots Draft) (seen : Base) : Option Transaction → Prop
  | none => base = seen
  | some _ => ∃ overlay, drafts.get? 0 = some (.pending overlay) ∧ overlay.over base = seen

/-- Every row is of the database that it is said to be of, one of the catalog. -/
def Sheet.Owned (catalog : Catalog) (sheet : Sheet) : Prop :=
  ∀ i r, sheet.rows.get? i = some r →
    sheet.owner i ∈ catalog.databases ∧ (sheet.owner i).handle = r.db

/-- The world is as the sheet has it, for the program with these rows. -/
structure Keeps (catalog : Catalog) (via? : Option Transaction) (world : World) (desk : Desk)
    (sheet : Sheet) (base : Base) (drafts : Slots Draft) : Prop where
  agrees : Agrees catalog world { rows := desk.rows, txs := txsOf via? }
    { base, rows := sheet.rows, drafts, journal := sheet.journal }
  owner : desk.owner = sheet.owner
  owned : sheet.Owned catalog
  seen : Shows base drafts sheet.seen via?

/-- There are records and overlays with which the world is as the sheet has it. -/
def Kept (catalog : Catalog) (via? : Option Transaction) (world : World) (desk : Desk)
    (sheet : Sheet) : Prop :=
  ∃ base drafts, Keeps catalog via? world desk sheet base drafts

/-- The program is told what the sheet says, and the world is as the sheet has it afterwards. -/
structure Reported (catalog : Catalog) (via? : Option Transaction)
    (result : (Report × Desk) × World) (entry : Report × Sheet) : Prop where
  report : result.1.1 = entry.1
  kept : Kept catalog via? result.2 result.1.2 entry.2

variable {catalog : Catalog} {via? : Option Transaction} {world world' : World} {desk desk' : Desk}
  {sheet sheet' : Sheet} {base : Base} {drafts : Slots Draft} {i : Nat} {r : Engine.Row}
  {hand : Hand} {ledger : Ledger} {row : Row}

/-! ### Reading -/

/-- Reading all fields of a row changes nothing. -/
theorem Agrees.dump (h : Agrees catalog world hand ledger) (hget : hand.rows.get? i = some row)
    (hline : ledger.rows.get? i = some r) {schema : Schema}
    (herror : ∀ field ∈ schema.fields, SharedName.beforeNul field.name ≠ Engine.diagnosticKey) :
    (row.dump schema world).1 = Sheet.dump (catalog.layout r.db) r schema ∧
      Agrees catalog (row.dump schema world).2 hand ledger := by
  unfold Row.dump Sheet.dump
  generalize schema.fields = fields at herror
  induction fields generalizing world with
  | nil => exact ⟨rfl, h⟩
  | cons field fields ih =>
    obtain ⟨r', hline', hlive⟩ := h.reflects.rows.of_some hget
    cases hline.symm.trans hline'
    obtain ⟨hvalue, hafter⟩ := h.read hlive (herror field List.mem_cons_self)
      (if field.type.isString then .str else .uint)
    obtain ⟨hvalues, hlast⟩ := ih hafter fun f hm => herror f (List.mem_cons_of_mem _ hm)
    rw [List.mapM_cons, List.map_cons, bind_apply, bind_apply, hvalue, hvalues]
    exact ⟨rfl, hlast⟩

/-! ### Rows -/

namespace Sheet.Owned

theorem add (h : sheet.Owned catalog) {db : Database} (hdb : db ∈ catalog.databases)
    (hown : db.handle = r.db) : (sheet.add db r).Owned catalog := by
  intro j r' hget
  show Function.update sheet.owner sheet.rows.made db j ∈ _ ∧
    (Function.update sheet.owner sheet.rows.made db j).handle = _
  rw [show (sheet.add db r).rows = sheet.rows.add r from rfl, Slots.get?_add] at hget
  by_cases hj : j = sheet.rows.made
  · rw [if_pos hj] at hget
    cases hget
    rw [hj, Function.update_self]
    exact ⟨hdb, hown⟩
  · rw [if_neg hj] at hget
    rw [Function.update_of_ne hj]
    exact h j r' hget

theorem remove (h : sheet.Owned catalog) (i : Nat) : (sheet.remove i).Owned catalog := by
  intro j r' hget
  rw [show (sheet.remove i).rows = sheet.rows.remove i from rfl, Slots.get?_remove] at hget
  split at hget
  · cases hget
  · exact h j r' hget

theorem put (h : sheet.Owned catalog) (hget : sheet.rows.get? i = some r) {r' : Engine.Row}
    (hdb : r'.db = r.db) : { sheet with rows := sheet.rows.put i r' }.Owned catalog := by
  intro j r'' hput
  rw [Slots.get?_put] at hput
  split at hput
  · next hj =>
    cases hput
    rw [hdb, hj]
    exact h i r hget
  · exact h j r'' hput

end Sheet.Owned

namespace Keeps

/-- A row that is added is the next on the sheet. -/
theorem owner_add (hmade : desk.rows.made = sheet.rows.made) (howner : desk.owner = sheet.owner)
    (db : Database) (row : Row) (r : Engine.Row) :
    (desk.add db row).owner = (sheet.add db r).owner := by
  show Function.update desk.owner desk.rows.made db = Function.update sheet.owner sheet.rows.made db
  rw [howner, hmade]

theorem newRow (h : Keeps catalog via? world desk sheet base drafts) {db : Database}
    (hdb : db ∈ catalog.databases) :
    Reported catalog via? ((Errand.newRow db).exec via? desk world)
      (sheet.step catalog (.newRow db)) := by
  obtain ⟨row, after, happly, hafter⟩ := h.agrees.made hdb
  unfold Errand.exec
  dsimp only
  rw [bind_apply, show db.newRow.run world = _ from happly]
  exact ⟨rfl, base, drafts, hafter, owner_add h.agrees.reflects.rows.made h.owner ..,
    h.owned.add hdb rfl, h.seen⟩

theorem setField (h : Keeps catalog via? world desk sheet base drafts) (i : Nat) (field : String)
    (value : Value) :
    Reported catalog via? ((Errand.setField i field value).exec via? desk world)
      (sheet.step catalog (.setField i field value)) := by
  unfold Errand.exec Sheet.step
  rcases h.agrees.reflects.rows.elim i with ⟨hs, ht⟩ | ⟨row, r, hs, ht, hlive⟩
  · dsimp only at hs ht ⊢
    rw [hs, ht]
    exact ⟨rfl, base, drafts, h⟩
  · obtain ⟨hanswer, hafter⟩ := h.agrees.filled hs hlive field value
    dsimp only at hs ht ⊢
    rw [hs, ht]
    dsimp only
    rw [bind_apply, show ((row.set field value).run world).1 = _ from hanswer]
    refine ⟨rfl, base, drafts, ?_⟩
    unfold Sheet.setField
    dsimp only
    cases hmade : cellOf (catalog.layout r.db) (SharedName.beforeNul field) value with
    | error refusal =>
      rw [hmade] at hafter
      exact ⟨hafter, h.owner, h.owned, h.seen⟩
    | ok cell =>
      rw [hmade] at hafter
      exact ⟨hafter, h.owner, h.owned.put ht rfl, h.seen⟩

theorem getField (h : Keeps catalog via? world desk sheet base drafts) (i : Nat) {field : String}
    (herror : SharedName.beforeNul field ≠ Engine.diagnosticKey) (kind : ValueKind) :
    Reported catalog via? ((Errand.getField i field kind).exec via? desk world)
      (sheet.step catalog (.getField i field kind)) := by
  unfold Errand.exec Sheet.step
  rcases h.agrees.reflects.rows.elim i with ⟨hs, ht⟩ | ⟨row, r, hs, ht, hlive⟩
  · dsimp only at hs ht ⊢
    rw [hs, ht]
    exact ⟨rfl, base, drafts, h⟩
  · obtain ⟨hvalue, hafter⟩ := h.agrees.read hlive herror kind
    dsimp only at hs ht ⊢
    rw [hs, ht]
    exact ⟨congrArg Report.value hvalue, base, drafts, hafter, h.owner, h.owned, h.seen⟩

end Keeps

/-! ### Stores that take rows -/

theorem Catalog.db_of_seek {seen : Base} {r' : Engine.Row} (h : catalog.seek seen r = .ok r') :
    r'.db = r.db := by
  unfold Catalog.seek at h
  split at h
  · cases h
  · split at h <;> cases h
    rfl

/-- The program is told what a write of a row of a database asks for, which is entered. -/
inductive Settled (catalog : Catalog) (hand : Hand) (ledger : Ledger) (ref : StoreRef) (d : Handle)
    (operation : String) :
    Except Failure Unit × World → Except Refusal (Key × Option Record) × List MergeRun → Prop where
  | refused {world : World} (refusal : Refusal) (notes : List MergeRun)
    (agrees : Agrees catalog world hand { ledger with journal := ledger.journal ++ notes }) :
    Settled catalog hand ledger ref d operation
      (.error (.engine operation refusal.message), world) (.error refusal, notes)
  | done {world : World} (key : Key) (record? : Option Record) (notes : List MergeRun)
    (agrees : Agrees catalog world hand
      ({ ledger with journal := ledger.journal ++ notes }.assign ⟨d, key⟩ record? ref)) :
    Settled catalog hand ledger ref d operation (.ok (), world) (.ok (key, record?), notes)

/-- The program is told what is under a key; a row that is found is the next. -/
inductive Sought (catalog : Catalog) (hand : Hand) (ledger : Ledger) :
    Except Failure Row × World → Except Failure Engine.Row → Prop where
  | missed {world : World} (failure : Failure) (agrees : Agrees catalog world hand ledger) :
    Sought catalog hand ledger (.error failure, world) (.error failure)
  | found {world : World} (row : Row) (r : Engine.Row)
    (agrees : Agrees catalog world { hand with rows := hand.rows.add row }
      { ledger with rows := ledger.rows.add r }) :
    Sought catalog hand ledger (.ok row, world) (.ok r)

namespace Agrees

variable {hand' : Hand} {ledger' : Ledger} {ref : StoreRef} {store : Store}

/-- A write of a row through a store that takes it. -/
theorem settled (h : Agrees catalog world hand ledger)
    (hlive : catalog.RowLive world.engine.objects row r)
    (hreflects : Reflects catalog (world.engine.objects.remove row.handle) hand' ledger')
    (hjournal : ledger.journal = ledger'.journal)
    (ht : Taking catalog (world.engine.objects.remove row.handle) hand' ledger' r ref store)
    (kind : WriteKind) :
    Settled catalog hand' ledger' ref r.db kind.operation (store.write row kind world)
      (catalog.settle (ledger'.view ref) r kind) := by
  have hserves : world.Serves store.env := ht.env hreflects ▸ h.serves
  have hwritten := hreflects.written_eq hlive.listed ht kind
  rw [← h.functions] at hwritten
  have hstep : world.engine.step world.mergeFunctions (kind.action store.handle row.handle) = _ :=
    Engine.step_write world.mergeFunctions hlive.found kind
  rw [hwritten] at hstep
  have hanswer := (congrArg Prod.fst (Store.write_apply hserves ht.isFinished row kind)).trans
    (orRefused_of_attemptFlag hserves.faultFree _ _ hstep)
  have hengine := (Store.write_of_open hserves ht.isFinished row kind).2
  rw [hstep] at hengine
  have hfollows : world.Follows (store.write row kind world).2 :=
    (Store.plain_write store row kind).tame world
  generalize store.write row kind world = result at hanswer hengine hfollows
  obtain ⟨answer, after⟩ := result
  generalize catalog.settle (ledger'.view ref) r kind = asked at hanswer hengine
  obtain ⟨result, notes⟩ := asked
  have hnoted := congrArg (· ++ notes) (h.journal.trans hjournal)
  obtain refusal | ⟨key, record?⟩ := result
  · cases hanswer
    exact .refused refusal notes (h.of_engine hfollows hengine (hreflects.noted _) hnoted)
  · obtain ⟨objects', hwrite, hreflects'⟩ :=
      (hreflects.noted (ledger'.journal ++ notes)).write_eq_ok hlive.listed (ht.noted _) key record?
    dsimp only [Except.bind] at hanswer hengine
    rw [hwrite] at hanswer hengine
    cases hanswer
    exact .done key record? notes (h.of_engine hfollows hengine hreflects'
      (hnoted.trans (Ledger.journal_assign { ledger' with journal := ledger'.journal ++ notes } ..).symm))

/-- A lookup of a row through a store that takes it. -/
theorem sought (h : Agrees catalog world hand ledger)
    (hlive : catalog.RowLive world.engine.objects row r)
    (hreflects : Reflects catalog (world.engine.objects.remove row.handle) hand' ledger')
    (hjournal : ledger.journal = ledger'.journal)
    (ht : Taking catalog (world.engine.objects.remove row.handle) hand' ledger' r ref store) :
    Sought catalog hand' ledger' (store.lookup row world) (catalog.seek (ledger'.view ref) r) := by
  have henv := ht.env hreflects
  obtain ⟨records, hstored, -⟩ := hreflects.stores _ hlive.listed
  have hkey : (catalog.stored r.db records).keyOf r = (catalog.layout r.db).keyOf r := rfl
  obtain ⟨hanswer, hengine⟩ := Store.lookup_of_open (henv ▸ h.serves) ht.isFinished row
  rw [Engine.lookup_eq hlive.found,
    Objects.lookupRow_eq (hreflects.target_eq_ok hlive.listed ht) hstored, hkey] at hanswer hengine
  have hfollows : world.Follows (store.lookup row world).2 :=
    (Store.plain_lookup store row).tame world
  generalize store.lookup row world = result at hanswer hengine hfollows
  obtain ⟨answer, after⟩ := result
  unfold Catalog.seek
  cases hasked : (catalog.layout r.db).keyOf r with
  | error refusal =>
    rw [hasked] at hanswer hengine
    cases hanswer
    exact .missed _ (h.of_engine hfollows hengine hreflects (h.journal.trans hjournal))
  | ok key =>
    rw [hasked] at hanswer hengine
    dsimp only [bind, Except.bind] at hanswer hengine ⊢
    rw [hreflects.visible_eq hlive.listed ht key] at hanswer hengine
    cases hrecord : ledger'.view ref ⟨r.db, key⟩ with
    | none =>
      rw [hrecord] at hanswer hengine
      cases hanswer
      exact .missed _ (h.of_engine hfollows hengine hreflects (h.journal.trans hjournal))
    | some record =>
      rw [hrecord] at hanswer hengine
      have hfresh : (world.engine.objects.remove row.handle).table.get?
          (world.engine.objects.issued + 1) = none := by
        rw [Objects.get?_remove, h.fresh, ite_self]
      have hadded := hreflects.addRow hfresh
        (r := (catalog.layout r.db).rowOf r.db record) hlive.listed
      cases hanswer.trans (congrArg (fun env => Except.ok (⟨env, _⟩ : Row)) henv)
      exact .found _ _ (h.of_engine hfollows hengine hadded (h.journal.trans hjournal))

end Agrees

/-! ### Where rows go -/

/-- A write into an overlay is seen as a write. -/
theorem Overlay.over_update (overlay : Overlay) (base : Base) (place : Place)
    (record? : Option Record) :
    Overlay.over (Function.update overlay place (some record?)) base =
      Function.update (overlay.over base) place record? := by
  funext place'
  unfold Overlay.over
  by_cases hplace : place' = place
  · rw [hplace, Function.update_self, Function.update_self]
    rfl
  · rw [Function.update_of_ne hplace, Function.update_of_ne hplace]

/-- The rows of a database go to a store that takes them, which shows what the program sees; and what
is written there is seen. -/
theorem Shows.route {objects : Objects} {rows : Slots Row} {lines : Slots Engine.Row} {seen : Base}
    {journal : List MergeRun} (hs : Shows base drafts seen via?)
    (h : Reflects catalog objects { rows, txs := txsOf via? }
      { base, rows := lines, drafts, journal })
    {db : Database} (hdb : db ∈ catalog.databases) (hown : db.handle = r.db) :
    ∃ ref, Taking catalog objects { rows, txs := txsOf via? }
        { base, rows := lines, drafts, journal } r ref (Store.via via? db) ∧
      Ledger.view { base, rows := lines, drafts, journal } ref = seen ∧
      ∀ (journal : List MergeRun) (place : Place) (record? : Option Record), ∃ base' drafts',
        Ledger.assign { base, rows := lines, drafts, journal } place record? ref =
          { base := base', rows := lines, drafts := drafts', journal } ∧
        Shows base' drafts' (Function.update seen place record?) via? := by
  cases via? with
  | none =>
    obtain ⟨i, listed⟩ := List.getElem?_of_mem hdb
    refine ⟨.database i, .database listed hown, hs, fun journal place record? =>
      ⟨Function.update base place record?, drafts, rfl, ?_⟩⟩
    exact congrArg (Function.update · place record?) hs
  | some tx =>
    obtain ⟨overlay, hdraft, hover⟩ := hs
    have hstore : Hand.store? catalog { rows, txs := txsOf (some tx) } (.transaction 0) =
      some (Store.via (some tx) db) := rfl
    refine ⟨.transaction 0, h.taking hstore (Ledger.takes_of_pending hdraft catalog r),
      (Ledger.view_of_pending hdraft).trans hover, fun journal place record? =>
        ⟨base, _, Ledger.assign_of_pending hdraft place record?,
          Function.update overlay place (some record?), ?_, ?_⟩⟩
    · rw [Slots.get?_put, if_pos rfl]
    · rw [Overlay.over_update, hover]

namespace Keeps

theorem write (h : Keeps catalog via? world desk sheet base drafts) (i : Nat) (kind : WriteKind) :
    Reported catalog via? ((Errand.write i kind).exec via? desk world)
      (sheet.step catalog (.write i kind)) := by
  unfold Errand.exec Sheet.step
  rcases h.agrees.reflects.rows.elim i with ⟨hs, ht⟩ | ⟨row, r, hs, ht, hlive⟩
  · dsimp only at hs ht ⊢
    rw [hs, ht]
    exact ⟨rfl, base, drafts, h⟩
  · have hreflects := h.agrees.reflects.removeRow hs hlive
    dsimp only at hs ht ⊢
    rw [hs, ht, h.owner]
    obtain ⟨hdb, hown⟩ := h.owned i r ht
    obtain ⟨ref, htaking, hview, hassign⟩ := h.seen.route hreflects hdb hown
    generalize Store.via via? (sheet.owner i) = store at htaking
    have hsettled := h.agrees.settled hlive hreflects rfl htaking kind
    rw [hview] at hsettled
    dsimp only
    rw [bind_apply, show (store.write row kind).run world = store.write row kind world from rfl]
    unfold Sheet.write
    rw [show (sheet.remove i).seen = sheet.seen from rfl]
    generalize store.write row kind world = result at hsettled
    generalize catalog.settle sheet.seen r kind = asked at hsettled
    cases hsettled with
    | refused refusal notes hagrees =>
      exact ⟨rfl, base, drafts, hagrees, h.owner, h.owned.remove i, h.seen⟩
    | done key record? notes hagrees =>
      obtain ⟨base', drafts', hassigned, hseen⟩ :=
        hassign (sheet.journal ++ notes) ⟨r.db, key⟩ record?
      rw [hassigned] at hagrees
      exact ⟨rfl, base', drafts', hagrees, h.owner, h.owned.remove i, hseen⟩

/-- A record that was found is the next row, and all its fields are read. -/
theorem of_found (desk : Desk) (sheet : Sheet) {db : Database} (hdb : db ∈ catalog.databases)
    (hown : db.handle = r.db) (hnamed : catalog.WellNamed) (howner : desk.owner = sheet.owner)
    (howned : sheet.Owned catalog) (hseen : Shows base drafts sheet.seen via?)
    (hfound : Agrees catalog world { rows := desk.rows.add row, txs := txsOf via? }
      { base, rows := sheet.rows.add r, drafts, journal := sheet.journal }) :
    (row.dump db.schema world).1 = Sheet.dump (catalog.layout r.db) r db.schema ∧
      Keeps catalog via? (row.dump db.schema world).2 (desk.add db row) (sheet.add db r) base
        drafts := by
  have hmade : desk.rows.made = sheet.rows.made := Nat.succ.inj hfound.reflects.rows.made
  have hget : (desk.rows.add row).get? desk.rows.made = some row := by
    rw [Slots.get?_add, if_pos rfl]
  have hline : (sheet.rows.add r).get? desk.rows.made = some r := by
    rw [Slots.get?_add, if_pos hmade]
  obtain ⟨hvalues, hafter⟩ := hfound.dump hget hline (hnamed db hdb)
  exact ⟨hvalues, hafter, owner_add hmade howner .., howned.add hdb hown, hseen⟩

theorem lookup (h : Keeps catalog via? world desk sheet base drafts) (hnamed : catalog.WellNamed)
    (i : Nat) :
    Reported catalog via? ((Errand.lookup i).exec via? desk world)
      (sheet.step catalog (.lookup i)) := by
  unfold Errand.exec Sheet.step
  rcases h.agrees.reflects.rows.elim i with ⟨hs, ht⟩ | ⟨row, r, hs, ht, hlive⟩
  · dsimp only at hs ht ⊢
    rw [hs, ht]
    exact ⟨rfl, base, drafts, h⟩
  · have hreflects := h.agrees.reflects.removeRow hs hlive
    dsimp only at hs ht ⊢
    rw [hs, ht, h.owner]
    obtain ⟨hdb, hown⟩ := h.owned i r ht
    obtain ⟨ref, htaking, hview, -⟩ := h.seen.route hreflects hdb hown
    generalize sheet.owner i = db at hdb hown htaking
    generalize Store.via via? db = store at htaking
    have hsought := h.agrees.sought hlive hreflects rfl htaking
    rw [hview] at hsought
    dsimp only
    rw [bind_apply, show (store.lookup row).run world = store.lookup row world from rfl]
    unfold Sheet.lookup
    rw [show (sheet.remove i).seen = sheet.seen from rfl]
    generalize store.lookup row world = result at hsought
    generalize hasked : catalog.seek sheet.seen r = asked at hsought
    cases hsought with
    | missed failure hagrees =>
      exact ⟨rfl, base, drafts, hagrees, h.owner, h.owned.remove i, h.seen⟩
    | found row' r' hagrees =>
      have hsame : r'.db = r.db := Catalog.db_of_seek hasked
      obtain ⟨hvalues, hkeeps⟩ := of_found (desk.remove i) (sheet.remove i) hdb
        (hown.trans hsame.symm) hnamed h.owner (h.owned.remove i) h.seen hagrees
      rw [hsame] at hvalues
      exact ⟨congrArg (fun values => Report.found (.ok values)) hvalues, base, drafts, hkeeps⟩

/-- Every errand is reported as the sheet says. -/
theorem step (h : Keeps catalog via? world desk sheet base drafts) (hnamed : catalog.WellNamed)
    {errand : Errand} (hproper : errand.Proper catalog) :
    Reported catalog via? (errand.exec via? desk world) (sheet.step catalog errand) := by
  cases errand with
  | newRow db => exact h.newRow hproper
  | setField i field value => exact h.setField i field value
  | getField i field kind => exact h.getField i hproper kind
  | write i kind => exact h.write i kind
  | lookup i => exact h.lookup hnamed i

end Keeps

/-- Every program is told what the sheet says, whichever way its rows go. -/
theorem Kept.run {errands : List Errand} (h : Kept catalog via? world desk sheet)
    (hnamed : catalog.WellNamed) (herrands : ∀ errand ∈ errands, errand.Proper catalog) :
    (runErrands via? errands desk world).1.1 = (sheet.run catalog errands).1 ∧
      Kept catalog via? (runErrands via? errands desk world).2
        (runErrands via? errands desk world).1.2 (sheet.run catalog errands).2 := by
  induction errands generalizing world desk sheet with
  | nil => exact ⟨rfl, h⟩
  | cons errand errands ih =>
    obtain ⟨base, drafts, hkeeps⟩ := h
    obtain ⟨hreport, hkept⟩ := hkeeps.step hnamed (herrands errand List.mem_cons_self)
    obtain ⟨hreports, hkept'⟩ := ih hkept fun e hmem => herrands e (List.mem_cons_of_mem _ hmem)
    exact ⟨congrArg₂ List.cons hreport hreports, hkept'⟩

end RowStore.Client
