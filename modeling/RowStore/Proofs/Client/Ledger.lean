/-
# Databases as maps, transactions as overlays

What a program does to the databases and the transactions of one environment, twice: carried out by
the operations of the client layer, and written into a ledger that has no engine. The ledger has the
record under every place, for every transaction the puts and deletions that it would make, and what
is set in every row that the program has. Rows and transactions are numbered in the order the
program got them; a number whose row or transaction is gone stands for nothing.

Key definitions: `Client.Op`, `Client.Op.exec`, `Client.Ledger`, `Client.Ledger.step`,
`Client.runAll`, `Client.Ledger.runAll`.
-/
import Mathlib.Logic.Function.Basic
import RowStore.Client.Environment

namespace RowStore.Client

open Engine (Place Hook)

/-! ### Numbered things -/

/-- Things numbered in the order they came, those that are still there. -/
structure Slots (α : Type) where
  made : Nat := 0
  held : Table Nat α := {}

namespace Slots

variable {α : Type}

/-- The thing of a number, if it is there. -/
def get? (slots : Slots α) (i : Nat) : Option α := slots.held.get? i

/-- Adds a thing under the next number. -/
def add (slots : Slots α) (a : α) : Slots α where
  made := slots.made + 1
  held := slots.held.insert slots.made a

/-- Replaces the thing of a number. -/
def put (slots : Slots α) (i : Nat) (a : α) : Slots α :=
  { slots with held := slots.held.insert i a }

/-- Takes the thing of a number away. -/
def remove (slots : Slots α) (i : Nat) : Slots α := { slots with held := slots.held.erase i }

@[simp] theorem get?_add (slots : Slots α) (a : α) (j : Nat) :
    (slots.add a).get? j = if j = slots.made then some a else slots.get? j :=
  Table.get?_insert ..

@[simp] theorem get?_put (slots : Slots α) (i j : Nat) (a : α) :
    (slots.put i a).get? j = if j = i then some a else slots.get? j :=
  Table.get?_insert ..

@[simp] theorem get?_remove (slots : Slots α) (i j : Nat) :
    (slots.remove i).get? j = if j = i then none else slots.get? j :=
  Table.get?_erase ..

end Slots

/-! ### Programs -/

/-- An opened environment, the databases that a program uses, how each is laid out, and the merge
functions. -/
structure Catalog where
  env : Environment
  databases : List Database
  layout : Handle → Engine.Database
  functions : Hook → MergeFn

/-- A store by its number: one of the databases of the catalog, or one of the transactions. -/
inductive StoreRef where
  | database (i : Nat)
  | transaction (i : Nat)
  deriving DecidableEq, Repr

/-- What a program asks for. Rows, databases and transactions go by number. -/
inductive Op where
  | newRow (database : Nat)
  | setField (row : Nat) (field : String) (value : Value)
  | getField (row : Nat) (field : String) (kind : ValueKind)
  | write (store : StoreRef) (row : Nat) (kind : WriteKind)
  | lookup (store : StoreRef) (row : Nat)
  | begin
  | commit (tx : Nat)
  | rollback (tx : Nat)
  /-- Lets go of a transaction. -/
  | drop (tx : Nat)

/-- The operation reads no field under the key of the diagnostic. -/
def Op.Proper : Op → Prop
  | .getField _ field _ => SharedName.beforeNul field ≠ Engine.diagnosticKey
  | _ => True

instance : DecidablePred Op.Proper
  | .getField _ field _ =>
    inferInstanceAs (Decidable (SharedName.beforeNul field ≠ Engine.diagnosticKey))
  | .newRow _ | .setField .. | .write .. | .lookup .. | .begin | .commit _ | .rollback _ | .drop _ =>
    .isTrue trivial

/-- What a program is told. -/
inductive Answer where
  /-- There is nothing of the number. -/
  | absent
  | done
  | refused
  /-- No record is under the key. -/
  | missing
  | committed (status : CommitStatus)
  | value (value? : Option Value)
  deriving DecidableEq

/-- What an operation that returns nothing is answered with. -/
def Answer.ofFlag (succeeded : Bool) : Answer := if succeeded then .done else .refused

/-- The rows and the transactions that a program has. -/
structure Hand where
  rows : Slots Row := {}
  txs : Slots Transaction := {}

namespace Hand

/-- The store of a number. -/
def store? (catalog : Catalog) (hand : Hand) : StoreRef → Option Store
  | .database i => catalog.databases[i]?.map .database
  | .transaction i => (hand.txs.get? i).map .transaction

/-- The stores have nothing to do with the rows. -/
theorem store?_of_rows (catalog : Catalog) (hand : Hand) (rows : Slots Row) (ref : StoreRef) :
    { hand with rows }.store? catalog ref = hand.store? catalog ref := by
  cases ref <;> rfl

/-- Makes a row of a database. -/
def newRow (catalog : Catalog) (hand : Hand) (i : Nat) : Client (Answer × Hand) :=
  match catalog.databases[i]? with
  | none => return (.absent, hand)
  | some db => do
    match ← db.newRow.run with
    | .ok row => return (.done, { hand with rows := hand.rows.add row })
    | .error _ => return (.refused, hand)

/-- Sets a field of a row. -/
def setField (hand : Hand) (i : Nat) (field : String) (value : Value) : Client (Answer × Hand) :=
  match hand.rows.get? i with
  | none => return (.absent, hand)
  | some row => return (.ofFlag (← (row.set field value).run).isOk, hand)

/-- Reads a field of a row. -/
def getField (hand : Hand) (i : Nat) (field : String) (kind : ValueKind) :
    Client (Answer × Hand) :=
  match hand.rows.get? i with
  | none => return (.absent, hand)
  | some row => return (.value (← row.get field kind), hand)

/-- Writes a row, which is then the store's. -/
def write (catalog : Catalog) (hand : Hand) (ref : StoreRef) (i : Nat) (kind : WriteKind) :
    Client (Answer × Hand) :=
  match hand.store? catalog ref, hand.rows.get? i with
  | some store, some row => return (.ofFlag (← (store.write row kind).run).isOk,
      { hand with rows := hand.rows.remove i })
  | _, _ => return (.absent, hand)

/-- Looks up the record under the key of a row, which is then the store's. -/
def lookup (catalog : Catalog) (hand : Hand) (ref : StoreRef) (i : Nat) :
    Client (Answer × Hand) :=
  match hand.store? catalog ref, hand.rows.get? i with
  | some store, some key => do
    match ← (store.lookup key).run with
    | .ok row => return (.done, { hand with rows := (hand.rows.remove i).add row })
    | .error .notFound => return (.missing, { hand with rows := hand.rows.remove i })
    | .error _ => return (.refused, { hand with rows := hand.rows.remove i })
  | _, _ => return (.absent, hand)

/-- Begins a transaction. -/
def begin (catalog : Catalog) (hand : Hand) : Client (Answer × Hand) := do
  match ← catalog.env.begin.run with
  | .ok tx => return (.done, { hand with txs := hand.txs.add tx })
  | .error _ => return (.refused, hand)

/-- Commits a transaction. -/
def commit (hand : Hand) (i : Nat) : Client (Answer × Hand) :=
  match hand.txs.get? i with
  | none => return (.absent, hand)
  | some tx => do
    let (status, tx) ← tx.commit
    return (.committed status, { hand with txs := hand.txs.put i tx })

/-- Rolls a transaction back, which is then gone. -/
def rollback (hand : Hand) (i : Nat) : Client (Answer × Hand) :=
  match hand.txs.get? i with
  | none => return (.absent, hand)
  | some tx => return (.ofFlag (← tx.rollback.run).isOk, { hand with txs := hand.txs.remove i })

/-- Lets go of a transaction. -/
def drop (hand : Hand) (i : Nat) : Client (Answer × Hand) :=
  match hand.txs.get? i with
  | none => return (.absent, hand)
  | some tx => do
    tx.release
    return (.done, { hand with txs := hand.txs.remove i })

end Hand

/-- Carries out an operation. -/
def Op.exec (catalog : Catalog) (hand : Hand) : Op → Client (Answer × Hand)
  | .newRow i => hand.newRow catalog i
  | .setField i field value => hand.setField i field value
  | .getField i field kind => hand.getField i field kind
  | .write ref i kind => hand.write catalog ref i kind
  | .lookup ref i => hand.lookup catalog ref i
  | .begin => hand.begin catalog
  | .commit i => hand.commit i
  | .rollback i => hand.rollback i
  | .drop i => hand.drop i

/-- Carries out operations one after the other. -/
def runAll (catalog : Catalog) : List Op → Hand → Client (List Answer × Hand)
  | [], hand => return ([], hand)
  | op :: ops, hand => do
    let (answer, hand) ← op.exec catalog hand
    let (answers, hand) ← runAll catalog ops hand
    return (answer :: answers, hand)

/-! ### The ledger -/

/-- The record under every place. -/
abbrev Base := Place → Option Record

/-- For a place a record to put, a deletion or nothing. -/
abbrev Overlay := Place → Option (Option Record)

/-- What is under a place once an overlay is put over a base. -/
def Overlay.over (overlay : Overlay) (base : Base) : Base :=
  fun place => (overlay place).getD (base place)

/-- What the ledger has for a transaction. -/
inductive Draft where
  | pending (overlay : Overlay)
  | finished

/-- The records, the rows and the transactions of a program, and what the merge functions noted. -/
structure Ledger where
  base : Base
  rows : Slots Engine.Row := {}
  drafts : Slots Draft := {}
  journal : List MergeRun := []

/-- The cell that a word makes in a field. A pseudo-field and a string take no words. -/
def wordCell? (layout : Engine.Database) (name : String) (w : UInt64) : Option Cell :=
  if Engine.isPseudoField name then none
  else (layout.field name).toOption.bind fun field =>
    if field.type.isString then none else some (.word (field.type.truncate w))

/-- The cell that bytes make in a field. -/
def bytesCell? (layout : Engine.Database) (name : String) (bytes : Bytes) : Option Cell :=
  if Engine.isPseudoField name then some (.bytes bytes)
  else (layout.field name).toOption.bind fun field => Cell.decode? field.type bytes

/-- The cell that a value makes in a field. -/
def cell? (layout : Engine.Database) (name : String) : Value → Option Cell
  | .int v => wordCell? layout name v.toUInt64
  | .uint v => wordCell? layout name v
  | .str bytes => bytesCell? layout name bytes

/-- What a field of a row reads as. -/
def fieldValue? (layout : Engine.Database) (r : Engine.Row) (name : String) :
    ValueKind → Option Value
  | .int => (Engine.Objects.getWord.word? (r.cells.get? name)).map fun w => .int w.toInt64
  | .uint => (Engine.Objects.getWord.word? (r.cells.get? name)).map .uint
  | .str => (r.cells.get? name).map fun cell =>
    .str (cell.encode ((layout.field name).toOption.elim .string (·.type)))

/-- The record that a merge function made, unless it rejected the merge or left images that stand
for no record. -/
def accepted? (layout : Engine.Database) (reply : MergeReply) : Option Record :=
  match reply.rejection with
  | some _ => none
  | none => (layout.decode reply.result).toOption

/-- What a write leaves under the key of a row, a record or none, unless it is refused; and what
the merge function noted. A merge function is given the image of the record that is there. -/
def Catalog.written (catalog : Catalog) (existing : Option Record) (r : Engine.Row) :
    WriteKind → Option (Option Record) × List MergeRun
  | .put => (some (some ((catalog.layout r.db).recordOf r)), [])
  | .delete => (some none, [])
  | .upsert =>
    match (catalog.layout r.db).hook? with
    | none => (none, [])
    | some hook =>
      let layout := catalog.layout r.db
      let incoming := layout.encode (layout.recordOf r)
      let reply := (catalog.functions hook).run (existing.map layout.encode) incoming incoming
      ((accepted? layout reply).map some, reply.journal)

namespace Ledger

/-- Whether there is a store of a number. -/
def has (catalog : Catalog) (ledger : Ledger) : StoreRef → Bool
  | .database i => catalog.databases[i]?.isSome
  | .transaction i => (ledger.drafts.get? i).isSome

/-- Whether a store takes a row: a database its own, a transaction all while it is not finished. -/
def takes (catalog : Catalog) (ledger : Ledger) (r : Engine.Row) : StoreRef → Bool
  | .database i => catalog.databases[i]?.any (·.handle == r.db)
  | .transaction i =>
    match ledger.drafts.get? i with
    | some (.pending _) => true
    | _ => false

/-- What a reader of a store sees: a database its records, a transaction its overlay over them. -/
def view (ledger : Ledger) : StoreRef → Base
  | .database _ => ledger.base
  | .transaction i =>
    match ledger.drafts.get? i with
    | some (.pending overlay) => overlay.over ledger.base
    | _ => ledger.base

/-- Makes a write: through a database in the base, through a transaction in its overlay. -/
def assign (ledger : Ledger) (place : Place) (record? : Option Record) : StoreRef → Ledger
  | .database _ => { ledger with base := Function.update ledger.base place record? }
  | .transaction i =>
    match ledger.drafts.get? i with
    | some (.pending overlay) =>
      { ledger with
        drafts := ledger.drafts.put i (.pending (Function.update overlay place (some record?))) }
    | _ => ledger

theorem takes_database {catalog : Catalog} {i : Nat} {db : Database}
    (listed : catalog.databases[i]? = some db) (ledger : Ledger) (r : Engine.Row) :
    ledger.takes catalog r (.database i) = (db.handle == r.db) := by
  unfold takes
  dsimp only
  rw [listed]
  rfl

section Pending

variable {ledger : Ledger} {i : Nat} {overlay : Overlay}
  (draft : ledger.drafts.get? i = some (.pending overlay))

include draft

theorem takes_of_pending (catalog : Catalog) (r : Engine.Row) :
    ledger.takes catalog r (.transaction i) = true := by
  unfold takes
  dsimp only
  rw [draft]

theorem view_of_pending : ledger.view (.transaction i) = overlay.over ledger.base := by
  unfold view
  dsimp only
  rw [draft]

theorem assign_of_pending (place : Place) (record? : Option Record) :
    ledger.assign place record? (.transaction i) =
      { ledger with
        drafts := ledger.drafts.put i (.pending (Function.update overlay place (some record?))) } := by
  unfold assign
  dsimp only
  rw [draft]

end Pending

theorem journal_assign (ledger : Ledger) (place : Place) (record? : Option Record)
    (ref : StoreRef) : (ledger.assign place record? ref).journal = ledger.journal := by
  cases ref with
  | database i => rfl
  | transaction i =>
    unfold assign
    dsimp only
    split <;> rfl

theorem takes_of_finished {ledger : Ledger} {i : Nat}
    (draft : ledger.drafts.get? i = some .finished) (catalog : Catalog) (r : Engine.Row) :
    ledger.takes catalog r (.transaction i) = false := by
  unfold takes
  dsimp only
  rw [draft]

/-- Enters what a write leaves under a place, and what the merge function noted. -/
def enter (ledger : Ledger) (ref : StoreRef) (place : Place) :
    Option (Option Record) × List MergeRun → Answer × Ledger
  | (some record?, notes) =>
    (.done, { ledger with journal := ledger.journal ++ notes }.assign place record? ref)
  | (none, notes) => (.refused, { ledger with journal := ledger.journal ++ notes })

/-- Writes a row that was taken. -/
def writeRow (catalog : Catalog) (ledger : Ledger) (ref : StoreRef) (r : Engine.Row)
    (kind : WriteKind) : Answer × Ledger :=
  match ledger.takes catalog r ref, (catalog.layout r.db).keyOf r with
  | true, .ok key =>
    ledger.enter ref ⟨r.db, key⟩ (catalog.written (ledger.view ref ⟨r.db, key⟩) r kind)
  | _, _ => (.refused, ledger)

/-- Looks up the record under the key of a row that was taken. -/
def lookupRow (catalog : Catalog) (ledger : Ledger) (ref : StoreRef) (r : Engine.Row) :
    Answer × Ledger :=
  match ledger.takes catalog r ref, (catalog.layout r.db).keyOf r with
  | true, .ok key =>
    match ledger.view ref ⟨r.db, key⟩ with
    | some record =>
      (.done, { ledger with rows := ledger.rows.add ((catalog.layout r.db).rowOf r.db record) })
    | none => (.missing, ledger)
  | _, _ => (.refused, ledger)

/-- A row that the store does not take is neither written nor looked up. -/
theorem writeRow_of_takes {catalog : Catalog} {ledger : Ledger} {ref : StoreRef}
    {r : Engine.Row} (htakes : ledger.takes catalog r ref = false) (kind : WriteKind) :
    ledger.writeRow catalog ref r kind = (.refused, ledger) := by
  unfold writeRow
  rw [htakes]

theorem lookupRow_of_takes {catalog : Catalog} {ledger : Ledger} {ref : StoreRef}
    {r : Engine.Row} (htakes : ledger.takes catalog r ref = false) :
    ledger.lookupRow catalog ref r = (.refused, ledger) := by
  unfold lookupRow
  rw [htakes]

/-- Makes a row of a database. -/
def newRow (catalog : Catalog) (ledger : Ledger) (i : Nat) : Answer × Ledger :=
  match catalog.databases[i]? with
  | none => (.absent, ledger)
  | some db => (.done, { ledger with rows := ledger.rows.add { db := db.handle } })

/-- Sets a field of a row. -/
def setField (catalog : Catalog) (ledger : Ledger) (i : Nat) (field : String) (value : Value) :
    Answer × Ledger :=
  match ledger.rows.get? i with
  | none => (.absent, ledger)
  | some r =>
    let name := SharedName.beforeNul field
    match cell? (catalog.layout r.db) name value with
    | none => (.refused, ledger)
    | some cell =>
      (.done, { ledger with
        rows := ledger.rows.put i { r with cells := r.cells.insert name cell } })

/-- Reads a field of a row. -/
def getField (catalog : Catalog) (ledger : Ledger) (i : Nat) (field : String)
    (kind : ValueKind) : Answer × Ledger :=
  match ledger.rows.get? i with
  | none => (.absent, ledger)
  | some r =>
    (.value (fieldValue? (catalog.layout r.db) r (SharedName.beforeNul field) kind), ledger)

/-- Writes a row, which is then gone. -/
def write (catalog : Catalog) (ledger : Ledger) (ref : StoreRef) (i : Nat) (kind : WriteKind) :
    Answer × Ledger :=
  match ledger.has catalog ref, ledger.rows.get? i with
  | true, some r => writeRow catalog { ledger with rows := ledger.rows.remove i } ref r kind
  | _, _ => (.absent, ledger)

/-- Looks up the record under the key of a row, which is then gone. -/
def lookup (catalog : Catalog) (ledger : Ledger) (ref : StoreRef) (i : Nat) : Answer × Ledger :=
  match ledger.has catalog ref, ledger.rows.get? i with
  | true, some r => lookupRow catalog { ledger with rows := ledger.rows.remove i } ref r
  | _, _ => (.absent, ledger)

/-- Begins a transaction, with an empty overlay. -/
def begin (ledger : Ledger) : Answer × Ledger :=
  (.done, { ledger with drafts := ledger.drafts.add (.pending fun _ => none) })

/-- Puts the overlay of a transaction over the base. -/
def commit (ledger : Ledger) (i : Nat) : Answer × Ledger :=
  match ledger.drafts.get? i with
  | none => (.absent, ledger)
  | some .finished => (.committed .error, ledger)
  | some (.pending overlay) =>
    (.committed .ok, { ledger with
      base := overlay.over ledger.base
      drafts := ledger.drafts.put i .finished })

/-- Forgets a transaction, unless it is finished. -/
def rollback (ledger : Ledger) (i : Nat) : Answer × Ledger :=
  match ledger.drafts.get? i with
  | none => (.absent, ledger)
  | some .finished => (.refused, { ledger with drafts := ledger.drafts.remove i })
  | some (.pending _) => (.done, { ledger with drafts := ledger.drafts.remove i })

/-- Forgets a transaction. -/
def drop (ledger : Ledger) (i : Nat) : Answer × Ledger :=
  match ledger.drafts.get? i with
  | none => (.absent, ledger)
  | some _ => (.done, { ledger with drafts := ledger.drafts.remove i })

/-- Writes an operation into the ledger. -/
def step (catalog : Catalog) (ledger : Ledger) : Op → Answer × Ledger
  | .newRow i => ledger.newRow catalog i
  | .setField i field value => ledger.setField catalog i field value
  | .getField i field kind => ledger.getField catalog i field kind
  | .write ref i kind => ledger.write catalog ref i kind
  | .lookup ref i => ledger.lookup catalog ref i
  | .begin => ledger.begin
  | .commit i => ledger.commit i
  | .rollback i => ledger.rollback i
  | .drop i => ledger.drop i

/-- Writes operations into the ledger one after the other. -/
def runAll (catalog : Catalog) : List Op → Ledger → List Answer × Ledger
  | [], ledger => ([], ledger)
  | op :: ops, ledger =>
    let (answer, ledger) := ledger.step catalog op
    let (answers, ledger) := runAll catalog ops ledger
    (answer :: answers, ledger)

/-- The ledger of a program that has no rows and no transactions yet. -/
def opening (world : World) : Ledger where
  base place :=
    match world.engine.objects.table.get? place.db with
    | some (.database db) => db.records.get? place.key
    | _ => none
  journal := world.engine.journal

end Ledger
end RowStore.Client
