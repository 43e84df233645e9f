/-
# Transactions are overlays

The world of a program agrees with its ledger from the first operation to the last. Whatever the
program does to the databases and to the transactions of an opened environment, in whatever order
and with as many transactions at a time as it likes, it is answered as the ledger says: a database
is a map from keys to records, a transaction is an overlay of puts and deletions over the maps, a
commit puts the overlay over the base and a rollback forgets it.

Key definitions: `Client.Agrees`, `Client.Answered`, `Client.Catalog.Opened`.
Key theorems: `Client.Agrees.committed`, `Client.Agrees.step`, `Client.Agrees.runAll`,
`Client.runAll_eq_ledger`.
-/
import RowStore.Proofs.Client.Opening
import RowStore.Proofs.Client.Writing

namespace RowStore.Client

open Engine (Objects)

/-- The world is as the ledger has it. -/
structure Agrees (catalog : Catalog) (world : World) (hand : Hand) (ledger : Ledger) : Prop where
  serves : world.Serves catalog.env.handle
  functions : world.mergeFunctions = catalog.functions
  reflects : Reflects catalog world.engine.objects hand ledger
  journal : world.engine.journal = ledger.journal

/-- An operation is answered as the ledger says, and leaves a world that agrees with it. -/
structure Answered (catalog : Catalog) (result : (Answer × Hand) × World)
    (entry : Answer × Ledger) : Prop where
  answer : result.1.1 = entry.1
  agrees : Agrees catalog result.2 result.1.2 entry.2

namespace Agrees

variable {catalog : Catalog} {world world' : World} {hand hand' : Hand} {ledger ledger' : Ledger}
  {i : Nat}

theorem of_follows (h : Agrees catalog world hand ledger) (hf : world.Follows world')
    {objects : Objects} (hobjects : world'.engine.objects = objects)
    (hreflects : Reflects catalog objects hand' ledger')
    (hjournal : world'.engine.journal = ledger'.journal) : Agrees catalog world' hand' ledger' where
  serves := h.serves.follows hf
  functions := hf.mergeFunctions.trans h.functions
  reflects := by
    rw [hobjects]
    exact hreflects
  journal := hjournal

theorem of_engine (h : Agrees catalog world hand ledger) (hf : world.Follows world')
    {engine : Engine} (hengine : world'.engine = engine)
    (hreflects : Reflects catalog engine.objects hand' ledger')
    (hjournal : engine.journal = ledger'.journal) : Agrees catalog world' hand' ledger' :=
  h.of_follows hf (congrArg Engine.objects hengine) hreflects
    ((congrArg Engine.journal hengine).trans hjournal)

theorem fresh (h : Agrees catalog world hand ledger) :
    world.engine.objects.table.get? (world.engine.objects.issued + 1) = none :=
  h.serves.reachable.sound.fresh

/-! ### Rows -/

/-- A row that is made is the next, with no fields set. -/
theorem made (h : Agrees catalog world hand ledger) {db : Database}
    (hdb : db ∈ catalog.databases) :
    ∃ row after, db.newRow world = (.ok row, after) ∧
      Agrees catalog after { hand with rows := hand.rows.add row }
        { ledger with rows := ledger.rows.add { db := db.handle } } := by
  have hlists : catalog.Lists db.handle := ⟨db, hdb, rfl⟩
  have henv := h.reflects.envs db hdb
  obtain ⟨records, hstored, -⟩ := h.reflects.stores _ hlists
  obtain ⟨after, happly, hfollows, hengine⟩ := newRow_apply db (henv ▸ h.serves) hstored
  rw [henv] at happly
  exact ⟨_, after, happly,
    h.of_engine hfollows hengine (h.reflects.addRow h.fresh hlists) h.journal⟩

/-- A field is set to the cell that the value makes, or the client is told why not. -/
theorem filled (h : Agrees catalog world hand ledger) {row : Row} {r : Engine.Row}
    (hget : hand.rows.get? i = some row) (hlive : catalog.RowLive world.engine.objects row r)
    (field : String) (value : Value) :
    (row.set field value world).1 =
        told "set field" (cellOf (catalog.layout r.db) (SharedName.beforeNul field) value) ∧
      Agrees catalog (row.set field value world).2 hand
        (match cellOf (catalog.layout r.db) (SharedName.beforeNul field) value with
        | .ok cell => { ledger with
            rows := ledger.rows.put i
              { r with cells := r.cells.insert (SharedName.beforeNul field) cell } }
        | .error _ => ledger) := by
  obtain ⟨records, hdb, -⟩ := h.reflects.stores _ hlive.listed
  obtain ⟨hanswer, hengine⟩ :=
    setValue_told (hlive.env ▸ h.serves) hlive.found hdb field value
  have hfollows := (Row.quiet_set row field value).tame world
  have hcell : cellOf (catalog.stored r.db records) (SharedName.beforeNul field) value =
    cellOf (catalog.layout r.db) (SharedName.beforeNul field) value := rfl
  rw [hcell] at hanswer hengine
  refine ⟨hanswer, ?_⟩
  cases hmade : cellOf (catalog.layout r.db) (SharedName.beforeNul field) value with
  | error refusal =>
    rw [hmade] at hengine
    exact h.of_engine hfollows hengine h.reflects h.journal
  | ok cell =>
    rw [hmade] at hengine
    exact h.of_engine hfollows hengine (h.reflects.setRow hget hlive
      { r with cells := r.cells.insert (SharedName.beforeNul field) cell } rfl) h.journal

/-- Reading a field of a row changes nothing. -/
theorem read (h : Agrees catalog world hand ledger) {row : Row} {r : Engine.Row}
    (hlive : catalog.RowLive world.engine.objects row r) {field : String}
    (herror : SharedName.beforeNul field ≠ Engine.diagnosticKey) (kind : ValueKind) :
    (row.get field kind world).1 =
        fieldValue? (catalog.layout r.db) r (SharedName.beforeNul field) kind ∧
      Agrees catalog (row.get field kind world).2 hand ledger := by
  obtain ⟨records, hdb, -⟩ := h.reflects.stores _ hlive.listed
  obtain ⟨hanswer, hobjects, hjournal⟩ :=
    getValue_apply (hlive.env ▸ h.serves) hlive.found hdb herror kind
  exact ⟨hanswer, h.of_follows ((row.quiet_get field kind).tame world) hobjects h.reflects
    (hjournal.trans h.journal)⟩

theorem newRow (h : Agrees catalog world hand ledger) (i : Nat) :
    Answered catalog (hand.newRow catalog i world) (ledger.newRow catalog i) := by
  unfold Hand.newRow Ledger.newRow
  cases listed : catalog.databases[i]? with
  | none => exact ⟨rfl, h⟩
  | some db =>
    obtain ⟨row, after, happly, hafter⟩ := h.made (List.mem_of_getElem? listed)
    dsimp only
    rw [bind_apply, show db.newRow.run world = _ from happly]
    exact ⟨rfl, hafter⟩

theorem setField (h : Agrees catalog world hand ledger) (i : Nat) (field : String)
    (value : Value) :
    Answered catalog (hand.setField i field value world) (ledger.setField catalog i field value) := by
  unfold Hand.setField Ledger.setField
  rcases h.reflects.rows.elim i with ⟨hs, ht⟩ | ⟨row, r, hs, ht, hlive⟩
  · rw [hs, ht]
    exact ⟨rfl, h⟩
  · rw [hs, ht]
    obtain ⟨hanswer, hafter⟩ := h.filled hs hlive field value
    dsimp only
    rw [bind_apply, show ((row.set field value).run world).1 = _ from hanswer, ← cellOf_toOption]
    cases hmade : cellOf (catalog.layout r.db) (SharedName.beforeNul field) value with
    | error refusal =>
      rw [hmade] at hafter
      exact ⟨rfl, hafter⟩
    | ok cell =>
      rw [hmade] at hafter
      exact ⟨rfl, hafter⟩

theorem getField (h : Agrees catalog world hand ledger) (i : Nat) {field : String}
    (herror : SharedName.beforeNul field ≠ Engine.diagnosticKey) (kind : ValueKind) :
    Answered catalog (hand.getField i field kind world) (ledger.getField catalog i field kind) := by
  unfold Hand.getField Ledger.getField
  rcases h.reflects.rows.elim i with ⟨hs, ht⟩ | ⟨row, r, hs, ht, hlive⟩
  · rw [hs, ht]
    exact ⟨rfl, h⟩
  · rw [hs, ht]
    obtain ⟨hanswer, hafter⟩ := h.read hlive herror kind
    exact ⟨congrArg Answer.value hanswer, hafter⟩

/-! ### Rows given up -/

theorem store_env (h : Agrees catalog world hand ledger) {ref : StoreRef} {store : Store}
    (hstore : hand.store? catalog ref = some store) (hopen : store.isFinished = false) :
    store.env = catalog.env.handle := by
  cases ref with
  | database i =>
    obtain ⟨db, listed, rfl⟩ := Option.map_eq_some_iff.1 hstore
    exact h.reflects.envs db (List.mem_of_getElem? listed)
  | transaction i =>
    obtain ⟨tx, held, rfl⟩ := Option.map_eq_some_iff.1 hstore
    obtain ⟨draft, -, hlive⟩ := h.reflects.drafts.of_some held
    cases draft with
    | finished => exact absurd (hopen.symm.trans hlive) Bool.false_ne_true
    | pending overlay => exact hlive.env

/-- A row that is released is gone. -/
theorem release (h : Agrees catalog world hand ledger) {row : Row} {r : Engine.Row}
    (hget : hand.rows.get? i = some row)
    (hlive : catalog.RowLive world.engine.objects row r) :
    Agrees catalog (row.release world).2 { hand with rows := hand.rows.remove i }
      { ledger with rows := ledger.rows.remove i } := by
  have hengine := Row.release_apply row (hlive.env ▸ h.serves)
  rw [destroy_of_get hlive.found (Or.inl ⟨r, rfl⟩)] at hengine
  exact h.of_engine ((Row.plain_release row).tame world) hengine (h.reflects.removeRow hget hlive)
    h.journal

theorem write (h : Agrees catalog world hand ledger) (ref : StoreRef) (i : Nat)
    (kind : WriteKind) :
    Answered catalog (hand.write catalog ref i kind world) (ledger.write catalog ref i kind) := by
  unfold Hand.write Ledger.write
  rw [h.reflects.has_eq]
  cases hstore : hand.store? catalog ref with
  | none => exact ⟨rfl, h⟩
  | some store =>
    rcases h.reflects.rows.elim i with ⟨hs, ht⟩ | ⟨row, r, hs, ht, hlive⟩
    · rw [hs, ht]
      exact ⟨rfl, h⟩
    · rw [hs, ht]
      have hreflects := h.reflects.removeRow hs hlive
      have hstore' := (Hand.store?_of_rows catalog hand (hand.rows.remove i) ref).trans hstore
      dsimp only [Option.isSome_some]
      rw [bind_apply]
      by_cases hfinished : store.isFinished = true
      · have happly : (store.write row kind).run world = _ :=
          Store.write_of_finished hfinished row kind
        rw [Ledger.writeRow_of_takes (hreflects.takes_of_isFinished hstore' hfinished), happly]
        exact ⟨rfl, h.release hs hlive⟩
      · have hopen := Bool.eq_false_iff.2 hfinished
        have hserves : world.Serves store.env := (h.store_env hstore hopen) ▸ h.serves
        obtain ⟨hanswer, hengine⟩ := Store.write_of_open hserves hopen row kind
        rw [Engine.step_write world.mergeFunctions hlive.found kind, h.functions] at hanswer hengine
        rw [Engine.attemptFlag_fst] at hanswer
        have houtcome := hreflects.written hstore' hopen hlive.listed kind
        have hfollows := (Store.plain_write store row kind).tame world
        rw [show ((store.write row kind).run world).1.isOk = _ from hanswer]
        refine ⟨houtcome.answer.symm, h.of_engine hfollows hengine ?_ ?_⟩
        · rw [Engine.attemptFlag_objects]
          exact houtcome.reflects
        · rw [Engine.attemptFlag_journal, houtcome.journal, h.journal]

theorem lookup (h : Agrees catalog world hand ledger) (ref : StoreRef) (i : Nat) :
    Answered catalog (hand.lookup catalog ref i world) (ledger.lookup catalog ref i) := by
  unfold Hand.lookup Ledger.lookup
  rw [h.reflects.has_eq]
  cases hstore : hand.store? catalog ref with
  | none => exact ⟨rfl, h⟩
  | some store =>
    rcases h.reflects.rows.elim i with ⟨hs, ht⟩ | ⟨row, r, hs, ht, hlive⟩
    · rw [hs, ht]
      exact ⟨rfl, h⟩
    · rw [hs, ht]
      have hreflects := h.reflects.removeRow hs hlive
      have hstore' := (Hand.store?_of_rows catalog hand (hand.rows.remove i) ref).trans hstore
      dsimp only [Option.isSome_some]
      rw [bind_apply]
      by_cases hfinished : store.isFinished = true
      · have happly : (store.lookup row).run world = _ := Store.lookup_of_finished hfinished row
        rw [Ledger.lookupRow_of_takes (hreflects.takes_of_isFinished hstore' hfinished), happly]
        exact ⟨rfl, h.release hs hlive⟩
      · have hopen := Bool.eq_false_iff.2 hfinished
        have henv := h.store_env hstore hopen
        obtain ⟨hanswer, hengine⟩ := Store.lookup_of_open (henv ▸ h.serves) hopen row
        rw [Engine.lookup_eq hlive.found] at hanswer hengine
        have hfresh : (world.engine.objects.remove row.handle).table.get?
            (world.engine.objects.issued + 1) = none := by
          rw [Objects.get?_remove, h.fresh, ite_self]
        have houtcome := hreflects.lookupRow hstore' hopen hlive.listed hfresh
        have hfollows := (Store.plain_lookup store row).tame world
        generalize (world.engine.objects.remove row.handle).lookupRow store.handle r = result
          at hanswer hengine houtcome
        generalize Ledger.lookupRow catalog _ ref r = entry at houtcome
        rw [show ((store.lookup row).run world).1 = _ from hanswer]
        cases houtcome with
        | refused refusal => exact ⟨rfl, h.of_engine hfollows hengine hreflects h.journal⟩
        | missing => exact ⟨rfl, h.of_engine hfollows hengine hreflects h.journal⟩
        | found hfound hjournal =>
          rw [henv]
          exact ⟨rfl, h.of_engine hfollows hengine hfound (h.journal.trans hjournal.symm)⟩

/-! ### Transactions -/

/-- A transaction that is begun is pending, with an empty overlay. -/
theorem begun (h : Agrees catalog world hand ledger) :
    ∃ tx after, catalog.env.begin world = (.ok tx, after) ∧
      Agrees catalog after { hand with txs := hand.txs.add tx }
        { ledger with drafts := ledger.drafts.add (.pending fun _ => none) } := by
  obtain ⟨after, happly, hfollows, hengine⟩ := begin_apply h.serves h.reflects.opened
  exact ⟨_, after, happly,
    h.of_engine hfollows hengine (h.reflects.addTx h.fresh) h.journal⟩

theorem begin (h : Agrees catalog world hand ledger) :
    Answered catalog (hand.begin catalog world) ledger.begin := by
  obtain ⟨tx, after, happly, hafter⟩ := h.begun
  unfold Hand.begin Ledger.begin
  rw [bind_apply, show catalog.env.begin.run world = _ from happly]
  exact ⟨rfl, hafter⟩

/-- A pending transaction that is committed is finished, its overlay is put over the base. -/
theorem committed (h : Agrees catalog world hand ledger) {tx : Transaction} {overlay : Overlay}
    (hget : hand.txs.get? i = some tx)
    (hpending : catalog.Pending world.engine.objects tx overlay) :
    (tx.commit world).1 = (.ok, { tx with finished := true }) ∧
      Agrees catalog (tx.commit world).2
        { hand with txs := hand.txs.put i { tx with finished := true } }
        { ledger with base := overlay.over ledger.base, drafts := ledger.drafts.put i .finished } := by
  obtain ⟨objects', hcommit, hreflects⟩ := h.reflects.commit hget hpending
  have hengine : world.engine.commit tx.handle = (Engine.commitOk,
      { world.engine with objects := objects', diagnostic? := none }) := by
    unfold Engine.commit
    rw [hcommit]
  obtain ⟨hanswer, hafter⟩ := Transaction.commit_of_open (hpending.env ▸ h.serves)
    hpending.unfinished (congrArg (fun p => CommitStatus.ofCode p.1) hengine)
  rw [hengine] at hafter
  exact ⟨hanswer, h.of_engine ((Transaction.plain_commit tx).tame world) hafter hreflects h.journal⟩

theorem commit (h : Agrees catalog world hand ledger) (i : Nat) :
    Answered catalog (hand.commit i world) (ledger.commit i) := by
  unfold Hand.commit Ledger.commit
  rcases h.reflects.drafts.elim i with ⟨hs, ht⟩ | ⟨tx, draft, hs, ht, hlive⟩
  · rw [hs, ht]
    exact ⟨rfl, h⟩
  · rw [hs, ht]
    dsimp only
    rw [bind_apply]
    cases draft with
    | finished =>
      rw [Transaction.commit_of_finished hlive]
      exact ⟨rfl, h.of_follows (.refl world) rfl (h.reflects.putBack hs) h.journal⟩
    | pending overlay =>
      obtain ⟨hanswer, hafter⟩ := h.committed hs hlive
      rw [hanswer]
      exact ⟨rfl, hafter⟩

/-- A transaction that was destroyed is gone. -/
theorem gone (h : Agrees catalog world hand ledger) {tx : Transaction} {overlay : Overlay}
    (hget : hand.txs.get? i = some tx)
    (hpending : catalog.Pending world.engine.objects tx overlay) (hf : world.Follows world')
    (hengine : world'.engine = (world.engine.destroy tx.handle).2) :
    Agrees catalog world' { hand with txs := hand.txs.remove i }
      { ledger with drafts := ledger.drafts.remove i } := by
  obtain ⟨writes, hfound, -⟩ := hpending.found
  rw [destroy_of_get hfound (Or.inr ⟨_, rfl⟩)] at hengine
  exact h.of_engine hf hengine (h.reflects.removeTx hget hpending) h.journal

theorem rollback (h : Agrees catalog world hand ledger) (i : Nat) :
    Answered catalog (hand.rollback i world) (ledger.rollback i) := by
  unfold Hand.rollback Ledger.rollback
  rcases h.reflects.drafts.elim i with ⟨hs, ht⟩ | ⟨tx, draft, hs, ht, hlive⟩
  · rw [hs, ht]
    exact ⟨rfl, h⟩
  · rw [hs, ht]
    dsimp only
    rw [bind_apply]
    cases draft with
    | finished =>
      rw [show tx.rollback.run world = _ from Transaction.rollback_of_finished hlive]
      exact ⟨rfl, h.of_follows (.refl world) rfl (h.reflects.forgetTx i) h.journal⟩
    | pending overlay =>
      have hpending : catalog.Pending world.engine.objects tx overlay := hlive
      obtain ⟨hanswer, hengine⟩ :=
        Transaction.rollback_of_open (hpending.env ▸ h.serves) hpending.unfinished
      obtain ⟨writes, hfound, -⟩ := hpending.found
      rw [destroy_of_get hfound (Or.inr ⟨_, rfl⟩)] at hanswer
      rw [show (tx.rollback.run world).1.isOk = _ from hanswer]
      exact ⟨rfl, h.gone hs hpending ((Transaction.plain_rollback tx).tame world) hengine⟩

theorem drop (h : Agrees catalog world hand ledger) (i : Nat) :
    Answered catalog (hand.drop i world) (ledger.drop i) := by
  unfold Hand.drop Ledger.drop
  rcases h.reflects.drafts.elim i with ⟨hs, ht⟩ | ⟨tx, draft, hs, ht, hlive⟩
  · rw [hs, ht]
    exact ⟨rfl, h⟩
  · rw [hs, ht]
    dsimp only
    rw [bind_apply]
    cases draft with
    | finished =>
      rw [Transaction.release_of_finished hlive]
      exact ⟨rfl, h.of_follows (.refl world) rfl (h.reflects.forgetTx i) h.journal⟩
    | pending overlay =>
      have hpending : catalog.Pending world.engine.objects tx overlay := hlive
      have hengine :=
        Transaction.release_of_open (hpending.env ▸ h.serves) hpending.unfinished
      exact ⟨rfl, h.gone hs hpending ((Transaction.plain_release tx).tame world) hengine⟩

/-! ### Runs -/

/-- Every operation is answered as the ledger says. -/
theorem step (h : Agrees catalog world hand ledger) {op : Op} (hop : op.Proper) :
    Answered catalog (op.exec catalog hand world) (ledger.step catalog op) := by
  cases op with
  | newRow i => exact h.newRow i
  | setField i field value => exact h.setField i field value
  | getField i field kind => exact h.getField i hop kind
  | write ref i kind => exact h.write ref i kind
  | lookup ref i => exact h.lookup ref i
  | begin => exact h.begin
  | commit i => exact h.commit i
  | rollback i => exact h.rollback i
  | drop i => exact h.drop i

/-- Every run is answered as the ledger says. -/
theorem runAll {ops : List Op} (h : Agrees catalog world hand ledger)
    (hops : ∀ op ∈ ops, op.Proper) :
    (Client.runAll catalog ops hand world).1.1 = (ledger.runAll catalog ops).1 ∧
      Agrees catalog (Client.runAll catalog ops hand world).2
        (Client.runAll catalog ops hand world).1.2 (ledger.runAll catalog ops).2 := by
  induction ops generalizing world hand ledger with
  | nil => exact ⟨rfl, h⟩
  | cons op ops ih =>
    obtain ⟨hanswer, hagrees⟩ := h.step (hops op List.mem_cons_self)
    obtain ⟨hanswers, hagrees'⟩ := ih hagrees fun op' hmem => hops op' (List.mem_cons_of_mem _ hmem)
    exact ⟨congrArg₂ List.cons hanswer hanswers, hagrees'⟩

end Agrees

/-! ### From an opened environment -/

/-- The catalog says what there is: an opened environment that is free of faults, with its
databases and merge functions. -/
structure Catalog.Opened (catalog : Catalog) (world : World) : Prop where
  serves : world.Serves catalog.env.handle
  opened : world.engine.objects.ensureOpened catalog.env.handle = .ok ()
  functions : world.mergeFunctions = catalog.functions
  envs : ∀ db ∈ catalog.databases, db.env = catalog.env.handle
  databases : ∀ d, catalog.Lists d →
    ∃ records, world.engine.objects.database d = .ok (catalog.stored d records)

theorem Catalog.Opened.agrees {catalog : Catalog} {world : World} (ho : catalog.Opened world) :
    Agrees catalog world {} (Ledger.opening world) where
  serves := ho.serves
  functions := ho.functions
  journal := rfl
  reflects := {
    opened := ho.opened
    envs := ho.envs
    stores := fun d hd => by
      obtain ⟨records, hdb⟩ := ho.databases d hd
      rw [Objects.database_eq_ok] at hdb
      refine ⟨records, hdb, fun key => ?_⟩
      unfold Ledger.opening
      dsimp only
      rw [hdb]
      rfl
    rows := ⟨rfl, fun _ => .none⟩
    drafts := ⟨rfl, fun _ => .none⟩
    rowsApart := fun _ _ _ _ _ hget => by cases hget
    txsApart := fun _ _ _ _ _ hget => by cases hget }

/-- Whatever a program does to the databases and the transactions of an opened environment, it is
answered as the ledger says, and what is left on the engine is as the ledger has it. -/
theorem runAll_eq_ledger {catalog : Catalog} {world : World} (ho : catalog.Opened world)
    {ops : List Op} (hops : ∀ op ∈ ops, op.Proper) :
    (runAll catalog ops {} world).1.1 = ((Ledger.opening world).runAll catalog ops).1 ∧
      Agrees catalog (runAll catalog ops {} world).2 (runAll catalog ops {} world).1.2
        ((Ledger.opening world).runAll catalog ops).2 :=
  ho.agrees.runAll hops

namespace Numbers

/-- The environment with the database of numbers. -/
def catalog : Catalog where
  env := { handle := 1 }
  databases := [database]
  layout := fun _ => stored
  functions := world.mergeFunctions

theorem opened : catalog.Opened world where
  serves := ready.serves
  opened := rfl
  functions := rfl
  envs := by
    intro db hmem
    rw [List.mem_singleton.1 hmem]
    rfl
  databases := by
    rintro d ⟨db, hmem, rfl⟩
    rw [List.mem_singleton.1 hmem]
    exact ⟨stored.records, rfl⟩

/-- Puts a number through a transaction and looks for it in the database and in the transaction,
and in the database again after the commit. -/
def program : List Op := [
  .begin,
  .newRow 0, .setField 0 "number" (.uint 7), .write (.transaction 0) 0 .put,
  .newRow 0, .setField 1 "number" (.uint 7), .lookup (.database 0) 1,
  .newRow 0, .setField 2 "number" (.uint 7), .lookup (.transaction 0) 2,
  .getField 3 "number" .uint,
  .commit 0,
  .newRow 0, .setField 4 "number" (.uint 7), .lookup (.database 0) 4,
  .getField 5 "number" .uint]

theorem program_answers : (runAll catalog program {} world).1.1 = [
    .done,
    .done, .done, .done,
    .done, .done, .missing,
    .done, .done, .done,
    .value (some (.uint 7)),
    .committed .ok,
    .done, .done, .done,
    .value (some (.uint 7))] :=
  (runAll_eq_ledger opened (by decide)).1.trans (by decide +kernel)

end Numbers
end RowStore.Client
