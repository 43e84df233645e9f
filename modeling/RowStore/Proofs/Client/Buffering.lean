/-
# Buffered programs

A program that runs its errands through one transaction and commits it is told what it is told without
the transaction, refusals included, and leaves the same records in every database. Both programs start
from one sheet: on the one side what the program sees is the base, on the other the overlay of the
transaction over the base, and the commit makes a base of it.

Key definitions: `Client.runBuffered`, `Client.Desk.Laid`, `Client.Catalog.SameRecords`.
Key theorems: `Client.Kept.committed`, `Client.runBuffered_eq_runErrands`.
-/
import RowStore.Merge.Program
import RowStore.Proofs.Client.Errands
import RowStore.Proofs.Data.Tables

namespace RowStore.Client

/-- Runs errands through a transaction that is begun for them, and commits it. -/
def runBuffered (env : Environment) (errands : List Errand) (desk : Desk) :
    Client (Except Failure ((List Report × Desk) × CommitStatus)) := do
  match ← env.begin.run with
  | .error failure => return .error failure
  | .ok tx =>
    let result ← runErrands (some tx) errands desk
    let (status, _) ← tx.commit
    return .ok (result, status)

/-- The engine has the rows of the program as they are listed, each of the database that it is said to
be of. -/
structure Desk.Laid (catalog : Catalog) (world : World) (desk : Desk) (lines : Slots Engine.Row) :
    Prop where
  rows : desk.rows.Matching (catalog.RowLive world.engine.objects) lines
  apart : desk.rows.Apart fun row => some row.handle
  owned : ∀ i r, lines.get? i = some r →
    desk.owner i ∈ catalog.databases ∧ (desk.owner i).handle = r.db

/-- Every database of the catalog has the same records in both worlds. -/
def Catalog.SameRecords (catalog : Catalog) (world world' : World) : Prop :=
  ∀ d, catalog.Lists d → ∃ db, world.engine.objects.database d = .ok db ∧
    world'.engine.objects.database d = .ok db

section

variable {catalog : Catalog} {world world' : World} {desk : Desk} {lines : Slots Engine.Row}
  {sheet : Sheet} {hand hand' : Hand} {ledger ledger' : Ledger} {errands : List Errand}
  {tx : Transaction}

/-! ### Beginnings -/

/-- What is on the engine at the beginning. -/
def Sheet.opening (world : World) (desk : Desk) (lines : Slots Engine.Row) : Sheet where
  seen := (Ledger.opening world).base
  rows := lines
  owner := desk.owner
  journal := world.engine.journal

theorem Catalog.Opened.agrees_of_laid (ho : catalog.Opened world)
    (hd : desk.Laid catalog world lines) :
    Agrees catalog world { rows := desk.rows } { Ledger.opening world with rows := lines } where
  serves := ho.serves
  functions := ho.functions
  journal := rfl
  reflects := { ho.agrees.reflects with
    rows := hd.rows
    rowsApart := hd.apart }

/-- Without a transaction the program sees the base. -/
theorem Catalog.Opened.kept_none (ho : catalog.Opened world) (hd : desk.Laid catalog world lines) :
    Kept catalog none world desk (.opening world desk lines) :=
  ⟨_, {}, ho.agrees_of_laid hd, rfl, hd.owned, rfl⟩

/-- With a transaction that is new the program sees no more than the base. -/
theorem Catalog.Opened.kept_some (ho : catalog.Opened world) (hd : desk.Laid catalog world lines) :
    ∃ tx begun, catalog.env.begin world = (.ok tx, begun) ∧
      Kept catalog (some tx) begun desk (.opening world desk lines) := by
  obtain ⟨tx, begun, hbegin, hagrees⟩ := (ho.agrees_of_laid hd).begun
  exact ⟨tx, begun, hbegin, _, _, hagrees, rfl, hd.owned, fun _ => none, rfl, rfl⟩

/-! ### Ends -/

/-- Worlds that agree with one base have the same records. -/
theorem Agrees.sameRecords (h : Agrees catalog world hand ledger)
    (h' : Agrees catalog world' hand' ledger') (hbase : ledger.base = ledger'.base) :
    catalog.SameRecords world world' := by
  intro d hd
  obtain ⟨records, hdb, hrecords⟩ := h.reflects.stores d hd
  obtain ⟨records', hdb', hrecords'⟩ := h'.reflects.stores d hd
  have heq : records' = records := Table.ext_get? fun key => by
    rw [hrecords', hrecords, hbase]
  rw [heq] at hdb'
  exact ⟨_, Engine.Objects.database_eq_ok.2 hdb, Engine.Objects.database_eq_ok.2 hdb'⟩

/-- A program may forget its transactions. -/
theorem Agrees.forgetTxs (h : Agrees catalog world hand ledger) :
    Agrees catalog world { hand with txs := {} } { ledger with drafts := {} } where
  serves := h.serves
  functions := h.functions
  journal := h.journal
  reflects := { h.reflects with
    drafts := ⟨rfl, fun _ => .none⟩
    txsApart := fun _ _ _ _ _ hget => by cases hget }

/-- The rows of the program are on the engine as the sheet has them. -/
theorem Keeps.laid {via? : Option Transaction} {base : Base} {drafts : Slots Draft}
    (h : Keeps catalog via? world desk sheet base drafts) : desk.Laid catalog world sheet.rows where
  rows := h.agrees.reflects.rows
  apart := h.agrees.reflects.rowsApart
  owned := h.owner ▸ h.owned

/-- Worlds that are as one sheet has them, for programs without a transaction, have the same rows and
the same records, and the merge functions noted the same. -/
theorem Kept.ends {desk' : Desk} (h : Kept catalog none world desk sheet)
    (h' : Kept catalog none world' desk' sheet) :
    (∃ lines, desk.Laid catalog world lines ∧ desk'.Laid catalog world' lines) ∧
      catalog.SameRecords world world' ∧ world.engine.journal = world'.engine.journal := by
  obtain ⟨base, drafts, hkeeps⟩ := h
  obtain ⟨base', drafts', hkeeps'⟩ := h'
  have hbase : base = base' := hkeeps.seen.trans hkeeps'.seen.symm
  exact ⟨⟨_, hkeeps.laid, hkeeps'.laid⟩, hkeeps.agrees.sameRecords hkeeps'.agrees hbase,
    hkeeps.agrees.journal.trans hkeeps'.agrees.journal.symm⟩

/-- A program whose transaction is committed goes on without it: it sees the base. -/
theorem Kept.committed (h : Kept catalog (some tx) world desk sheet) :
    (tx.commit world).1.1 = .ok ∧ Kept catalog none (tx.commit world).2 desk sheet := by
  obtain ⟨base, drafts, hagrees, howner, howned, overlay, hdraft, hover⟩ := h
  have hheld : (txsOf (some tx)).get? 0 = some tx := rfl
  obtain ⟨draft, hdraft', hlive⟩ := hagrees.reflects.drafts.of_some hheld
  cases hdraft.symm.trans hdraft'
  obtain ⟨hanswer, hafter⟩ := hagrees.committed hheld hlive
  exact ⟨congrArg Prod.fst hanswer, _, {}, hafter.forgetTxs, howner, howned, hover⟩

/-- Whatever a program does to rows of the databases of an opened environment, it is told the same if it
does it through one transaction and commits it: it has the same rows and leaves the same records. -/
theorem runBuffered_eq_runErrands (ho : catalog.Opened world) (hd : desk.Laid catalog world lines)
    (hnamed : catalog.WellNamed) (herrands : ∀ errand ∈ errands, errand.Proper catalog) :
    ∃ reports direct buffered after committed,
      runErrands none errands desk world = ((reports, direct), after) ∧
      runBuffered catalog.env errands desk world = (.ok ((reports, buffered), .ok), committed) ∧
      (∃ lines', direct.Laid catalog after lines' ∧ buffered.Laid catalog committed lines') ∧
      catalog.SameRecords after committed ∧ after.engine.journal = committed.engine.journal := by
  obtain ⟨hdirect, hends⟩ := (ho.kept_none hd).run hnamed herrands
  obtain ⟨tx, begun, hbegin, hkept⟩ := ho.kept_some hd
  obtain ⟨hbuffered, hrun⟩ := hkept.run hnamed herrands
  obtain ⟨hstatus, hcommitted⟩ := hrun.committed
  refine ⟨_, _, _, _, _, Prod.ext (Prod.ext rfl rfl) rfl, ?_, hends.ends hcommitted⟩
  unfold runBuffered
  rw [bind_apply, show catalog.env.begin.run world = _ from hbegin]
  dsimp only
  rw [bind_apply, bind_apply, hdirect, ← hbuffered]
  rw [← hstatus]
  rfl

end

namespace Uniques

/-- The merge function of a database that stores no record twice. -/
def once : MergeFn := .ofActs [.rejectStored "taken"]

/-- The database of numbers with the merge function. -/
def database : Database := { Numbers.database with token? := some 1 }

/-- The world with the database in an opened environment, empty. -/
def world : World :=
  (call (.openEnvironment 1) (call (.installHook 2 ⟨1, 1⟩) (Numbers.declared.setLink 1
    { Numbers.declared.link 1 with registry := (({} : Registry).register once).2 })).2).2

theorem reachable_world : world.Reachable :=
  ((Numbers.reachable_declared.register 1 _).call _).call _

/-- The environment with the database. -/
def catalog : Catalog where
  env := { handle := 1 }
  databases := [database]
  layout := fun _ => { Numbers.stored with hook? := some ⟨1, 1⟩ }
  functions := world.mergeFunctions

theorem opened : catalog.Opened world where
  serves := ⟨reachable_world, rfl, rfl⟩
  opened := rfl
  functions := rfl
  envs := by decide
  databases := by
    rintro d ⟨db, hmem, rfl⟩
    rw [List.mem_singleton.1 hmem]
    exact ⟨{}, rfl⟩

theorem laid : Desk.Laid catalog world {} {} where
  rows := ⟨rfl, fun _ => .none⟩
  apart := fun _ _ _ _ _ hget => by cases hget
  owned := fun _ _ hget => by cases hget

/-- Upserts a number twice, and once more after it was deleted, and looks for it in between and at the
end. -/
def errands : List Errand := [
  .newRow database, .setField 0 "number" (.uint 7), .write 0 .upsert,
  .newRow database, .setField 1 "number" (.uint 7), .write 1 .upsert,
  .newRow database, .setField 2 "number" (.uint 7), .write 2 .delete,
  .newRow database, .setField 3 "number" (.uint 7), .lookup 3,
  .newRow database, .setField 4 "number" (.uint 7), .write 4 .upsert,
  .newRow database, .setField 5 "number" (.uint 7), .lookup 5]

/-- What the program is told. -/
def reports : List Report := [
  .done (.ok ()), .done (.ok ()), .done (.ok ()),
  .done (.ok ()), .done (.ok ()),
  .done (.error (.engine "upsert" "upsert callback failed: taken")),
  .done (.ok ()), .done (.ok ()), .done (.ok ()),
  .done (.ok ()), .done (.ok ()), .found (.error .notFound),
  .done (.ok ()), .done (.ok ()), .done (.ok ()),
  .done (.ok ()), .done (.ok ()), .found (.ok [some (.uint 7)])]

theorem errands_reports : (runErrands none errands {} world).1.1 = reports := by decide +kernel

/-- The second upsert meets the number that is in the overlay, the third the deletion. -/
theorem errands_buffered : ∃ buffered committed,
    runBuffered catalog.env errands {} world = (.ok ((reports, buffered), .ok), committed) ∧
      catalog.SameRecords (runErrands none errands {} world).2 committed := by
  obtain ⟨told, direct, buffered, after, committed, hdirect, hbuffered, -, hrecords, -⟩ :=
    runBuffered_eq_runErrands opened laid (by decide) (by decide : ∀ errand ∈ errands, _)
  have htold : told = reports := by rw [← errands_reports, hdirect]
  rw [hdirect, hbuffered, htold]
  exact ⟨buffered, committed, rfl, hrecords⟩

end Uniques

end RowStore.Client
