/-
# Failures name their own causes

In a session whose rows are handed to stores of their own environment only, and for which no call is
planned to fail, a lookup says that nothing was found exactly if it looked and saw no record. Whatever
text of the engine a further command fails with, a call that this command made was refused with it, and
nothing but tidying up follows that call.

Key definitions: `Session.Explains`.
Key theorems: `Session.lookup_eq_notFound_iff`, `Session.raises_step`, `Session.explains_run`.
-/
import RowStore.Proofs.Client.Missing
import RowStore.Proofs.Session.Releasing
import RowStore.Proofs.Session.Telling

namespace RowStore.Session

open Client

variable {session : Session} {databases : List Token}

/-- A session names causes: nothing is found exactly if there is nothing to see, and a text of the engine
that a command fails with is that of the last call that the command made, but for those that tidy up, and
that was refused. -/
structure Explains (session : Session) : Prop where
  missing : ∀ (keySlot storeSlot : Slot) (key : Row) (store : Store),
    session.slots.get? keySlot = some (.row key) → session.store? storeSlot = some store →
      key.env = store.env →
        ((store.lookup key session.world).1 = .error .notFound ↔ store.Misses key session.world)
  /-- A key field with a name of its own is set if the row has any cell for it. -/
  set : ∀ (h : Handle) (r : Engine.Row) (db : Engine.Database),
    session.world.engine.objects.table.get? h = some (.row r) →
      session.world.engine.objects.table.get? r.db = some (.database db) → WellNamed db.fields →
        ∀ field ∈ db.keyFields, r.Sets field ↔ (r.cells.get? field.name).isSome = true
  refused : ∀ command : Command, command.IsFair → ∀ operation message,
    (session.step command).1 = .error (.failure (.engine operation message)) →
      session.world.Raises (session.step command).2.world message ∧
        session.world.Blames (session.step command).2.world message ∧ message ≠ noDiagnostic

/-- Between commands a lookup finds nothing exactly if there is nothing to see. -/
theorem lookup_eq_notFound_iff (hs : session.Accounts databases []) {keySlot storeSlot : Slot}
    {key : Row} {store : Store} (hkey : session.slots.get? keySlot = some (.row key))
    (hstore : session.store? storeSlot = some store) (henv : key.env = store.env) :
    (store.lookup key session.world).1 = .error .notFound ↔ store.Misses key session.world := by
  have hne : storeSlot ≠ keySlot := by
    rintro rfl
    rw [store?, hkey] at hstore
    cases hstore
  have htaken := hs.take hkey
  have hstore' : store? { session with slots := session.slots.erase keySlot } storeSlot =
      some store := by
    unfold store? at hstore ⊢
    rw [← hstore, Table.get?_erase, if_neg hne]
  exact store.lookup_eq_notFound_iff htaken.world (htaken.store_subset hstore') henv

/-- A text of the engine that a command fails with is that of a call that it made. -/
theorem raises_step (hr : session.world.Reachable) (hff : session.world.FaultFree)
    {command : Command} (hfair : command.IsFair) {operation message : String}
    (hfail : (session.step command).1 = .error (.failure (.engine operation message))) :
    session.world.Raises (session.step command).2.world message :=
  (candid_perform hfair).raises session hr hff operation message (congrArg failure? hfail)

theorem Accounts.explains (hs : session.Accounts databases []) : session.Explains where
  missing _ _ _ _ hkey hstore henv := lookup_eq_notFound_iff hs hkey hstore henv
  set h r db hrow hdb hnamed field hm := by
    obtain ⟨env, name, fields, houtline, hfits⟩ := hs.world.reachable.sound.sound h _ hrow
    obtain ⟨db', hdb', -, -, rfl⟩ := Engine.Objects.outline?_eq_database houtline
    rw [hdb] at hdb'
    cases hdb'
    exact (hfits hnamed.wellTyped).sets_iff (List.mem_of_mem_filter hm)
  refused _ hfair _ _ hfail :=
    have hraises := raises_step hs.world.reachable hs.world.faultFree hfair hfail
    ⟨hraises, hraises.blames, hraises.message_ne⟩

/-- After any commands of a session that stays at home, nothing is found exactly if there is nothing to
see, and further failures name their own causes. -/
theorem explains_run (commands : List Command) (h : StaysHome {} commands) :
    (run {} commands).2.Explains := (accounts_run commands accounts_start h).explains

/-- A session with a row and a database in which there is nothing yet. -/
def vacantOrders : List Command := [
  .createEnvironment "shop" none .static .early,
  .declareDatabase "shop" "orders" "orders" none none,
  .openEnvironment "shop",
  .newRow "orders" "row",
  .setField "row" "key" (.str [1])]

theorem vacantOrders_explains :
    StaysHome {} vacantOrders ∧ (run {} vacantOrders).2.Explains := by
  have hhome : StaysHome {} vacantOrders := ⟨trivial, trivial, trivial, trivial, trivial, trivial⟩
  exact ⟨hhome, explains_run vacantOrders hhome⟩

example : failure? ((run {} vacantOrders).2.step (.lookup "row" "orders" "found")).1 =
    some .notFound := by cbv

end RowStore.Session
