/-
# Handles are released exactly once

A session whose rows are handed to stores of their own environment only, and for which no call is planned
to fail, loses nothing and gives nothing back twice. After every command, the objects of an environment
that is not closed are the environment, its declared databases, and an object for every row, cursor and
transaction that the session holds; an environment that is closed owns nothing; and no handle was handed
twice to a call that takes its object.

Key definitions: `Session.Domestic`, `Session.StaysHome`, `Session.declared`.
Key theorems: `Session.accounts_step`, `Session.accounts_run`, `Session.released_once`.
-/
import RowStore.Proofs.Session.Books

namespace RowStore.Session

open Client
open World (Conserves)

/-! ### Sessions that stay at home -/

/-- The store in a slot, if there is one. -/
def store? (session : Session) (slot : Slot) : Option Store :=
  (session.slots.get? slot).bind fun
    | .database held => some (.database held)
    | .transaction held => some (.transaction held)
    | _ => none

/-- The command plans no call to fail, and a row that it hands to a store is one of the environment of
the store. -/
def Domestic (session : Session) : Command → Prop
  | .plan _ _ => False
  | .write row store _ => ∀ held target, session.slots.get? row = some (.row held) →
      session.store? store = some target → held.env = target.env
  | .lookup key store into => into ≠ key → into ≠ store → ∀ held target,
      session.slots.get? key = some (.row held) → session.store? store = some target →
        held.env = target.env
  | .put db store _ _ => ∀ held target, session.slots.get? db = some (.database held) →
      session.store? store = some target → held.env = target.env
  | .find db store _ => ∀ held target, session.slots.get? db = some (.database held) →
      session.store? store = some target → held.env = target.env
  | _ => True

/-- All commands of a run are such. -/
def StaysHome : Session → List Command → Prop
  | _, [] => True
  | session, command :: commands =>
    session.Domestic command ∧ StaysHome (session.step command).2 commands

/-- The token of the database that a command declares, if it does. -/
def declaredBy (session : Session) : Command → List Token
  | .declareDatabase env into name fields? merge? =>
    match (session.step (.declareDatabase env into name fields? merge?)).1,
      session.slots.get? env with
    | .ok (.database handle _ _ _), some (.environment held) => [(handle, ⟨.database, held.handle⟩)]
    | _, _ => []
  | _ => []

/-- The tokens of the databases that a run declares, the last one first. -/
def declared : Session → List Command → List Token
  | _, [] => []
  | session, command :: commands =>
    declared (session.step command).2 commands ++ session.declaredBy command

variable {session : Session} {databases : List Token} {slot : Slot}

/-! ### Rows on their way to a store -/

section Rows

variable {β : Type} {tokensOf : β → List Token} {taken : Row} {target : Store}

/-- The row of a slot is in hand. -/
theorem settled_takeRow {f : Row → Step β} (hs : session.Accounts databases [])
    (hf : ∀ taken, session.slots.get? slot = some (.row taken) →
      Accounts { session with slots := session.slots.erase slot } databases [taken.token] →
        Settled databases tokensOf (f taken { session with slots := session.slots.erase slot })) :
    Settled databases tokensOf ((takeRow slot >>= f) session) := by
  show Settled databases tokensOf (((row slot >>= fun taken => _) >>= f) session)
  rw [bind_assoc]
  refine settled_look hs fun holding taken hget hselect => ?_
  cases holding <;> cases hselect
  exact hf taken hget (hs.take hget)

theorem store?_of_erase {slots : Table Slot Holding} {world : World} {key : Slot}
    (hstore : store? { world, slots := slots.erase key } slot = some target) :
    key ≠ slot ∧ ∀ world, store? { world, slots } slot = some target := by
  obtain ⟨holding, hget, hselect⟩ := Option.bind_eq_some_iff.1 hstore
  rw [Table.get?_erase] at hget
  split at hget
  · cases hget
  · next hne => exact ⟨Ne.symm hne, fun _ => Option.bind_eq_some_iff.2 ⟨holding, hget, hselect⟩⟩

/-- What a store holds is held by the session or is a declared database. -/
theorem Accounts.store_subset {hand : List Token} (hs : session.Accounts databases hand)
    (hstore : session.store? slot = some target) :
    target.tokens ⊆ databases ++ session.tokens := by
  obtain ⟨holding, hget, hselect⟩ := Option.bind_eq_some_iff.1 hstore
  cases holding <;> cases hselect
  · refine List.subset_append_of_subset_left _ fun token hm => ?_
    exact List.mem_singleton.1 hm ▸ hs.proper slot _ hget
  · refine List.subset_append_of_subset_right _ fun token hm => ?_
    exact List.mem_flatMap.2 ⟨_, Table.get?_eq_some_iff.1 hget, hm⟩

/-- Without a store the row meant for it is released. -/
theorem storeFor_apply (taken : Row) (slot : Slot) (session : Session) :
    storeFor taken slot session = match session.store? slot with
      | some target => (.ok target, session)
      | none => (.error (.noSlot slot),
          { session with world := (taken.release session.world).2 }) := by
  have hstore : store slot session = match session.store? slot with
      | some target => (.ok target, session)
      | none => (.error (.noSlot slot), session) := by
    unfold store store?
    rw [look_apply]
    cases session.slots.get? slot with
    | none => rfl
    | some holding => cases holding <;> rfl
  unfold storeFor
  rw [tryCatch_apply, hstore]
  cases session.store? slot <;> rfl

/-- A row that is meant for a store is in hand until there is one. -/
theorem settled_storeFor {f : Store → Step β} (hs : session.Accounts databases [taken.token])
    (hf : ∀ target, session.store? slot = some target → Settled databases tokensOf (f target session)) :
    Settled databases tokensOf ((storeFor taken slot >>= f) session) := by
  rw [attempt_bind_apply, storeFor_apply]
  cases hfound : session.store? slot with
  | some target => exact hf target hfound
  | none => exact hs.after (Row.accounts_release hs.world)

/-- A row that is made and filled is in hand. -/
theorem settled_filledRow {f : Row → Step β} {db : Database} {fields : Assignments}
    (hs : session.Accounts databases []) (hdb : db.token ∈ databases)
    (hf : ∀ filled world, filled.env = db.env →
      Accounts { session with world } databases [filled.token] →
        Settled databases tokensOf (f filled { session with world })) :
    Settled databases tokensOf ((filledRow db fields >>= f) session) := by
  have ha : session.world.Accounts (databases ++ session.tokens) := hs.world
  have hmade := db.accounts_newRow ha (List.mem_append_left _ hdb)
  unfold filledRow
  rw [bind_assoc, attempt_bind_apply, attempt_apply]
  rcases hnew : db.newRow session.world with ⟨failure | row, middle⟩
  · rw [hnew] at hmade
    exact hs.after hmade
  rw [hnew] at hmade
  have hset := hmade.along_run (Row.quiet_setAll row fields).along
  dsimp only
  rw [attempt_bind_apply, tryCatch_apply, attempt_bind_apply, attempt_apply]
  rcases hfilled : row.setAll fields middle with ⟨failure | _, world⟩
  · rw [hfilled] at hset
    exact hs.after (Row.accounts_release hset)
  · rw [hfilled] at hset
    exact hf row world (Database.env_of_newRow hnew) (hs.after hset)

end Rows

/-! ### Commands that hand over rows -/

/-- The command ends with nothing in hand. -/
def SettledBy (session : Session) (databases : List Token) (command : Command) : Prop :=
  Settled databases (fun _ => []) (perform command session)

theorem settled_destroyRow (hs : session.Accounts databases []) (slot : Slot) :
    session.SettledBy databases (.destroyRow slot) := by
  refine settled_takeRow hs fun taken _ htaken => ?_
  exact settled_give htaken (Row.accounts_destroy htaken.world) fun _ _ hafter => hafter

theorem settled_write (hs : session.Accounts databases []) {slot into : Slot} {kind : WriteKind}
    (hd : session.Domestic (.write slot into kind)) :
    session.SettledBy databases (.write slot into kind) := by
  refine settled_takeRow hs fun taken hget htaken => ?_
  refine settled_storeFor htaken fun target hstore => ?_
  have henv : taken.env = target.env := hd taken target hget ((store?_of_erase hstore).2 _)
  exact settled_give htaken
    (Store.accounts_write htaken.world (htaken.store_subset hstore) henv kind)
    fun _ _ hafter => hafter

theorem settled_put (hs : session.Accounts databases []) {db into : Slot} {fields : Assignments}
    {kind : WriteKind} (hd : session.Domestic (.put db into fields kind)) :
    session.SettledBy databases (.put db into fields kind) := by
  refine settled_look hs fun holding held hget hselect => ?_
  cases holding <;> cases hselect
  refine settled_filledRow hs (hs.proper db _ hget) fun made world henv hmade => ?_
  refine settled_storeFor hmade fun target hstore => ?_
  exact settled_give hmade
    (Store.accounts_write hmade.world (hmade.store_subset hstore)
      (henv.trans (hd held target hget hstore)) kind) fun _ _ hafter => hafter

theorem settled_lookup (hs : session.Accounts databases []) {key source into : Slot}
    (hd : session.Domestic (.lookup key source into)) :
    session.SettledBy databases (.lookup key source into) := by
  refine settled_drop hs fun _ world hdropped => ?_
  refine settled_takeRow hdropped fun taken hget htaken => ?_
  refine settled_storeFor htaken fun target hstore => ?_
  have hvacant : ((session.slots.erase into).erase key).get? into = none := by
    rw [Table.get?_erase, Table.get?_erase, if_pos rfl, ite_self]
  rw [Table.get?_erase] at hget
  split at hget
  · cases hget
  next hne =>
  obtain ⟨hinto, hstore⟩ := store?_of_erase ((store?_of_erase hstore).2 world)
  have henv : taken.env = target.env :=
    hd (Ne.symm hne) hinto taken target hget (hstore _)
  exact settled_make .row htaken hvacant (Store.accounts_lookup htaken.world henv) fun _ _ _ => trivial

theorem settled_find (hs : session.Accounts databases []) {db source : Slot} {fields : Assignments}
    (hd : session.Domestic (.find db source fields)) :
    session.SettledBy databases (.find db source fields) := by
  refine settled_look hs fun holding held hget hselect => ?_
  cases holding <;> cases hselect
  refine settled_filledRow hs (hs.proper db _ hget) fun made world henv hmade => ?_
  refine settled_storeFor hmade fun target hstore => ?_
  refine Settled.bind (settled_attempt hmade
    (Store.accounts_lookup hmade.world (henv.trans (hd held target hget hstore))))
    fun found after _ hfound => ?_
  refine settled_lift_along hfound (Row.quiet_dump found held.schema).along fun _ _ hread => ?_
  exact hread.after (Row.accounts_release hread.world)

/-! ### Commands on cursors -/

section

variable {β : Type} {tokensOf : β → List Token}

theorem settled_criteria {clauses : List Clause} {f : CriteriaSet → Step β}
    (hs : session.Accounts databases [])
    (hf : ∀ asked, Settled databases tokensOf (f asked session)) :
    Settled databases tokensOf ((criteria clauses >>= f) session) := by
  unfold criteria
  cases CriteriaSet.build clauses with
  | ok asked => exact hf asked
  | error fault => exact hs

end

/-- The cursor of a slot, apart from what the others hold. -/
theorem Accounts.borrowCursor (hs : session.Accounts databases []) {held : Cursor} {schema : Schema}
    (hget : session.slots.get? slot = some (.cursor held schema)) :
    held.Kept (databases ++ tokensOf (session.slots.erase slot)) session.world :=
  ⟨hs.borrow hget, hs.proper slot _ hget⟩

theorem settled_openCursor (hs : session.Accounts databases []) (db into : Slot)
    (clauses : List Clause) : session.SettledBy databases (.openCursor db into clauses) := by
  refine settled_drop hs fun _ world hdropped => ?_
  refine settled_criteria hdropped fun asked => ?_
  refine settled_look hdropped fun holding held hget hselect => ?_
  cases holding <;> cases hselect
  have ha : world.Accounts (databases ++ Session.tokens { world, slots := session.slots.erase into }) :=
    hdropped.world
  have hopened := held.accounts_openCursor ha
    (List.mem_append_left _ (hdropped.proper db _ hget)) asked
  refine settled_make (fun opened => .cursor opened held.schema) hdropped ?_ ?_ ?_
  · rw [Table.get?_erase, if_pos rfl]
  · rcases hresult : held.openCursor asked world with ⟨failure | opened, after⟩
    · rw [hresult] at hopened
      exact hopened
    · rw [hresult] at hopened
      exact hopened.accounts
  · intro opened after heq
    rw [heq] at hopened
    exact hopened.homely

theorem settled_next (hs : session.Accounts databases []) (slot : Slot) :
    session.SettledBy databases (.next slot) := by
  refine settled_look hs fun holding held hget hselect => ?_
  cases holding <;> cases hselect
  have hnext := Cursor.kept_next (hs.borrowCursor hget)
  refine settled_update hs hnext.accounts hnext.homely fun answer after hafter => ?_
  rcases answer with ⟨failure | _ | found, now⟩
  · exact hafter
  · exact hafter
  · exact settled_lift_along hafter (Row.quiet_dump found _).along fun _ _ hread => hread

theorem settled_forEach (hs : session.Accounts databases []) (slot : Slot) (field : String) :
    session.SettledBy databases (.forEach slot field) := by
  refine settled_look hs fun holding held hget hselect => ?_
  cases holding <;> cases hselect
  have hvisit : ∀ found : Row, Along Conserves (liftM (found.getText field) : Attempt _).run :=
    fun found => (Row.quiet_getText found field).run_lift.along
  have hcollect := Cursor.kept_collect hvisit (hs.borrowCursor hget)
  refine settled_update hs hcollect.accounts hcollect.homely fun answer after hafter => ?_
  rcases answer with ⟨failure | texts, now⟩
  · exact hafter
  · exact hafter

theorem settled_closeCursor (hs : session.Accounts databases []) (slot : Slot) :
    session.SettledBy databases (.closeCursor slot) := by
  refine settled_look hs fun holding held hget hselect => ?_
  cases holding <;> cases hselect
  have hclosed := (Cursor.kept_close (hs.borrowCursor hget)).1
  refine settled_update hs hclosed.accounts hclosed.homely fun answer after hafter => ?_
  rcases answer with ⟨failure | _, now⟩
  · exact hafter
  · exact hafter

theorem settled_scan (hs : session.Accounts databases []) (db : Slot) (clauses : List Clause) :
    session.SettledBy databases (.scan db clauses) := by
  refine settled_criteria hs fun asked => ?_
  refine settled_look hs fun holding held hget hselect => ?_
  cases holding <;> cases hselect
  have ha : session.world.Accounts (databases ++ session.tokens) := hs.world
  have hopened := held.accounts_openCursor ha (List.mem_append_left _ (hs.proper db _ hget)) asked
  unfold scanAll
  rw [attempt_bind_apply, attempt_apply]
  rcases hresult : held.openCursor asked session.world with ⟨failure | opened, world⟩
  · rw [hresult] at hopened
    exact hs.after hopened
  rw [hresult] at hopened
  have hvisit : ∀ found : Row, Along Conserves (liftM (found.dump held.schema) : Attempt _).run :=
    fun found => (Row.quiet_dump found held.schema).run_lift.along
  have hcollect := Cursor.kept_collect hvisit hopened
  dsimp only
  rw [attempt_bind_apply, lift_apply]
  dsimp only
  generalize opened.collect (fun found => liftM (found.dump held.schema)) world = answer at hcollect
  obtain ⟨⟨failure | dumps, now⟩, after⟩ := answer
  · exact hs.after (Cursor.accounts_release hcollect)
  · have hclosed := Cursor.accounts_close hcollect
    dsimp only
    rw [attempt_bind_apply, lift_apply]
    dsimp only
    generalize now.close after = answer at hclosed
    obtain ⟨⟨failure | _, closed⟩, final⟩ := answer
    · exact hs.after hclosed
    · exact hs.after hclosed

/-! ### Commands on transactions -/

theorem settled_begin (hs : session.Accounts databases []) (env into : Slot) :
    session.SettledBy databases (.begin env into) := by
  refine settled_drop hs fun _ world hdropped => ?_
  refine settled_look hdropped fun holding held hget hselect => ?_
  cases holding <;> cases hselect
  refine settled_make .transaction hdropped ?_
    (Environment.accounts_begin hdropped.world) fun _ _ _ => trivial
  rw [Table.get?_erase, if_pos rfl]

theorem settled_commit (hs : session.Accounts databases []) (slot : Slot) :
    session.SettledBy databases (.commit slot) := by
  refine settled_look hs fun holding held hget hselect => ?_
  cases holding <;> cases hselect
  exact settled_update hs (Transaction.accounts_commit (hs.borrow hget)) trivial
    fun answer after hafter => hafter

theorem settled_rollback (hs : session.Accounts databases []) (slot : Slot) :
    session.SettledBy databases (.rollback slot) := by
  refine settled_look hs fun holding held hget hselect => ?_
  cases holding <;> cases hselect
  have htaken := hs.take hget
  exact settled_give htaken (Transaction.accounts_rollback htaken.world) fun _ _ hafter => hafter

/-! ### Commands on environments -/

theorem settled_createEnvironment (hs : session.Accounts databases []) (into : Slot)
    (path? : Option String) (policy : CachePolicy) (termination : Termination) :
    session.SettledBy databases (.createEnvironment into path? policy termination) := by
  refine settled_drop hs fun _ world hdropped => ?_
  have hcreated := Environment.accounts_create hdropped.world path? policy termination
  refine settled_make .environment hdropped ?_ ?_ fun _ _ _ => trivial
  · rw [Table.get?_erase, if_pos rfl]
  · rw [show (fun env => (Holding.environment env).tokens) = fun _ => [] from rfl, made_nil]
    exact hcreated

theorem settled_newRow (hs : session.Accounts databases []) (db into : Slot) :
    session.SettledBy databases (.newRow db into) := by
  refine settled_drop hs fun _ world hdropped => ?_
  refine settled_look hdropped fun holding held hget hselect => ?_
  cases holding <;> cases hselect
  have ha : world.Accounts (databases ++ Session.tokens { world, slots := session.slots.erase into }) :=
    hdropped.world
  refine settled_make .row hdropped ?_ (held.accounts_newRow ha
    (List.mem_append_left _ (hdropped.proper db _ hget))) fun _ _ _ => trivial
  rw [Table.get?_erase, if_pos rfl]

/-- A call on the merge functions of an environment closes nothing. -/
theorem callRegistry_apply (hs : session.Accounts databases []) (env : Environment)
    (call : RegistryCall) :
    ∃ answer world, callRegistry env call session = (.ok answer, { session with world }) ∧
      Accounts { session with world } databases [] := by
  cases call with
  | register f => exact ⟨_, _, rfl, hs.after (hs.world.along (env.along_register f))⟩
  | unregister token => exact ⟨_, _, rfl, hs.after (hs.world.along (env.along_unregister token))⟩
  | clear => exact ⟨_, _, rfl, hs.after (hs.world.along env.along_clearRegistry)⟩
  | look => exact ⟨_, _, rfl, hs⟩

theorem settled_registry (hs : session.Accounts databases []) (env : Slot) (call : RegistryCall) :
    session.SettledBy databases (.registry env call) := by
  refine settled_look hs fun holding held hget hselect => ?_
  obtain ⟨answer, world, hcall, hafter⟩ := callRegistry_apply hs held call
  rw [attempt_bind_apply, hcall]
  exact hafter

/-! ### Every command -/

/-- A command that declares no database ends with nothing in hand. -/
theorem settled_perform (hs : session.Accounts databases []) {command : Command}
    (hd : session.Domestic command)
    (hdeclares : ∀ env into name fields? merge?,
      command ≠ .declareDatabase env into name fields? merge?) :
    session.SettledBy databases command := by
  cases command with
  | createEnvironment into path? policy termination =>
    exact settled_createEnvironment hs into path? policy termination
  | declareDatabase env into name fields? merge? => exact (hdeclares _ _ _ _ _ rfl).elim
  | setSetting env path value =>
    refine settled_look hs fun holding held hget hselect => ?_
    exact settled_attempt_along hs (Environment.quiet_set held path value).along fun _ _ hafter => hafter
  | getSetting env path =>
    refine settled_look hs fun holding held hget hselect => ?_
    refine settled_lift_along hs (Environment.quiet_getText held path).along fun _ _ hread => ?_
    exact settled_lift_along hread (Environment.quiet_getInt held path).along fun _ _ hafter => hafter
  | openEnvironment env =>
    refine settled_look hs fun holding held hget hselect => ?_
    exact settled_attempt_along hs (Environment.quiet_openUp held).along fun _ _ hafter => hafter
  | closeEnvironment env =>
    refine settled_look hs fun holding held hget hselect => ?_
    exact settled_give hs (Environment.accounts_close hs.world) fun _ _ hafter => hafter
  | diagnostic env =>
    refine settled_look hs fun holding held hget hselect => ?_
    refine settled_lift_along hs (Environment.quiet_error held).along fun _ _ hread => ?_
    exact settled_lift_along hread (Routine.isClosed held.handle).along fun _ _ hafter => hafter
  | registry env call => exact settled_registry hs env call
  | cache env keys => exact settled_look hs fun holding held hget hselect => hs
  | advance ns =>
    exact hs.after (hs.world.conserves (.of_engine ⟨fun hr => hr.advance ns, id, fun _ => rfl⟩ rfl rfl))
  | plan primitive entries => exact hd.elim
  | drop slot =>
    refine settled_drop hs fun dropped world hdropped => ?_
    cases dropped with
    | true => exact hdropped
    | false => exact hdropped
  | summary slot =>
    show Settled databases _ (look slot _ session)
    rw [look_apply]
    generalize (session.slots.get? slot).bind _ = found
    cases found with
    | none => exact hs
    | some answer => exact hs
  | newRow db into => exact settled_newRow hs db into
  | setField row field value =>
    refine settled_look hs fun holding held hget hselect => ?_
    exact settled_attempt_along hs (Row.quiet_set held field value).along fun _ _ hafter => hafter
  | getField row field kind =>
    refine settled_look hs fun holding held hget hselect => ?_
    exact settled_lift_along hs (Row.quiet_get held field kind).along fun _ _ hafter => hafter
  | readField row field =>
    refine settled_look hs fun holding held hget hselect => ?_
    refine settled_lift_along hs (Row.quiet_getWord held field).along fun _ _ hs => ?_
    refine settled_lift_along hs (Row.quiet_getWord held field).along fun _ _ hs => ?_
    refine settled_lift_along hs (Row.quiet_getBytes held field).along fun _ _ hs => ?_
    exact settled_lift_along hs (Row.quiet_getText held field).along fun _ _ hafter => hafter
  | destroyRow row => exact settled_destroyRow hs row
  | write row store kind => exact settled_write hs hd
  | lookup key store into => exact settled_lookup hs hd
  | put db store fields kind => exact settled_put hs hd
  | find db store fields => exact settled_find hs hd
  | openCursor db into criteria => exact settled_openCursor hs db into criteria
  | next cursor => exact settled_next hs cursor
  | forEach cursor field => exact settled_forEach hs cursor field
  | closeCursor cursor => exact settled_closeCursor hs cursor
  | cursorState cursor => exact settled_look hs fun holding held hget hselect => hs
  | scan db criteria => exact settled_scan hs db criteria
  | begin env into => exact settled_begin hs env into
  | commit tx => exact settled_commit hs tx
  | rollback tx => exact settled_rollback hs tx

/-- A declaration fails, or the session holds the database that was declared. -/
theorem declareDatabase_cases (hs : session.Accounts databases []) (env into : Slot) (name : String)
    (fields? : Option (List Field)) (merge? : Option MergeFn) :
    (∃ trouble after, session.step (.declareDatabase env into name fields? merge?) =
        (.error trouble, after) ∧ after.Accounts databases []) ∨
      ∃ (held : Environment) (db : Database) (after : Session),
        session.slots.get? env = some (.environment held) ∧ db.env = held.handle ∧
        session.step (.declareDatabase env into name fields? merge?) =
          (.ok (.database db.handle db.name db.token?.isSome db.schema.size), after) ∧
        after.Accounts (db.token :: databases) [] := by
  obtain ⟨dropped, world, hdrop, hdropped⟩ := drop_apply hs into
  have hvacant : (session.slots.erase into).get? into = none := by
    rw [Table.get?_erase, if_pos rfl]
  have hstep : session.step (.declareDatabase env into name fields? merge?) =
      (do
        let held ← environment env
        let schema ← attempt (check (schemaOf fields?))
        let db ← attempt (held.newDatabase name schema merge?)
        hold into (.database db)
        return .database db.handle db.name db.token?.isSome db.schema.size : Step Answer)
        { world, slots := session.slots.erase into } := by
    show (drop into >>= fun _ => _ : Step Answer) session = _
    rw [attempt_bind_apply, hdrop]
  rw [hstep, attempt_bind_apply, environment, look_apply]
  generalize hfound : ((session.slots.erase into).get? env).bind _ = found
  cases found with
  | none => exact .inl ⟨_, _, rfl, hdropped⟩
  | some held =>
    obtain ⟨holding, hget, hselect⟩ := Option.bind_eq_some_iff.1 hfound
    cases holding <;> cases hselect
    rw [Table.get?_erase] at hget
    split at hget
    · cases hget
    dsimp only
    rw [attempt_bind_apply, attempt_apply]
    cases hschema : schemaOf fields? with
    | error failure => exact .inl ⟨_, _, rfl, hdropped⟩
    | ok schema =>
      have hchecked : check (.ok schema) world = (.ok schema, world) := rfl
      dsimp only
      rw [hchecked]
      dsimp only
      rw [attempt_bind_apply, attempt_apply]
      have hdeclared := held.accounts_newDatabase hdropped.world name schema merge?
      rcases hnew : held.newDatabase name schema merge? world with ⟨failure | db, after⟩
      · rw [hnew] at hdeclared
        exact .inl ⟨_, _, rfl, hdropped.after hdeclared⟩
      · rw [hnew] at hdeclared
        exact .inr ⟨held, db, _, hget, Environment.env_of_newDatabase hnew, rfl,
          (hdropped.after hdeclared).declare.hold List.mem_cons_self hvacant⟩

/-- After a command the books balance with the databases declared so far. -/
theorem accounts_step (hs : session.Accounts databases []) {command : Command}
    (hd : session.Domestic command) :
    (session.step command).2.Accounts (session.declaredBy command ++ databases) [] := by
  by_cases hdeclares : ∃ env into name fields? merge?,
      command = .declareDatabase env into name fields? merge?
  · obtain ⟨env, into, name, fields?, merge?, rfl⟩ := hdeclares
    rcases declareDatabase_cases hs env into name fields? merge? with
      ⟨trouble, after, hstep, hafter⟩ | ⟨held, db, after, hget, henv, hstep, hafter⟩
    · rw [declaredBy, hstep]
      exact hafter
    · rw [declaredBy, hstep, hget]
      rw [Database.token, henv] at hafter
      exact hafter
  · have hsettled := settled_perform hs hd fun env into name fields? merge? heq =>
      hdeclares ⟨env, into, name, fields?, merge?, heq⟩
    have hnone : session.declaredBy command = [] := by
      cases command with
      | declareDatabase env into name fields? merge? => exact absurd ⟨_, _, _, _, _, rfl⟩ hdeclares
      | _ => rfl
    rw [hnone]
    unfold SettledBy Settled at hsettled
    rw [made_nil] at hsettled
    exact hsettled

/-- After a run the books balance with the databases that it declared and those declared before. -/
theorem accounts_run : ∀ (commands : List Command) {session : Session} {databases : List Token},
    session.Accounts databases [] → session.StaysHome commands →
      (session.run commands).2.Accounts (session.declared commands ++ databases) []
  | [], _, _, hs, _ => hs
  | command :: commands, session, databases, hs, ⟨hd, hrest⟩ => by
    have hrun := accounts_run commands (accounts_step hs hd) hrest
    rw [← List.append_assoc] at hrun
    exact hrun

/-! ### Released once -/

theorem accounts_start : Accounts {} [] [] := ⟨.start, nofun⟩

/-- The live objects of an environment that is not closed are the environment, its databases, and an
object for every row, cursor and transaction of it that the session holds; an environment that is closed
owns nothing; and nothing was handed twice to a call that takes it. -/
structure Released (session : Session) (databases : List Token) : Prop where
  owned : ∀ e, (session.world.link e).closed = false →
    (session.world.engine.objects.owned e).Perm
      ((e, .environment) :: entrusted e (databases ++ session.tokens))
  closed : ∀ e, (session.world.link e).closed = true → session.world.engine.objects.owned e = []
  once : session.world.consumed.Nodup

theorem Accounts.released (hs : session.Accounts databases []) : session.Released databases where
  owned _ hopen := hs.world.balanced.owned_perm hopen
  closed e hclosed := hs.world.balanced.owned_eq_nil (by rw [hclosed]; exact Bool.noConfusion)
  once := hs.world.balanced.once

/-- After any commands of a session that stays at home, what it holds is what there is, and nothing was
released twice. -/
theorem released_once (commands : List Command) (h : StaysHome {} commands) :
    (run {} commands).2.Released (declared {} commands) := by
  have hrun := accounts_run commands accounts_start h
  rw [List.append_nil] at hrun
  exact hrun.released

/-- A session that puts an order, finds it, drops a cursor in the middle of a scan, commits a transaction
and closes the environment while it holds a row. -/
def program : List Command := [
  .createEnvironment "shop" none .static .early,
  .declareDatabase "shop" "orders" "orders" none none,
  .openEnvironment "shop",
  .put "orders" "orders" [("key", .str [1])] .put,
  .find "orders" "orders" [("key", .str [1])],
  .openCursor "orders" "cursor" [],
  .next "cursor",
  .drop "cursor",
  .begin "shop" "transaction",
  .commit "transaction",
  .newRow "orders" "row",
  .closeEnvironment "shop",
  .destroyRow "row"]

/-- A database is a store of its own environment. -/
theorem env_of_same {held : Database} {target : Store}
    (hget : session.slots.get? slot = some (.database held))
    (hstore : session.store? slot = some target) : held.env = target.env := by
  rw [store?, hget] at hstore
  cases hstore
  rfl

theorem program_released : StaysHome {} program ∧
    (run {} program).2.Released (declared {} program) := by
  have hhome : StaysHome {} program :=
    ⟨trivial, trivial, trivial, fun _ _ => env_of_same, fun _ _ => env_of_same, trivial, trivial,
      trivial, trivial, trivial, trivial, trivial, trivial, trivial⟩
  exact ⟨hhome, released_once program hhome⟩

end RowStore.Session
