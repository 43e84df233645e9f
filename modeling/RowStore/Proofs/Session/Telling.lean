/-
# Commands tell their own causes

A command that plans no call to fail makes moves only. If it fails with a text of the engine, the text is
that of the last call that was made while the command was carried out, but for those that tidy up.

Key definitions: `Session.Candid`.
Key theorems: `Session.candid_perform`, `Session.leads_step`.
-/
import RowStore.Proofs.Client.Telling
import RowStore.Proofs.Session.Books

namespace RowStore.Session

open Client

/-- The failure of a client operation that a step ended with, if it did. -/
def failure? : Except Trouble α → Option Failure
  | .error (.failure failure) => some failure
  | _ => none

/-- What the step does to the world is steps of one kind. -/
def Via (R : World → World → Prop) (x : Step α) : Prop :=
  ∀ session : Session, Relation.ReflTransGen R session.world (x session).2.world

/-- The step makes moves only. -/
abbrev Goes (x : Step α) : Prop := Via World.Move x

/-- The step only tidies up. -/
abbrev Tidies (x : Step α) : Prop := Via World.Tidy x

/-- The step makes moves only, and if it fails with a text of the engine without a call being planned to
fail, then the last call that it made, but for those that tidy up, was refused with that text. -/
structure Candid (x : Step α) : Prop where
  goes : Goes x
  raises : ∀ session : Session, session.world.Reachable → session.world.FaultFree →
    ∀ operation message, failure? (x session).1 = some (.engine operation message) →
      session.world.Raises (x session).2.world message

variable {α β : Type}

/-- A step passes a failure on as it is. -/
theorem failure?_error (trouble : Trouble) : failure? (.error trouble : Except Trouble α) =
    failure? (.error trouble : Except Trouble β) := by
  cases trouble <;> rfl

/-! ### Steps in sequence -/

theorem candid_pure (a : α) : Candid (pure a : Step α) := ⟨fun _ => .refl, by rintro _ _ _ _ _ ⟨⟩⟩

theorem candid_throw {trouble : Trouble} (h : ∀ operation message,
    trouble ≠ .failure (.engine operation message)) : Candid (throw trouble : Step α) where
  goes _ := .refl
  raises _ _ _ operation message hfail := by
    cases trouble with
    | failure failure =>
      cases hfail
      exact absurd rfl (h operation message)
    | rejected fault => cases hfail
    | noSlot slot => cases hfail

theorem Via.bind {R : World → World → Prop} {x : Step α} {f : α → Step β} (hx : Via R x)
    (hf : ∀ a, Via R (f a)) : Via R (x >>= f) := fun session => by
  rw [attempt_bind_apply]
  have hfirst := hx session
  rcases hresult : x session with ⟨trouble | a, after⟩
  · rw [hresult] at hfirst
    exact hfirst
  · rw [hresult] at hfirst
    exact hfirst.trans (hf a after)

theorem Candid.bind {x : Step α} {f : α → Step β} (hx : Candid x) (hf : ∀ a, Candid (f a)) :
    Candid (x >>= f) where
  goes := hx.goes.bind fun a => (hf a).goes
  raises session hr hff operation message hfail := by
    rw [attempt_bind_apply] at hfail ⊢
    have hfirst : session.world.Leads (x session).2.world := hx.goes session
    have hraises := hx.raises session hr hff operation message
    rcases hresult : x session with ⟨trouble | a, after⟩
    · rw [hresult] at hfail hraises
      exact hraises ((failure?_error trouble).trans hfail)
    · rw [hresult] at hfail hfirst
      exact ((hf a).raises after (hfirst.reachable hr) (hfirst.faultFree hff) operation message
        hfail).of_leads hfirst

/-- What is cleaned up after a failure does not replace it. -/
theorem Candid.cleanup {x : Step α} {cleaning : Client Unit} (hx : Candid x)
    (hc : Client.Tidies cleaning) :
    Candid (tryCatch x fun trouble => do
      lift cleaning
      throw trouble) where
  goes session := by
    rw [tryCatch_apply]
    have hfirst := hx.goes session
    rcases hresult : x session with ⟨trouble | a, after⟩
    · rw [hresult] at hfirst
      exact hfirst.trans (hc.goes after.world)
    · rw [hresult] at hfirst
      exact hfirst
  raises session hr hff operation message hfail := by
    rw [tryCatch_apply] at hfail ⊢
    have hraises := hx.raises session hr hff operation message
    rcases hresult : x session with ⟨trouble | a, after⟩
    · rw [hresult] at hfail hraises
      exact (hraises hfail).tidies (hc after.world)
    · rw [hresult] at hfail
      cases hfail

/-! ### Slots -/

/-- A step that leaves the world alone and fails with no text of the engine. -/
theorem candid_of_world {x : Step α} (hworld : ∀ session, (x session).2.world = session.world)
    (hnone : ∀ session operation message,
      failure? (x session).1 ≠ some (.engine operation message)) : Candid x where
  goes session := by rw [hworld]
  raises session _ _ operation message hfail := absurd hfail (hnone session operation message)

theorem candid_held? (slot : Slot) : Candid (held? slot) :=
  candid_of_world (fun _ => rfl) (by rintro _ _ _ ⟨⟩)

theorem candid_get : Candid (get : Step Session) :=
  candid_of_world (fun _ => rfl) (by rintro _ _ _ ⟨⟩)

theorem candid_hold (slot : Slot) (holding : Holding) : Candid (hold slot holding) :=
  candid_of_world (fun _ => rfl) (by rintro _ _ _ ⟨⟩)

theorem candid_empty (slot : Slot) : Candid (empty slot) :=
  candid_of_world (fun _ => rfl) (by rintro _ _ _ ⟨⟩)

theorem candid_look (slot : Slot) (select : Holding → Option α) : Candid (look slot select) :=
  (candid_held? slot).bind fun holding? => by
    cases holding?.bind select with
    | some a => exact candid_pure a
    | none => exact candid_throw (by rintro _ _ ⟨⟩)

theorem candid_takeRow (slot : Slot) : Candid (takeRow slot) :=
  (candid_look _ _).bind fun _ => (candid_empty slot).bind fun _ => candid_pure _

theorem candid_criteria (clauses : List Clause) : Candid (criteria clauses) := by
  unfold criteria
  cases CriteriaSet.build clauses with
  | ok asked => exact candid_pure asked
  | error fault => exact candid_throw (by rintro _ _ ⟨⟩)

/-! ### Operations of clients -/

theorem via_lift {R : World → World → Prop} {x : Client α} (hx : Client.Via R x) :
    Via R (lift x) := fun session => hx session.world

/-- Tidying up is moves. -/
theorem Tidies.goes {x : Step α} (hx : Tidies x) : Goes x := fun session =>
  World.Tidies.leads (hx session)

theorem candid_lift {x : Client α} (hx : Client.Goes x) : Candid (lift x) :=
  ⟨via_lift hx, by rintro _ _ _ _ _ ⟨⟩⟩

/-- An operation that may have failed in its own way, and what makes of it. -/
theorem candid_follow {x : Client α} {failureOf : α → Option Failure} {f : α → Step β}
    (hx : Tells failureOf x) (hf : ∀ a, Candid (f a) ∨ Tidies (f a) ∧ ∀ session operation message,
      failure? (f a session).1 = some (.engine operation message) →
        failureOf a = some (.engine operation message)) : Candid (lift x >>= f) where
  goes := (via_lift hx.goes).bind fun a => (hf a).elim Candid.goes fun h => h.1.goes
  raises session hr hff operation message hfail := by
    have hfirst : session.world.Leads (x session.world).2 := hx.goes session.world
    rcases hf (x session.world).1 with hsecond | ⟨hsecond, hpasses⟩
    · exact (hsecond.raises _ (hfirst.reachable hr) (hfirst.faultFree hff) operation message
        hfail).of_leads hfirst
    · exact (hx.raises session.world hr hff operation message
        (hpasses _ operation message hfail)).tidies
          (hsecond { session with world := (x session.world).2 })

theorem candid_attempt {x : Attempt α} (hx : Honest x) : Candid (attempt x) :=
  candid_follow hx fun result => by
    cases result with
    | ok a => exact .inl (candid_pure a)
    | error failure => exact .inr ⟨fun _ => .refl, fun _ _ _ => id⟩

theorem tidies_release : ∀ holding : Holding, Client.Tidies holding.release
  | .environment held => Environment.tidies_release held
  | .database _ => via_pure ()
  | .row held => Row.tidies_release held
  | .cursor held _ => Cursor.tidies_release held
  | .transaction held => Transaction.tidies_release held

theorem candid_drop (slot : Slot) : Candid (drop slot) :=
  (candid_held? slot).bind fun holding? => by
    cases holding? with
    | none => exact candid_pure false
    | some holding =>
      refine (candid_empty slot).bind fun _ => ?_
      exact (candid_lift (tidies_release holding).goes).bind fun _ => candid_pure true

theorem candid_storeFor (taken : Row) (slot : Slot) : Candid (storeFor taken slot) :=
  (candid_look slot _).cleanup (Row.tidies_release taken)

theorem candid_filledRow (db : Database) (fields : Assignments) : Candid (filledRow db fields) := by
  refine (candid_attempt db.honest_newRow).bind fun made => ?_
  refine Candid.cleanup ?_ (Row.tidies_release made)
  exact (candid_attempt (Row.honest_setAll made fields)).bind fun _ => candid_pure made

/-! ### Commands -/

theorem private_schemaOf (fields? : Option (List Field)) : Private (schemaOf fields?) := by
  cases fields? with
  | none => rintro _ _ ⟨⟩
  | some fields =>
    refine private_foldlM (fun (schema : Schema) field => ?_) fields {}
    cases schema.add? field with
    | some schema => rintro _ _ ⟨⟩
    | none => rintro _ _ ⟨⟩

theorem candid_callRegistry (env : Environment) (call : RegistryCall) :
    Candid (callRegistry env call) := by
  cases call with
  | register f => exact (candid_lift (Environment.goes_register env f)).bind fun _ => candid_pure _
  | unregister token =>
    exact (candid_lift (Environment.goes_unregister env token)).bind fun _ => candid_pure _
  | clear => exact (candid_lift (Environment.goes_clearRegistry env)).bind fun _ => candid_pure _
  | look => exact candid_pure _

theorem candid_advance (slot : Slot) : Candid (advance slot) := by
  refine (candid_look _ _).bind fun (current, schema) => ?_
  refine candid_follow (Cursor.tells_next current) fun answer => ?_
  obtain ⟨failure | _ | found, current⟩ := answer
  · exact .inr ⟨fun _ => .refl, fun _ _ _ => id⟩
  · exact .inl ((candid_hold _ _).bind fun _ => candid_pure _)
  · refine .inl ((candid_hold _ _).bind fun _ => ?_)
    exact (candid_lift (Row.goes_dump found schema)).bind fun _ => candid_pure _

theorem candid_visit (slot : Slot) (field : String) : Candid (visit slot field) := by
  refine (candid_look _ _).bind fun (current, schema) => ?_
  refine candid_follow (Cursor.tells_collect
    (fun found => honest_lift (Row.goes_getText found field)) current) fun answer => ?_
  obtain ⟨failure | texts, current⟩ := answer
  · exact .inr ⟨fun _ => .refl, fun _ _ _ => id⟩
  · exact .inl ((candid_hold _ _).bind fun _ => candid_pure _)

theorem candid_closeCursor (slot : Slot) : Candid (perform (.closeCursor slot)) := by
  refine (candid_look _ _).bind fun (opened, schema) => ?_
  refine candid_follow (Cursor.tells_close opened) fun answer => ?_
  obtain ⟨failure | _, opened⟩ := answer
  · exact .inr ⟨fun _ => .refl, fun _ _ _ => id⟩
  · exact .inl ((candid_hold _ _).bind fun _ => candid_pure _)

theorem candid_scanAll (db : Database) (asked : CriteriaSet) : Candid (scanAll db asked) := by
  refine (candid_attempt (db.honest_openCursor asked)).bind fun opened => ?_
  refine candid_follow (Cursor.tells_collect
    (fun found => honest_lift (Row.goes_dump found db.schema)) opened) fun answer => ?_
  obtain ⟨failure | dumps, opened⟩ := answer
  · exact .inr ⟨(via_lift (Cursor.tidies_release opened)).bind fun _ => fun _ => .refl,
      fun _ _ _ => id⟩
  · refine .inl (candid_follow (Cursor.tells_close opened) fun closed => ?_)
    obtain ⟨failure | _, closed⟩ := closed
    · exact .inr ⟨fun _ => .refl, fun _ _ _ => id⟩
    · exact .inl (candid_pure _)

/-- The command plans no call to fail. -/
def Command.IsFair : Command → Prop
  | .plan _ _ => False
  | _ => True

/-- A command that plans no call to fail makes moves only and tells its own cause. -/
theorem candid_perform {command : Command} (hfair : command.IsFair) : Candid (perform command) := by
  cases command with
  | createEnvironment into path? policy termination =>
    refine (candid_drop into).bind fun _ => ?_
    refine (candid_attempt (Environment.honest_create _ _ _)).bind fun env => ?_
    exact (candid_hold _ _).bind fun _ => candid_pure _
  | setSetting env path value =>
    refine (candid_look env _).bind fun env => ?_
    exact (candid_attempt (Environment.honest_set env path value)).bind fun _ => candid_pure _
  | getSetting env path =>
    refine (candid_look env _).bind fun env => ?_
    refine (candid_lift (Environment.goes_getText env path)).bind fun _ => ?_
    exact (candid_lift (Environment.goes_getInt env path)).bind fun _ => candid_pure _
  | declareDatabase env into name fields? merge? =>
    refine (candid_drop into).bind fun _ => (candid_look env _).bind fun env => ?_
    refine (candid_attempt (honest_check (private_schemaOf fields?))).bind fun schema => ?_
    refine (candid_attempt (Environment.honest_newDatabase _ _ _ _)).bind fun db => ?_
    exact (candid_hold _ _).bind fun _ => candid_pure _
  | openEnvironment env =>
    refine (candid_look env _).bind fun env => ?_
    exact (candid_attempt (Environment.honest_openUp env)).bind fun _ => candid_pure _
  | closeEnvironment env =>
    refine (candid_look env _).bind fun env => ?_
    exact (candid_attempt (Environment.honest_close env)).bind fun _ => candid_pure _
  | diagnostic env =>
    refine (candid_look env _).bind fun env => ?_
    refine (candid_lift (Environment.goes_error env)).bind fun _ => ?_
    exact (candid_lift (via_isClosed _)).bind fun _ => candid_pure _
  | registry env call =>
    refine (candid_look env _).bind fun env => ?_
    refine (candid_callRegistry env call).bind fun _ => ?_
    exact candid_get.bind fun _ => candid_pure _
  | cache env keys =>
    exact (candid_look env _).bind fun env => candid_get.bind fun _ => candid_pure _
  | advance ns =>
    exact ⟨fun _ => .single (.advance ns), by rintro _ _ _ _ _ ⟨⟩⟩
  | plan primitive entries => exact hfair.elim
  | drop slot =>
    refine (candid_drop slot).bind fun dropped => ?_
    cases dropped with
    | true => exact candid_pure _
    | false => exact candid_throw (by rintro _ _ ⟨⟩)
  | summary slot => exact candid_look slot _
  | newRow db into =>
    refine (candid_drop into).bind fun _ => (candid_look db _).bind fun db => ?_
    refine (candid_attempt db.honest_newRow).bind fun made => ?_
    exact (candid_hold _ _).bind fun _ => candid_pure _
  | setField slot field value =>
    refine (candid_look slot _).bind fun held => ?_
    exact (candid_attempt (Row.honest_set held field value)).bind fun _ => candid_pure _
  | getField slot field kind =>
    refine (candid_look slot _).bind fun held => ?_
    exact (candid_lift (Row.goes_get held field kind)).bind fun _ => candid_pure _
  | readField slot field =>
    refine (candid_look slot _).bind fun held => ?_
    refine (candid_lift (Row.goes_getWord held field)).bind fun _ => ?_
    refine (candid_lift (Row.goes_getWord held field)).bind fun _ => ?_
    refine (candid_lift (Row.goes_getBytes held field)).bind fun _ => ?_
    exact (candid_lift (Row.goes_getText held field)).bind fun _ => candid_pure _
  | destroyRow slot =>
    refine (candid_takeRow slot).bind fun taken => ?_
    exact (candid_attempt (Row.honest_destroy taken)).bind fun _ => candid_pure _
  | write slot into kind =>
    refine (candid_takeRow slot).bind fun taken => ?_
    refine (candid_storeFor taken into).bind fun target => ?_
    exact (candid_attempt (Store.honest_write target taken kind)).bind fun _ => candid_pure _
  | lookup key source into =>
    refine (candid_drop into).bind fun _ => (candid_takeRow key).bind fun taken => ?_
    refine (candid_storeFor taken source).bind fun target => ?_
    refine (candid_attempt (Store.honest_lookup target taken)).bind fun found => ?_
    exact (candid_hold _ _).bind fun _ => candid_pure _
  | put db into fields kind =>
    refine (candid_look db _).bind fun db => (candid_filledRow db fields).bind fun made => ?_
    refine (candid_storeFor made into).bind fun target => ?_
    exact (candid_attempt (Store.honest_write target made kind)).bind fun _ => candid_pure _
  | find db source fields =>
    refine (candid_look db _).bind fun db => (candid_filledRow db fields).bind fun key => ?_
    refine (candid_storeFor key source).bind fun target => ?_
    refine (candid_attempt (Store.honest_lookup target key)).bind fun found => ?_
    refine (candid_lift (Row.goes_dump found db.schema)).bind fun _ => ?_
    exact (candid_lift (Row.tidies_release found).goes).bind fun _ => candid_pure _
  | openCursor db into clauses =>
    refine (candid_drop into).bind fun _ => (candid_criteria clauses).bind fun asked => ?_
    refine (candid_look db _).bind fun db => ?_
    refine (candid_attempt (db.honest_openCursor asked)).bind fun opened => ?_
    exact (candid_hold _ _).bind fun _ => candid_pure _
  | next slot => exact candid_advance slot
  | forEach slot field => exact candid_visit slot field
  | closeCursor slot => exact candid_closeCursor slot
  | cursorState slot => exact (candid_look slot _).bind fun _ => candid_pure _
  | scan db clauses =>
    refine (candid_criteria clauses).bind fun asked => (candid_look db _).bind fun db => ?_
    exact candid_scanAll db asked
  | begin env into =>
    refine (candid_drop into).bind fun _ => (candid_look env _).bind fun env => ?_
    refine (candid_attempt (Environment.honest_begin env)).bind fun tx => ?_
    exact (candid_hold _ _).bind fun _ => candid_pure _
  | commit slot =>
    refine (candid_look slot _).bind fun tx => ?_
    refine (candid_lift (Transaction.goes_commit tx)).bind fun (status, tx) => ?_
    exact (candid_hold _ _).bind fun _ => candid_pure _
  | rollback slot =>
    refine (candid_look slot _).bind fun tx => (candid_empty slot).bind fun _ => ?_
    exact (candid_attempt (Transaction.honest_rollback tx)).bind fun _ => candid_pure _

/-- A command that plans no call to fail leads on from the world before it. -/
theorem leads_step (session : Session) {command : Command} (hfair : command.IsFair) :
    session.world.Leads (session.step command).2.world := (candid_perform hfair).goes session

end RowStore.Session
