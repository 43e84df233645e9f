/-
# Commands leave no acquisition behind

Whatever a session did before, whatever it acquired by hand from the caches of its environments, and
whichever calls are planned to fail: a command, successful or not, leaves every text of an environment
with the acquisitions it had, under every policy, unless it closes that environment, by hand or by
dropping it while it is open. So in a session that acquires nothing by hand nothing is outstanding
between two commands.

Key definitions: `Session.Command.vacates?`, `Session.Closes`, `Session.Visited`.
Key theorems: `Session.even_perform`, `Session.heldFor_run`, `Session.refs?_step`.
-/
import RowStore.Proofs.Client.Balance
import RowStore.Proofs.Session.Closing

namespace RowStore.Session

open Client
open World (Even)

variable {α β : Type} {session : Session} {e : Handle}

/-! ### Steps that are made of routines -/

section Via

variable {R : World → World → Prop}

theorem via_of_world {x : Step α} (hworld : ∀ session, (x session).2.world = session.world) :
    Via R x := fun session => by rw [hworld]

theorem via_pure (a : α) : Via R (pure a : Step α) := via_of_world fun _ => rfl

theorem via_get : Via R (get : Step Session) := via_of_world fun _ => rfl

theorem via_hold (slot : Slot) (holding : Holding) : Via R (hold slot holding) :=
  via_of_world fun _ => rfl

theorem via_empty (slot : Slot) : Via R (empty slot) := via_of_world fun _ => rfl

theorem via_look (slot : Slot) (select : Holding → Option α) : Via R (look slot select) :=
  via_of_world fun session => by
    rw [look_apply]
    split <;> rfl

theorem via_takeRow (slot : Slot) : Via R (takeRow slot) :=
  (via_look _ _).bind fun _ => (via_empty slot).bind fun _ => via_pure _

theorem via_criteria (clauses : List Clause) : Via R (criteria clauses) := by
  unfold criteria
  cases CriteriaSet.build clauses with
  | ok asked => exact via_pure asked
  | error fault => exact via_of_world fun _ => rfl

theorem via_attempt {x : Attempt α} (hx : Client.Via R x.run) : Via R (attempt x) :=
  (via_lift hx).bind fun result => by
    cases result with
    | ok a => exact via_pure a
    | error failure => exact via_of_world fun _ => rfl

/-- What is cleaned up after a failure. -/
theorem Via.cleanup {x : Step α} {cleaning : Client Unit} (hx : Via R x)
    (hc : Client.Via R cleaning) :
    Via R (tryCatch x fun trouble => do
      lift cleaning
      throw trouble) := fun session => by
  rw [tryCatch_apply]
  have hfirst := hx session
  rcases hresult : x session with ⟨trouble | a, after⟩
  · rw [hresult] at hfirst
    exact hfirst.trans (hc after.world)
  · rw [hresult] at hfirst
    exact hfirst

/-- A slot is dropped, and then more is done. -/
theorem via_drop_bind {slot : Slot} {f : Bool → Step β}
    (hdrop : Relation.ReflTransGen R session.world (drop slot session).2.world)
    (hf : ∀ b, Via R (f b)) :
    Relation.ReflTransGen R session.world ((drop slot >>= f) session).2.world := by
  rw [attempt_bind_apply]
  rcases hresult : drop slot session with ⟨trouble | dropped, after⟩
  · rw [hresult] at hdrop
    exact hdrop
  · rw [hresult] at hdrop
    exact hdrop.trans (hf dropped after)

/-- A command that closes an environment keeps to a relation if closing it does. -/
theorem via_closeEnvironment {slot : Slot}
    (hclose : ∀ env, session.slots.get? slot = some (.environment env) →
      Relation.ReflTransGen R session.world (env.close session.world).2) :
    Relation.ReflTransGen R session.world (perform (.closeEnvironment slot) session).2.world := by
  show Relation.ReflTransGen R session.world
    ((environment slot >>= fun env => attempt env.close >>= fun _ => pure .done : Step Answer)
      session).2.world
  rw [attempt_bind_apply, environment, look_apply]
  cases hget : session.slots.get? slot with
  | none => exact .refl
  | some holding =>
    cases holding with
    | environment env =>
      have hclose := hclose env hget
      show Relation.ReflTransGen R session.world
        ((attempt env.close >>= fun _ => pure .done : Step Answer) session).2.world
      rw [attempt_bind_apply, attempt_apply]
      rcases hresult : env.close session.world with ⟨failure | _, after⟩
      · rw [hresult] at hclose
        exact hclose
      · rw [hresult] at hclose
        exact hclose
    | database _ => exact .refl
    | row _ => exact .refl
    | cursor _ _ => exact .refl
    | transaction _ => exact .refl

end Via

section Regular

variable {R : World → World → Prop} [Regular R]

theorem via_routine {x : Client α} (hx : Plain x) : Via R (lift x) := via_lift (Regular.plain hx)

theorem via_tryRoutine {x : Attempt α} (hx : Plain x.run) : Via R (attempt x) :=
  via_attempt (Regular.plain hx)

theorem via_storeFor (taken : Row) (slot : Slot) : Via R (storeFor taken slot) :=
  (via_look slot _).cleanup (Regular.plain (Row.plain_release taken))

theorem via_filledRow (db : Database) (fields : Assignments) :
    Via R (filledRow db fields) := by
  refine (via_tryRoutine (Database.plain_newRow db)).bind fun made => ?_
  refine Via.cleanup ?_ (Regular.plain (Row.plain_release made))
  exact (via_tryRoutine (Row.quiet_setAll made fields).plain).bind fun _ => via_pure made

theorem via_callRegistry (env : Environment) (call : RegistryCall) :
    Via R (callRegistry env call) := by
  cases call with
  | register f => exact (via_lift (Environment.via_register env f)).bind fun _ => via_pure _
  | unregister token =>
    exact (via_lift (Environment.via_unregister env token)).bind fun _ => via_pure _
  | clear => exact (via_lift (Environment.via_clearRegistry env)).bind fun _ => via_pure _
  | look => exact via_pure _

theorem via_advance (slot : Slot) : Via R (advance slot) := by
  refine (via_look _ _).bind fun (current, schema) => ?_
  refine (via_routine (Cursor.plain_next current)).bind fun (fetched, current) => ?_
  refine (via_hold _ _).bind fun _ => ?_
  match fetched with
  | .error failure => exact via_of_world fun _ => rfl
  | .ok none => exact via_pure _
  | .ok (some found) =>
    exact (via_routine (Row.quiet_dump found schema).plain).bind fun _ => via_pure _

theorem via_visit (slot : Slot) (field : String) : Via R (visit slot field) := by
  refine (via_look _ _).bind fun (current, schema) => ?_
  have hvisit : ∀ found : Row, Plain (liftM (found.getText field) : Attempt _).run := fun found =>
    (Row.quiet_getText found field).plain.run_lift
  refine (via_routine (Cursor.plain_collect hvisit current)).bind fun (visited, current) => ?_
  refine (via_hold _ _).bind fun _ => ?_
  cases visited with
  | error failure => exact via_of_world fun _ => rfl
  | ok texts => exact via_pure _

theorem via_closed {schema : Schema} (slot : Slot) (opened : Cursor) : Via R (do
    let (result, opened) ← lift opened.close
    hold slot (.cursor opened schema)
    match result with
    | .error failure => throw (.failure failure)
    | .ok () => return .done : Step Answer) := by
  refine (via_routine (Cursor.plain_close opened)).bind fun (result, opened) => ?_
  refine (via_hold _ _).bind fun _ => ?_
  cases result with
  | error failure => exact via_of_world fun _ => rfl
  | ok _ => exact via_pure _

theorem via_scanAll (db : Database) (asked : CriteriaSet) : Via R (scanAll db asked) := by
  refine (via_tryRoutine (Database.plain_openCursor db asked)).bind fun opened => ?_
  have hvisit : ∀ found : Row, Plain (liftM (found.dump db.schema) : Attempt _).run := fun found =>
    (Row.quiet_dump found db.schema).plain.run_lift
  refine (via_routine (Cursor.plain_collect hvisit opened)).bind fun (visited, opened) => ?_
  cases visited with
  | error failure =>
    exact (via_routine (Cursor.plain_release opened)).bind fun _ => via_of_world fun _ => rfl
  | ok dumps =>
    refine (via_routine (Cursor.plain_close opened)).bind fun (result, _) => ?_
    cases result with
    | error failure => exact via_of_world fun _ => rfl
    | ok _ => exact via_pure _

/-! ### Commands -/

/-- The slot that a command drops, or whose environment it closes. -/
def Command.vacates? : Command → Option Slot
  | .closeEnvironment slot | .drop slot => some slot
  | .createEnvironment into _ _ _ | .declareDatabase _ into _ _ _ | .newRow _ into
  | .lookup _ _ into | .openCursor _ into _ | .begin _ into => some into
  | _ => none

/-- The command closes an environment that is open, by hand or by dropping it. -/
def Closes (session : Session) (command : Command) (e : Handle) : Prop :=
  ∃ slot env, command.vacates? = some slot ∧ session.slots.get? slot = some (.environment env) ∧
    env.handle = e ∧ (session.world.link e).closed = false

/-- What vacates no slot is made of routines. -/
theorem via_of_stays {command : Command} (hstays : command.vacates? = none) :
    Via R (perform command) := by
  cases command with
  | createEnvironment into path? policy termination => cases hstays
  | declareDatabase env into name fields? merge? => cases hstays
  | closeEnvironment env => cases hstays
  | drop slot => cases hstays
  | newRow db into => cases hstays
  | lookup key source into => cases hstays
  | openCursor db into clauses => cases hstays
  | begin env into => cases hstays
  | setSetting env path value =>
    refine (via_look env _).bind fun env => ?_
    exact (via_tryRoutine (Environment.quiet_set env path value).plain).bind fun _ => via_pure _
  | getSetting env path =>
    refine (via_look env _).bind fun env => ?_
    refine (via_routine (Environment.quiet_getText env path).plain).bind fun _ => ?_
    exact (via_routine (Environment.quiet_getInt env path).plain).bind fun _ => via_pure _
  | openEnvironment env =>
    refine (via_look env _).bind fun env => ?_
    exact (via_tryRoutine (Environment.quiet_openUp env).plain).bind fun _ => via_pure _
  | diagnostic env =>
    refine (via_look env _).bind fun env => ?_
    refine (via_routine (Environment.quiet_error env).plain).bind fun _ => ?_
    exact (via_routine (.isClosed _)).bind fun _ => via_pure _
  | registry env call =>
    refine (via_look env _).bind fun env => (via_callRegistry env call).bind fun _ => ?_
    exact via_get.bind fun _ => via_pure _
  | cache env keys =>
    exact (via_look env _).bind fun _ => via_get.bind fun _ => via_pure _
  | advance ns => exact fun session => .single (Regular.advance ns session.world)
  | plan primitive entries =>
    exact fun session => .single (Regular.plan primitive entries session.world)
  | summary slot => exact via_look slot _
  | setField slot field value =>
    refine (via_look slot _).bind fun held => ?_
    exact (via_tryRoutine (Row.quiet_set held field value).plain).bind fun _ => via_pure _
  | getField slot field kind =>
    refine (via_look slot _).bind fun held => ?_
    exact (via_routine (Row.quiet_get held field kind).plain).bind fun _ => via_pure _
  | readField slot field =>
    refine (via_look slot _).bind fun held => ?_
    refine (via_routine (Row.quiet_getWord held field).plain).bind fun _ => ?_
    refine (via_routine (Row.quiet_getWord held field).plain).bind fun _ => ?_
    refine (via_routine (Row.quiet_getBytes held field).plain).bind fun _ => ?_
    exact (via_routine (Row.quiet_getText held field).plain).bind fun _ => via_pure _
  | destroyRow slot =>
    refine (via_takeRow slot).bind fun taken => ?_
    exact (via_tryRoutine (Row.plain_destroy taken)).bind fun _ => via_pure _
  | write slot into kind =>
    refine (via_takeRow slot).bind fun taken => (via_storeFor taken into).bind fun target => ?_
    exact (via_tryRoutine (Store.plain_write target taken kind)).bind fun _ => via_pure _
  | put db into fields kind =>
    refine (via_look db _).bind fun db => (via_filledRow db fields).bind fun made => ?_
    refine (via_storeFor made into).bind fun target => ?_
    exact (via_tryRoutine (Store.plain_write target made kind)).bind fun _ => via_pure _
  | find db source fields =>
    refine (via_look db _).bind fun db => (via_filledRow db fields).bind fun key => ?_
    refine (via_storeFor key source).bind fun target => ?_
    refine (via_tryRoutine (Store.plain_lookup target key)).bind fun found => ?_
    refine (via_routine (Row.quiet_dump found db.schema).plain).bind fun _ => ?_
    exact (via_routine (Row.plain_release found)).bind fun _ => via_pure _
  | next slot => exact via_advance slot
  | forEach slot field => exact via_visit slot field
  | closeCursor slot => exact (via_look _ _).bind fun (opened, _) => via_closed slot opened
  | cursorState slot => exact (via_look slot _).bind fun _ => via_pure _
  | scan db clauses =>
    refine (via_criteria clauses).bind fun asked => (via_look db _).bind fun db => ?_
    exact via_scanAll db asked
  | commit slot =>
    refine (via_look slot _).bind fun tx => ?_
    refine (via_routine (Transaction.plain_commit tx)).bind fun (_, tx) => ?_
    exact (via_hold _ _).bind fun _ => via_pure _
  | rollback slot =>
    refine (via_look slot _).bind fun tx => (via_empty slot).bind fun _ => ?_
    exact (via_tryRoutine (Transaction.plain_rollback tx)).bind fun _ => via_pure _

/-- A command keeps to a relation if dropping what is in its way, making an environment and closing
one do. -/
theorem via_perform {command : Command}
    (hdrop : ∀ slot, command.vacates? = some slot →
      Relation.ReflTransGen R session.world (drop slot session).2.world)
    (hcreate : ∀ path? policy termination,
      Client.Via R (Environment.create path? policy termination).run)
    (hclose : ∀ slot, command = .closeEnvironment slot →
      Relation.ReflTransGen R session.world (perform (.closeEnvironment slot) session).2.world) :
    Relation.ReflTransGen R session.world (perform command session).2.world := by
  cases hvacates : command.vacates? with
  | none => exact via_of_stays hvacates session
  | some slot =>
    replace hdrop := hdrop slot hvacates
    cases command with
    | createEnvironment into path? policy termination =>
      cases hvacates
      refine via_drop_bind hdrop fun _ => (via_attempt (hcreate _ _ _)).bind fun env => ?_
      exact (via_hold _ _).bind fun _ => via_pure _
    | declareDatabase env into name fields? merge? =>
      cases hvacates
      refine via_drop_bind hdrop fun _ => (via_look env _).bind fun env => ?_
      refine (via_tryRoutine (routine_check _)).bind fun schema => ?_
      refine (via_attempt (Environment.via_newDatabase _ _ _ _)).bind fun db => ?_
      exact (via_hold _ _).bind fun _ => via_pure _
    | closeEnvironment slot => exact hclose slot rfl
    | drop slot =>
      cases hvacates
      refine via_drop_bind hdrop fun dropped => ?_
      cases dropped with
      | true => exact via_pure _
      | false => exact via_of_world fun _ => rfl
    | newRow db into =>
      cases hvacates
      refine via_drop_bind hdrop fun _ => (via_look db _).bind fun db => ?_
      refine (via_tryRoutine (Database.plain_newRow db)).bind fun made => ?_
      exact (via_hold _ _).bind fun _ => via_pure _
    | lookup key source into =>
      cases hvacates
      refine via_drop_bind hdrop fun _ => (via_takeRow key).bind fun taken => ?_
      refine (via_storeFor taken source).bind fun target => ?_
      refine (via_tryRoutine (Store.plain_lookup target taken)).bind fun found => ?_
      exact (via_hold _ _).bind fun _ => via_pure _
    | openCursor db into clauses =>
      cases hvacates
      refine via_drop_bind hdrop fun _ => (via_criteria clauses).bind fun asked => ?_
      refine (via_look db _).bind fun db => ?_
      refine (via_tryRoutine (Database.plain_openCursor db asked)).bind fun opened => ?_
      exact (via_hold _ _).bind fun _ => via_pure _
    | begin env into =>
      cases hvacates
      refine via_drop_bind hdrop fun _ => (via_look env _).bind fun env => ?_
      refine (via_tryRoutine (Environment.plain_begin env)).bind fun tx => ?_
      exact (via_hold _ _).bind fun _ => via_pure _
    | _ => cases hvacates

/-- A slot is dropped in keeping with a relation if releasing an environment that it holds does. -/
theorem via_drop {slot : Slot}
    (hrelease : ∀ env, session.slots.get? slot = some (.environment env) →
      Relation.ReflTransGen R session.world (env.release session.world).2) :
    Relation.ReflTransGen R session.world (drop slot session).2.world := by
  unfold drop
  rw [attempt_bind_apply, held?_apply]
  cases hget : session.slots.get? slot with
  | none => exact .refl
  | some holding =>
    cases holding with
    | environment held => exact hrelease held hget
    | database held => exact .refl
    | row held => exact (Regular.plain (Row.plain_release held)) session.world
    | cursor held schema => exact (Regular.plain (Cursor.plain_release held)) session.world
    | transaction held => exact (Regular.plain (Transaction.plain_release held)) session.world

end Regular

/-- A command leaves the acquisitions of an environment alone, unless it closes it and there are
some. -/
theorem even_perform {command : Command} (hidle : session.Closes command e →
    ∀ key, (session.world.link e).cache.heldFor key = 0) :
    Even e session.world (perform command session).2.world := by
  have hheld : ∀ slot, command.vacates? = some slot → ∀ env,
      session.slots.get? slot = some (.environment env) → env.handle = e →
        (session.world.link e).closed = false →
          ∀ key, (session.world.link e).cache.heldFor key = 0 :=
    fun slot hvacates env hget heq hopen => hidle ⟨slot, env, hvacates, hget, heq, hopen⟩
  refine World.even_of_steps (via_perform (fun slot hvacates => via_drop fun env hget => ?_)
    (fun path? policy termination world => ?_) fun slot hcommand =>
      via_closeEnvironment fun env hget => ?_)
  · exact .single (Environment.even_release (hheld slot hvacates env hget))
  · exact .single (Environment.even_create path? policy termination world)
  · exact .single (Environment.even_close (hheld slot (hcommand ▸ rfl) env hget))

/-! ### Sessions -/

/-- The sessions that a client can come to: it carries out commands, and besides it may put any names
with any counts into the cache of an environment that was made. -/
inductive Visited : Session → Prop where
  | start : Visited {}
  | step {session : Session} (command : Command) : Visited session → Visited (session.step command).2
  | byHand {session : Session} (env : Handle) (cache : NameCache)
    (made : env ≤ session.world.engine.objects.issued) : Visited session →
      Visited { session with world := session.world.setLink env { session.world.link env with cache } }

theorem Visited.grown (h : session.Visited) : session.world.Grown := by
  induction h with
  | start => exact World.grown_start
  | step command _ ih =>
    -- Told of an environment that was not made yet, which nothing is outstanding in.
    exact (even_perform (fun _ => ih.unmade _ (Nat.lt_succ_self _)) ih).1
  | byHand env cache made _ ih =>
    refine ⟨ih.engine, fun env' hlt key => ?_⟩
    rw [World.link_setLink, if_neg (Nat.ne_of_gt (Nat.lt_of_le_of_lt made hlt))]
    exact ih.unmade env' hlt key

theorem Visited.run (h : session.Visited) (commands : List Command) :
    (session.run commands).2.Visited :=
  run_of_step (fun command h => h.step command) commands h

/-- Between the commands of a session that acquires nothing by hand nothing is outstanding, whichever
environments it closes. -/
theorem heldFor_run (commands : List Command) (e : Handle) (key : String) :
    ((run {} commands).2.world.link e).cache.heldFor key = 0 := by
  have hstart : ({} : Session).world.Grown ∧
      ∀ key, (({} : Session).world.link e).cache.heldFor key = 0 := ⟨World.grown_start, fun _ => rfl⟩
  refine (run_of_step (P := fun session => session.world.Grown ∧
    ∀ key, (session.world.link e).cache.heldFor key = 0) ?_ commands hstart).2 key
  intro session command ⟨hg, hidle⟩
  have hstep : Even e session.world (perform command session).2.world := even_perform fun _ => hidle
  obtain ⟨hg', heven⟩ := hstep hg
  exact ⟨hg', fun key => (heven key).trans (hidle key)⟩

/-- Under every policy, whatever its capacity or its time to live, in every session: a command, whether
it succeeds or fails, leaves every text of an environment with the acquisitions it had, none if it is
not cached, unless the command closes that environment, by hand or by dropping it while it is open. -/
theorem refs?_step (hvisited : session.Visited) {command : Command}
    (hcloses : ¬ session.Closes command e) (key : String) :
    (((session.step command).2.world.link e).cache.refs? key).getD 0 =
      ((session.world.link e).cache.refs? key).getD 0 :=
  (even_perform (fun h => absurd h hcloses) hvisited.grown).2 key

/-- An environment whose cache keeps one idle name, with a database, the next setting of bytes being
planned to fail. -/
def crowded : Session := (run {} [
  .createEnvironment "shop" none (.sized 1) .early,
  .declareDatabase "shop" "orders" "orders" none none,
  .openEnvironment "shop",
  .plan .setBytes [some 5]]).2

/-- The same with two acquisitions by hand. -/
def outstanding : Session :=
  { crowded with world := (acquireName 1 "key" (acquireName 1 "key" crowded.world).2).2 }

theorem outstanding_refs?_step :
    (outstanding.step (.put "orders" "orders" [("key", .str [97])] .put)).1.isOk = false ∧
      (((outstanding.step (.put "orders" "orders" [("key", .str [97])] .put)).2.world.link
        1).cache.refs? "key").getD 0 = 2 := by
  refine ⟨by cbv, (refs?_step ?_ ?_ "key").trans (by cbv)⟩
  · have made : 1 ≤ crowded.world.engine.objects.issued := by cbv
    have hfirst : Visited { crowded with world := (acquireName 1 "key" crowded.world).2 } :=
      .byHand 1 _ made (Visited.start.run _)
    exact @Visited.byHand { crowded with world := _ } 1 _ made hfirst
  · rintro ⟨slot, env, ⟨⟩, -⟩

end RowStore.Session
