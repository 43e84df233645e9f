/-
# Operations tell their own causes

Every operation of a client makes moves only, and if it fails with a text of the engine, the text is that
of the last call that the operation made but for those that tidy up, and that was refused. Rows that are
released and names that are given back on the way come after the diagnostic is read. A database that was declared is
found at once, so a declaration fails with what its first call was refused for.

Key theorems: `Client.Row.honest_set`, `Client.Store.honest_write`, `Client.Store.honest_lookup`,
`Client.Cursor.tells_next`, `Client.Database.honest_openCursor`, `Client.Environment.honest_create`,
`Client.Environment.honest_newDatabase`.
-/
import RowStore.Proofs.Client.Moving
import RowStore.Proofs.Client.Declaring
import RowStore.Proofs.Client.Routines

namespace RowStore.Client

/-! ### Checks -/

/-- A check that fails with no text of the engine. -/
def Private (result : Except Failure α) : Prop :=
  ∀ operation message, failure? result ≠ some (.engine operation message)

theorem Private.bind {x : Except Failure α} {f : α → Except Failure β} (hx : Private x)
    (hf : ∀ a, Private (f a)) : Private (x >>= f) := by
  cases x with
  | ok a => exact hf a
  | error failure => exact hx

theorem private_forM {f : α → Except Failure PUnit} (hf : ∀ a, Private (f a)) :
    ∀ l : List α, Private (l.forM f)
  | [] => nofun
  | a :: l => (hf a).bind fun _ => private_forM hf l

theorem private_foldlM {f : β → α → Except Failure β} (hf : ∀ b a, Private (f b a)) :
    ∀ (l : List α) (b : β), Private (l.foldlM f b)
  | [], _ => nofun
  | a :: l, b => (hf b a).bind fun b => private_foldlM hf l b

namespace Predicate

open RowStore.Predicate

theorem private_checkKind (field : Field) (kind : ValueKind) : Private (checkKind field kind) := by
  unfold checkKind
  split
  · nofun
  · rintro _ _ ⟨⟩

theorem private_interval (field : Field) (read? : Value → Option α) (low high : Option Value) :
    Private (interval field read? low high) := by
  have hlimit : ∀ bound, Private (interval.limit field read? bound) := fun bound => by
    cases bound with
    | none => nofun
    | some value =>
      unfold interval.limit
      dsimp only
      cases read? value with
      | some a => nofun
      | none => rintro _ _ ⟨⟩
  exact (hlimit low).bind fun _ => (hlimit high).bind fun _ => nofun

theorem private_testBetween (field : Field) (low high : Option Value) :
    Private (testBetween field low high) := by
  unfold testBetween
  split
  · exact (private_interval _ _ _ _).bind fun _ => nofun
  · split
    · exact (private_interval _ _ _ _).bind fun _ => nofun
    · exact (private_interval _ _ _ _).bind fun _ => nofun

theorem private_compile (field : Field) (criterion : Criterion) (order : ScanOrder)
    (leading : Bool) : Private (compile field criterion order leading) := by
  unfold compile
  obtain ⟨low, high⟩ := criterion.bounds
  refine (private_forM (fun value : Value => private_checkKind field value.kind) _).bind fun _ => ?_
  exact (private_testBetween field low high).bind fun _ => nofun

theorem private_startingWith (field : Field) (bytes : Bytes) (order : ScanOrder) :
    Private (startingWith field bytes order) := (private_checkKind field .str).bind fun _ => nofun

end Predicate

/-! ### Rows -/

namespace Row

theorem honest_setBytes (row : Row) (field : String) (bytes : Bytes) :
    Honest (row.setBytes field bytes) := honest_named _ _ fun _ => honest_orRefused _ _ _

theorem honest_setWord (row : Row) (field : String) (w : UInt64) : Honest (row.setWord field w) :=
  honest_named _ _ fun _ => honest_orRefused _ _ _

theorem honest_set (row : Row) (field : String) (value : Value) : Honest (row.set field value) := by
  cases value with
  | int v => exact honest_setWord row field _
  | uint v => exact honest_setWord row field _
  | str b => exact honest_setBytes row field b

theorem honest_setAll (row : Row) (fields : List (String × Value)) : Honest (row.setAll fields) :=
  honest_forM (fun (field, value) => honest_set row field value) fields

theorem goes_getWord (row : Row) (field : String) : Goes (row.getWord field) :=
  via_unlessClosed none fun _ hopen => leads_withName hopen _ fun _ => goes_call _

theorem goes_getBytes (row : Row) (field : String) : Goes (row.getBytes field) :=
  via_unlessClosed none fun _ hopen => leads_withName hopen _ fun _ => goes_call _

theorem goes_get (row : Row) (field : String) (kind : ValueKind) : Goes (row.get field kind) := by
  cases kind with
  | int => exact (goes_getWord row field).bind fun _ => via_pure _
  | uint => exact (goes_getWord row field).bind fun _ => via_pure _
  | str => exact (goes_getBytes row field).bind fun _ => via_pure _

theorem goes_getText (row : Row) (field : String) : Goes (row.getText field) :=
  (goes_getBytes row field).bind fun _ => via_pure _

theorem goes_dump (row : Row) (schema : Schema) : Goes (row.dump schema) :=
  via_mapM (fun _ => goes_get row _ _) schema.fields

theorem goes_judge (row : Row) (predicate : Predicate) : Goes (row.judge predicate) := by
  unfold Row.judge
  cases predicate.test with
  | all => exact via_pure _
  | signed interval => exact (goes_getWord row _).bind fun _ => via_pure _
  | unsigned interval => exact (goes_getWord row _).bind fun _ => via_pure _
  | bytes interval => exact (goes_getBytes row _).bind fun _ => via_pure _

theorem tidies_release (row : Row) : Tidies row.release :=
  via_unlessClosed () fun _ _ => tidies_destroy _ _

theorem honest_destroy (row : Row) : Honest row.destroy :=
  (honest_lift (via_isClosed _)).bind fun closed => by
    cases closed
    · exact honest_orRefused _ _ _
    · exact honest_pure _

end Row

theorem Database.honest_newRow (db : Database) : Honest db.newRow :=
  (honest_ensureOpen _).bind fun _ =>
    (honest_handleOrRefused _ _ (.newRow db.handle) trivial).bind fun _ => honest_pure _

/-! ### Stores and transactions -/

namespace Store

/-- A store that takes no rows says so itself. -/
theorem tells_obstacle (store : Store) : Tells id store.obstacle? := by
  unfold obstacle?
  split
  · exact Goes.tells (via_pure _) nofun
  · refine .bind (via_isClosed _) fun closed => ?_
    cases closed
    · exact Goes.tells (via_pure _) nofun
    · exact Goes.tells (via_pure _) nofun

theorem honest_accept (store : Store) (row : Row) : Honest (store.accept row) := by
  refine Honest.of_lift ((tells_obstacle store).follow fun obstacle => .inr ?_)
  cases obstacle with
  | none => exact ⟨via_pure _, nofun⟩
  | some failure => exact ⟨(Row.tidies_release row).bind fun _ => via_pure _, fun _ _ _ => id⟩

theorem honest_write (store : Store) (row : Row) (kind : WriteKind) :
    Honest (store.write row kind) :=
  (honest_accept store row).bind fun _ => honest_orRefused _ _ _

/-- Why nothing was found, given the diagnostic. -/
def unfound : Option String → Attempt Row
  | some message => throw (.engine "get" message)
  | none => throw .notFound

/-- A lookup that finds nothing reads the diagnostic at once. -/
theorem honest_lookup (store : Store) (key : Row) : Honest (store.lookup key) := by
  refine (honest_accept store key).bind fun _ => Honest.of_lift (tells_asked store.env
    (g := fun text? => (unfound text?).run) (fun h => honest_pure _) rfl (fun text? => ?_)
    fun text? world operation message hfail => ?_)
  · cases text?
    · exact via_pure _
    · exact via_pure _
  · cases text?
    · cases hfail
    · cases hfail
      rfl

end Store

namespace Transaction

theorem goes_commit (tx : Transaction) : Goes tx.commit := by
  unfold commit
  refine (via_isClosed _).bind fun closed => ?_
  split
  · exact via_pure _
  · exact (goes_call _).bind fun _ => via_pure _

theorem honest_rollback (tx : Transaction) : Honest tx.rollback := by
  unfold rollback
  split
  · exact (honest_throw (by rintro _ _ ⟨⟩)).bind fun _ => (honest_ensureOpen _).bind fun _ =>
      honest_orRefused _ _ _
  · exact (honest_ensureOpen _).bind fun _ => honest_orRefused _ _ _

theorem tidies_release (tx : Transaction) : Tidies tx.release := by
  unfold release
  refine (via_isClosed _).bind fun closed => ?_
  split
  · exact via_pure _
  · exact (tidies_destroy _).bind fun _ => via_pure _

end Transaction

/-! ### Cursors -/

theorem honest_seedStart (criteria : CriteriaSet) (schema : Schema) (seed : Row) :
    Honest (seedStart criteria schema seed) := by
  unfold seedStart
  cases criteria.startsWith? with
  | none => exact honest_pure _
  | some bytes =>
    dsimp only
    cases schema.leading? with
    | none => exact honest_throw (by rintro _ _ ⟨⟩)
    | some leading =>
      dsimp only
      split
      · exact honest_throw (by rintro _ _ ⟨⟩)
      · refine (honest_check (Predicate.private_startingWith _ _ _)).bind fun predicate => ?_
        exact (Row.honest_setBytes _ _ _).bind fun _ => honest_pure _

theorem honest_seedField (criteria : CriteriaSet) (schema : Schema) (seed : Row) (field : Field) :
    Honest (seedField criteria schema seed field) := by
  unfold seedField
  cases criteria.get? field.name with
  | none => exact honest_pure _
  | some criterion =>
    refine (honest_check (Predicate.private_compile _ _ _ _)).bind fun predicate => ?_
    cases criterion.seed predicate.descending with
    | none => exact honest_pure _
    | some value => exact (Row.honest_set _ _ _).bind fun _ => honest_pure _

theorem honest_seedScan (criteria : CriteriaSet) (schema : Schema) (seed : Row) :
    Honest (seedScan criteria schema seed) := by
  unfold seedScan
  generalize criteria.fields.find? _ = unknown?
  rcases unknown? with _ | ⟨name, criterion⟩
  · refine (honest_seedStart _ _ _).bind fun _ => ?_
    refine (honest_mapM (honest_seedField criteria schema seed) _).bind fun _ => ?_
    exact (Row.honest_setBytes _ _ _).bind fun _ => honest_pure _
  · exact honest_throw (by rintro _ _ ⟨⟩)

theorem Database.honest_openCursor (db : Database) (criteria : CriteriaSet) :
    Honest (db.openCursor criteria) := by
  refine (honest_newRow db).bind fun seed => Honest.cleanup ?_ (Row.tidies_release seed)
  refine (honest_seedScan _ _ _).bind fun _ => ?_
  exact (honest_handleOrRefused _ _ (.newCursor db.env) trivial).bind fun _ => honest_pure _

namespace Cursor

theorem goes_judgeGo (cursor : Cursor) (row : Row) : ∀ (predicates : List Predicate)
    (verdict : Verdict), Goes (judge.go cursor row verdict predicates)
  | [], verdict => via_pure _
  | predicate :: rest, verdict => by
    unfold judge.go
    refine (Row.goes_judge row predicate).bind fun v => ?_
    cases v with
    | pass => exact goes_judgeGo cursor row rest verdict
    | skip => exact goes_judgeGo cursor row rest .skip
    | stop =>
      dsimp only
      split
      · exact via_pure _
      · exact goes_judgeGo cursor row rest .skip

/-- Why a cursor failed, if it did. -/
abbrev failed? (answer : Except Failure β × Cursor) : Option Failure := failure? answer.1

theorem tells_ok (answer : β) (cursor : Cursor) :
    Tells failed? (pure (.ok answer, cursor) : Client (Except Failure β × Cursor)) :=
  Goes.tells (via_pure _) (by rintro _ _ _ ⟨⟩)

/-- A fetch that answers with no row reads the diagnostic at once. -/
theorem tells_advance (fuel : Nat) (cursor : Cursor) : Tells failed? (cursor.advance fuel) := by
  induction fuel generalizing cursor with
  | zero => exact tells_ok _ _
  | succ fuel ih =>
    unfold advance
    rcases cursor.takeRow with ⟨_ | previous, cursor⟩
    · exact tells_ok _ _
    · refine tells_asked cursor.env (fun handle => ?_) rfl (fun text? => ?_)
        fun text? world operation message hfail => ?_
      · refine .bind (goes_judgeGo cursor _ _ _) fun verdict => ?_
        cases verdict with
        | pass => exact tells_ok _ _
        | skip => exact ih _
        | stop => exact .bind (Row.tidies_release _).goes fun _ => tells_ok none _
      · cases text?
        · exact via_pure _
        · exact via_pure _
      · cases text?
        · cases hfail
        · cases hfail
          rfl

theorem tells_next (cursor : Cursor) : Tells failed? cursor.next := by
  unfold next
  split
  · exact tells_ok _ _
  · refine .bind (via_isClosed _) fun closed => ?_
    cases closed
    · exact .bind via_fetchBound fun fuel => tells_advance fuel cursor
    · exact Goes.tells (via_pure _) (by rintro _ _ _ ⟨⟩)

theorem tells_collectGo {visit : Row → Attempt α} (hvisit : ∀ row, Honest (visit row)) :
    ∀ (fuel : Nat) (cursor : Cursor), Tells failed? (collect.go visit fuel cursor)
  | 0, _ => tells_ok _ _
  | fuel + 1, cursor => by
    unfold collect.go
    refine (tells_next cursor).follow fun fetched => ?_
    obtain ⟨failure | _ | row, cursor⟩ := fetched
    · exact .inr ⟨via_pure _, fun _ _ _ => id⟩
    · exact .inl (tells_ok _ _)
    · refine .inl ((hvisit row).follow fun visited => ?_)
      cases visited with
      | error failure => exact .inr ⟨via_pure _, fun _ _ _ => id⟩
      | ok a =>
        refine .inl ((tells_collectGo hvisit fuel cursor).follow fun rest => .inr ⟨via_pure _, ?_⟩)
        obtain ⟨failure | rest, cursor⟩ := rest
        · exact fun _ _ _ => id
        · exact fun _ _ _ => id

theorem tells_collect {visit : Row → Attempt α} (hvisit : ∀ row, Honest (visit row))
    (cursor : Cursor) : Tells failed? (cursor.collect visit) :=
  .bind via_fetchBound fun fuel => tells_collectGo hvisit fuel cursor

theorem tells_shut (cursor : Cursor) : Tells failed? cursor.shut :=
  .bind (via_isClosed _) fun closed => by
    cases closed
    · exact (honest_orRefused _ _ _).follow fun _ => .inr ⟨via_pure _, fun _ _ _ => id⟩
    · exact tells_ok _ _

theorem tells_close (cursor : Cursor) : Tells failed? cursor.close := by
  cases hopen : cursor.closed with
  | true =>
    unfold close
    rw [hopen]
    exact Goes.tells (via_pure _) (by rintro _ _ _ ⟨⟩)
  | false =>
    rw [close_of_open hopen]
    exact .bind (via_forM (fun row => (Row.tidies_release row).goes) _) fun _ => tells_shut cursor

theorem tidies_close (cursor : Cursor) : Tidies cursor.close := by
  cases hopen : cursor.closed with
  | true =>
    unfold close
    rw [hopen]
    exact via_pure _
  | false =>
    rw [close_of_open hopen]
    refine (via_forM Row.tidies_release _).bind fun _ => (via_isClosed _).bind fun closed => ?_
    cases closed
    · exact (tidies_orRefused _ _ _).bind fun _ => via_pure _
    · exact via_pure _

theorem tidies_release (cursor : Cursor) : Tidies cursor.release := by
  unfold release
  split
  · exact (tidies_close cursor).bind fun _ => via_pure _
  · exact via_pure _

end Cursor

/-! ### Environments -/

namespace Environment

theorem honest_setBytes (env : Environment) (path : String) (bytes : Bytes) :
    Honest (env.setBytes path bytes) := honest_named _ _ fun _ => honest_orRefused _ _ _

theorem honest_setWord (env : Environment) (path : String) (w : UInt64) :
    Honest (env.setWord path w) := honest_named _ _ fun _ => honest_orRefused _ _ _

theorem honest_set (env : Environment) (path : String) (value : Value) :
    Honest (env.set path value) := by
  cases value with
  | int v => exact honest_setWord env path _
  | uint v => exact honest_setWord env path _
  | str b => exact honest_setBytes env path b

theorem goes_getText (env : Environment) (path : String) : Goes (env.getText path) :=
  via_unlessClosed none fun world hopen =>
    (leads_withName hopen path fun _ => goes_call _ : world.Leads _)

theorem goes_getInt (env : Environment) (path : String) : Goes (env.getInt path) :=
  via_unlessClosed none fun world hopen =>
    (leads_withName hopen path fun _ => goes_call _ : world.Leads _)

theorem honest_openUp (env : Environment) : Honest env.openUp :=
  (honest_ensureOpen _).bind fun _ => honest_orRefused _ _ _

theorem goes_error (env : Environment) : Goes env.error? :=
  via_unlessClosed none fun world _ => goes_diagnostic _ world

theorem honest_begin (env : Environment) : Honest env.begin :=
  (honest_ensureOpen _).bind fun _ =>
    (honest_handleOrRefused _ _ (Engine.Action.begin env.handle) trivial).bind fun _ => honest_pure _

theorem goes_register (env : Environment) (f : MergeFn) : Goes (env.register f) :=
  fun _ => .single (.register env.handle _)

theorem goes_unregister (env : Environment) (token : Nat) : Goes (env.unregister token) :=
  fun _ => .single (.register env.handle _)

theorem goes_clearRegistry (env : Environment) : Goes env.clearRegistry :=
  fun _ => .single (.register env.handle _)

theorem honest_close (env : Environment) : Honest env.close := by
  refine (honest_lift (via_isClosed _)).bind fun closed => ?_
  cases closed
  · exact (honest_lift fun _ => .single (.close env.handle)).bind fun _ => honest_orRefused _ _ _
  · exact honest_throw (by rintro _ _ ⟨⟩)

theorem tidies_close (env : Environment) : Tidies env.close.run := by
  refine Via.lift_bind (via_isClosed _) fun closed => ?_
  cases closed
  · exact Via.lift_bind (fun _ => .single (.close env.handle)) fun _ => tidies_orRefused _ _ _
  · exact via_pure _

theorem tidies_release (env : Environment) : Tidies env.release := by
  refine (via_isClosed _).bind fun closed => ?_
  cases closed
  · exact (tidies_close env).bind fun _ => via_pure _
  · exact via_pure _

/-- What is done once an environment is made: its path is set, or it is closed again. -/
def afterMaking (env : Environment) : Option String → Attempt Unit
  | none => return
  | some path =>
    tryCatch (env.setBytes Engine.pathKey (Bytes.ofText path)) fun failure => do
      env.release
      throw failure

theorem honest_afterMaking (env : Environment) (path? : Option String) :
    Honest (env.afterMaking path?) := by
  cases path? with
  | none => exact honest_pure _
  | some path => exact (honest_setBytes env _ _).cleanup (tidies_release env)

/-- Without a handle nothing is made; with one the environment is known and its path is set. -/
theorem create_apply (path? : Option String) (policy : CachePolicy) (termination : Termination)
    (world : World) : create path? policy termination world =
      match call .newEnvironment world with
      | (none, world) => (.error (.engine "create environment" "engine returned no handle"), world)
      | (some handle, world) => (do
          Environment.afterMaking { handle, path?, policy, termination } path?
          return { handle, path?, policy, termination } : Attempt Environment)
          (world.setLink handle { cache := .ofPolicy policy }) := by
  unfold create
  rw [lift_bind_apply]
  rcases call .newEnvironment world with ⟨_ | handle, after⟩
  · rfl
  · cases path? <;> rfl

/-- Without a plan an environment is made, so it fails with what its path was refused for. -/
theorem honest_create (path? : Option String) (policy : CachePolicy) (termination : Termination) :
    Honest (create path? policy termination) := by
  have hrest : ∀ env : Environment, Honest (do env.afterMaking path?; return env) := fun env =>
    (honest_afterMaking env path?).bind fun _ => honest_pure env
  refine ⟨fun world => ?_, fun world hr hff operation message hfail => ?_⟩
  · show world.Leads (create path? policy termination world).2
    rw [create_apply]
    rcases hcall : call .newEnvironment world with ⟨_ | h, after⟩
    · have hgoes := goes_call .newEnvironment world
      rw [hcall] at hgoes
      exact hgoes
    · have hmove := World.Move.create h policy (congrArg Prod.fst hcall)
      rw [hcall] at hmove
      exact (Relation.ReflTransGen.single hmove).trans ((hrest _).goes _)
  · change failure? (create path? policy termination world).1 = _ at hfail
    show world.Raises (create path? policy termination world).2 message
    rw [create_apply] at hfail ⊢
    rcases hcall : call .newEnvironment world with ⟨_ | h, after⟩
    · rw [call_apply hff] at hcall
      cases hcall
    · have hmove := World.Move.create h policy (congrArg Prod.fst hcall)
      rw [hcall] at hmove hfail
      have hmade : world.Leads (after.setLink h { cache := .ofPolicy policy }) := .single hmove
      exact ((hrest _).raises _ (hmade.reachable hr) (hmade.faultFree hff) operation message
        hfail).of_leads hmade

theorem goes_installMerge (env : Environment) (db : Handle) (f : MergeFn) :
    Goes (env.installMerge db f).run := by
  refine Via.lift_bind (goes_register env f) fun token => ?_
  refine Via.lift_bind (goes_call _) fun installed => ?_
  cases installed
  · exact Via.lift_bind (goes_unregister env token) fun _ =>
      (goes_refused env.handle "install upsert").run_bind fun _ => via_pure _
  · exact via_pure _

theorem goes_afterDeclaring (env : Environment) (name : String) (schema : Schema)
    (merge? : Option MergeFn) : Goes (env.afterDeclaring name schema merge?).run := by
  refine (goes_handleOrRefused _ _ _).run_bind fun handle => ?_
  cases merge? with
  | none => exact via_pure _
  | some f =>
    refine Via.run_bind ?_ fun _ => via_pure _
    exact (goes_installMerge env handle f).run_bind fun _ => via_pure _

/-- Once a database is declared, the rest is done without a failure. -/
theorem not_error_afterDeclaring {env : Environment} {world middle : World} {name : String}
    {schema : Schema} {merge? : Option MergeFn} {failure : Failure} (hs : world.Serves env.handle)
    (hfirst : orRefused env.handle "declare database" (.declare env.handle name schema.fields) world =
      (.ok (), middle)) : (env.afterDeclaring name schema merge? middle).1 ≠ .error failure := by
  intro hfail
  obtain ⟨first, middle', hfirst', hfollows, hcases⟩ := declare_cases env world name schema.fields
  rw [hfirst] at hfirst'
  cases hfirst'
  rcases hcases with ⟨message, hfailed, -⟩ | ⟨-, hdeclare⟩
  · cases hfailed
  obtain ⟨result, after, happly, -, ⟨-, hplanned, -⟩ | ⟨rfl, -⟩⟩ :=
    afterDeclaring_cases hs.reachable.sound hdeclare merge?
  · exact hplanned (hfollows.faultFree hs.faultFree)
  · rw [happly] at hfail
    cases hfail

/-- A declaration fails with what its first call was refused for. -/
theorem honest_newDatabase (env : Environment) (name : String) (schema : Schema)
    (merge? : Option MergeFn) : Honest (env.newDatabase name schema merge?) where
  goes := by
    refine (honest_ensureOpen env.handle).goes.run_bind fun _ => ?_
    split
    · exact via_pure _
    · exact (honest_orRefused _ _ _).goes.run_bind fun _ => goes_afterDeclaring env name schema merge?
  raises world hr hff operation message hfail := by
    change failure? (env.newDatabase name schema merge? world).1 = _ at hfail
    show world.Raises (env.newDatabase name schema merge? world).2 message
    rw [newDatabase_eq, attempt_bind_apply] at hfail ⊢
    cases hclosed : (world.link env.handle).closed with
    | true =>
      rw [ensureOpen_of_closed hclosed] at hfail
      cases hfail
    | false =>
      rw [ensureOpen_apply hclosed] at hfail ⊢
      dsimp only at hfail ⊢
      cases hname : !isDatabaseName name with
      | true =>
        rw [hname] at hfail
        cases hfail
      | false =>
        rw [hname] at hfail
        change failure? ((orRefused _ _ _ >>= fun _ => env.afterDeclaring name schema merge?)
          world).1 = _ at hfail
        show world.Raises ((orRefused _ _ _ >>= fun _ => env.afterDeclaring name schema merge?)
          world).2 message
        have hfirst := (honest_orRefused env.handle "declare database"
          (.declare env.handle name schema.fields)).raises world hr hff operation message
        rw [attempt_bind_apply] at hfail ⊢
        rcases hdeclared : orRefused env.handle "declare database"
          (.declare env.handle name schema.fields) world with ⟨failure | _, middle⟩
        · rw [show (orRefused env.handle "declare database"
            (.declare env.handle name schema.fields)).run world = _ from hdeclared] at hfirst
          rw [hdeclared] at hfail
          exact hfirst hfail
        · rw [hdeclared] at hfail
          cases hresult : (env.afterDeclaring name schema merge? middle).1 with
          | ok db =>
            dsimp only at hfail
            rw [hresult] at hfail
            cases hfail
          | error failure =>
            exact absurd hresult (not_error_afterDeclaring ⟨hr, hff, hclosed⟩ hdeclared)

end Environment
end RowStore.Client
