/-
# Environments and databases in the books

An environment that is created is open and live, without a token: what its objects stand for is decided
by whether it is closed. Closing it, or releasing it, destroys it with all that it owns, once, and leaves
the tokens of what it owned. A database that is declared has a token that stays.

Key theorems: `Client.Environment.accounts_create`, `Client.Environment.accounts_close`,
`Client.Environment.accounts_newDatabase`.
-/
import RowStore.Proofs.Client.Custody

namespace RowStore

open World (Accounts Conserves)

namespace Client.Environment

open Engine (Objects)

variable {env : Environment} {world : World} {tokens : List Token}

/-! ### Merge functions -/

/-- A change of the merge functions of an environment closes nothing. -/
theorem conserves_setRegistry (env : Handle) (registry : Registry) (world : World) :
    world.Conserves (world.setLink env { world.link env with registry }) := by
  refine .of_engine ⟨fun hr => hr.register env registry, id, fun env' => ?_⟩ rfl rfl
  rw [World.link_setLink]
  split
  · next heq => rw [heq]
  · rfl

theorem along_register (env : Environment) (f : MergeFn) : Along Conserves (env.register f) :=
  fun world => conserves_setRegistry env.handle _ world

theorem along_unregister (env : Environment) (token : Nat) :
    Along Conserves (env.unregister token) :=
  fun world => conserves_setRegistry env.handle _ world

theorem along_clearRegistry (env : Environment) : Along Conserves env.clearRegistry :=
  fun world => conserves_setRegistry env.handle _ world

theorem along_installMerge (env : Environment) (d : Handle) (f : MergeFn) :
    Along Conserves (env.installMerge d f).run :=
  (along_register env f).run_lift.run_bind fun token =>
    (Routine.call trivial).along.run_lift.run_bind fun installed => by
      cases installed
      · exact (along_unregister env token).run_lift.run_bind fun _ =>
          (routine_refused env.handle trivial _).along.run_bind fun _ => along_run_pure _
      · exact along_run_pure _

/-! ### Closing -/

/-- Closing an environment destroys it with all that it owns. -/
theorem accounts_close (ha : world.Accounts tokens) : (env.close world).2.Accounts tokens := by
  unfold close
  rw [lift_bind_apply, isClosed_apply]
  dsimp only
  cases hclosed : (world.link env.handle).closed with
  | true => exact ha
  | false =>
    let link : Link :=
      { closed := true
        registry := (world.link env.handle).registry.clear
        cache := (world.link env.handle).cache.clear }
    have hopen : ∀ e, ((world.setLink env.handle link).link e).closed = false ↔
        e ≠ env.handle ∧ (world.link e).closed = false := fun e => by
      rw [World.link_setLink]
      split
      · next heq => exact ⟨nofun, fun ⟨hne, _⟩ => absurd heq hne⟩
      · next hne => exact ⟨fun ho => ⟨hne, ho⟩, fun ⟨_, ho⟩ => ho⟩
    have hmiddle : (world.setLink env.handle link).Reachable := ha.reachable.close env.handle
    have hcall : (call (.destroy env.handle) (world.setLink env.handle link)).2.Accounts tokens :=
      World.accounts_call hmiddle ha.faultFree ha.homely _
        (Engine.retitles_destroyEnvironment ha.reachable.sound (ha.balanced.environment hclosed)).2
        (ha.balanced.close hclosed hopen)
    exact accounts_orRefused hcall env.handle "close environment"

theorem accounts_release (ha : world.Accounts tokens) : (env.release world).2.Accounts tokens := by
  unfold release
  rw [bind_apply, isClosed_apply]
  dsimp only
  cases hclosed : (world.link env.handle).closed with
  | true => exact ha
  | false => exact accounts_close ha

/-! ### Creating -/

theorem modify_apply (f : World → World) (world : World) :
    (modify f : Attempt PUnit) world = (.ok (), f world) := rfl

/-- An environment whose path is refused is closed. -/
theorem accounts_setPath (ha : world.Accounts tokens) (env : Environment) (path : String) :
    ((tryCatch (env.setBytes Engine.pathKey (Bytes.ofText path)) fun failure => do
      env.release
      throw failure : Attempt Unit) world).2.Accounts tokens := by
  have hset := ha.along_run (quiet_setBytes env Engine.pathKey (Bytes.ofText path)).along
  rw [tryCatch_apply]
  generalize env.setBytes Engine.pathKey (Bytes.ofText path) world = answer at hset
  obtain ⟨_ | _, after⟩ := answer
  · exact accounts_release hset
  · exact hset

/-- A new environment is open and live, and has nothing yet. -/
theorem accounts_newEnvironment (ha : world.Accounts tokens) (policy : CachePolicy) :
    ∃ after, call .newEnvironment world = (some (world.engine.objects.issued + 1), after) ∧
      (after.setLink (world.engine.objects.issued + 1) { cache := .ofPolicy policy }).Accounts
        tokens := by
  obtain ⟨hnew, hretitles⟩ := Engine.retitles_newEnvironment ha.reachable.sound
  have hcall : call .newEnvironment world =
      (some (world.engine.objects.issued + 1), (world.reach .newEnvironment).2) := by
    rw [call_apply ha.faultFree]
    exact Prod.ext hnew rfl
  have hreachable :=
    (ha.reachable.call .newEnvironment).create (world.engine.objects.issued + 1) policy
  rw [hcall] at hreachable
  have hopen : ∀ e, (((world.reach .newEnvironment).2.setLink (world.engine.objects.issued + 1)
      { cache := .ofPolicy policy }).link e).closed = false ↔
        e = world.engine.objects.issued + 1 ∨ (world.link e).closed = false := fun e => by
    rw [World.link_setLink]
    split
    · next heq => exact ⟨fun _ => .inl heq, fun _ => rfl⟩
    · next hne => exact ⟨.inr, fun h => h.resolve_left hne⟩
  refine ⟨_, hcall, hreachable, ha.faultFree, hretitles.homely ha.homely, ?_⟩
  show Balanced _ world.engine.newEnvironment.2.objects.issued
    world.engine.newEnvironment.2.objects.title? world.consumed tokens
  rw [hretitles.titles]
  exact ha.balanced.create hopen

/-- Creating an environment leaves the tokens as they are. -/
theorem accounts_create (ha : world.Accounts tokens) (path? : Option String)
    (policy : CachePolicy) (termination : Termination) :
    (create path? policy termination world).2.Accounts tokens := by
  obtain ⟨after, hcall, hafter⟩ := accounts_newEnvironment ha policy
  unfold create
  rw [lift_bind_apply, hcall]
  dsimp only
  rw [attempt_bind_apply, modify_apply]
  cases path? with
  | none => exact hafter
  | some path =>
    have hpath := accounts_setPath hafter
      ⟨world.engine.objects.issued + 1, some path, policy, termination⟩ path
    dsimp only
    rw [attempt_bind_apply]
    split
    · next heq =>
      rw [heq] at hpath
      exact hpath
    · next heq =>
      rw [heq] at hpath
      exact hpath

/-! ### Declaring -/

/-- A declaration that goes through adds a database of the environment. -/
theorem retitles_declare {engine : Engine} {h : Handle} {name : String} {fields : List Field}
    {objects : Objects} (hs : engine.objects.Sound)
    (hd : engine.objects.declare h name fields = .ok objects) :
    engine.objects.Retitles (engine.objects.issued + 1) (Function.update engine.objects.title?
      (engine.objects.issued + 1) (some ⟨.database, h⟩)) objects := by
  obtain ⟨e, he, rfl⟩ := Objects.declare_eq_ok hd
  have hadd := Objects.retitles_add hs (.database (Objects.declared h name fields)) (e := h) rfl
    fun _ => trivial
  have hlive := hs.get?_add he (.database (Objects.declared h name fields))
  have hput : Objects.Retitles _ _ _ (Objects.put _ h (.environment { e with
      databases := e.databases.insert name (engine.objects.issued + 1) })) :=
    Objects.retitles_putEnvironment hlive id
  rw [hadd.issued, hadd.titles] at hput
  exact hadd.trans hput

/-- The call of a declaration, in the books. -/
theorem accounts_declare {h : Handle} (ha : world.Accounts tokens)
    (hopen : (world.link h).closed = false) (name : String) (fields : List Field) :
    (call (.declare h name fields) world).2.Accounts
      (if (call (.declare h name fields) world).1 then
        (world.engine.objects.issued + 1, ⟨.database, h⟩) :: tokens else tokens) := by
  have hanswer : (call (.declare h name fields) world).1 =
      (world.engine.attemptFlag (world.engine.objects.declare h name fields)).1 := by
    rw [call_apply ha.faultFree, reach_fst]
    rfl
  rw [hanswer]
  cases hdeclare : world.engine.objects.declare h name fields with
  | error refusal =>
    refine ha.call _ ?_ ha.balanced
    show world.engine.objects.Retitles _ _ (world.engine.attemptFlag _).2.objects
    rw [hdeclare]
    exact .refl _
  | ok objects =>
    refine ha.gains hopen (k := .database) nofun rfl ?_
    show world.engine.objects.Retitles _ _ (world.engine.attemptFlag _).2.objects
    rw [hdeclare]
    exact retitles_declare ha.reachable.sound hdeclare

/-- What follows the call of a declaration neither makes nor takes anything. -/
theorem along_install (env : Environment) (name : String) (schema : Schema)
    (merge? : Option MergeFn) : Along Conserves (do
      let handle ← handleOrRefused env.handle "resolve database" (.resolve env.handle ("db." ++ name))
      let token? ← merge?.mapM (env.installMerge handle)
      return ({ env := env.handle, handle, name, schema, termination := env.termination, token? } :
        Database) : Attempt Database).run :=
  (routine_handleOrRefused trivial trivial _).along.run_bind
    fun handle => by
      cases merge? with
      | none => exact along_run_pure _
      | some f =>
        exact ((along_installMerge env handle f).run_bind fun _ => along_run_pure _).run_bind
          fun _ => along_run_pure _

/-- A declaration is refused, or the database is added and what follows conserves it. -/
theorem accounts_declaring (env : Environment) (ha : world.Accounts tokens)
    (hopen : (world.link env.handle).closed = false)
    (name : String) (schema : Schema) (merge? : Option MergeFn) :
    ((env.newDatabase name schema merge? world).2.Accounts tokens ∧
        (env.newDatabase name schema merge? world).1.isOk = false) ∨
      (env.newDatabase name schema merge? world).2.Accounts
        ((world.engine.objects.issued + 1, ⟨.database, env.handle⟩) :: tokens) := by
  unfold newDatabase
  rw [attempt_bind_apply, ensureOpen_apply hopen]
  dsimp only
  by_cases hname : (!isDatabaseName name) = true
  · rw [if_pos hname]
    exact .inl ⟨ha, rfl⟩
  · have hcall := accounts_declare ha hopen name schema.fields
    rw [if_neg hname]
    show ((((orRefused env.handle "declare database" (.declare env.handle name schema.fields) >>=
      fun _ => _) : Attempt Database) world).2.Accounts _ ∧ _) ∨ _
    rw [attempt_bind_apply, orRefused_apply]
    generalize call (.declare env.handle name schema.fields) world = answer at hcall
    obtain ⟨_ | _, after⟩ := answer
    · exact .inl ⟨hcall.along_run (routine_refused env.handle trivial "declare database").along, rfl⟩
    · exact .inr (hcall.along_run (along_install env name schema merge?))

theorem env_of_newDatabase {name : String} {schema : Schema} {merge? : Option MergeFn}
    {db : Database} {world' : World}
    (h : env.newDatabase name schema merge? world = (.ok db, world')) : db.env = env.handle := by
  obtain ⟨-, opened, -, h⟩ := bind_eq_ok.1 h
  by_cases hname : (!isDatabaseName name) = true
  · rw [if_pos hname] at h
    cases h
  rw [if_neg hname] at h
  obtain ⟨-, declared, -, h⟩ := bind_eq_ok.1 h
  obtain ⟨handle, resolved, -, h⟩ := bind_eq_ok.1 h
  obtain ⟨token?, installed, -, h⟩ := bind_eq_ok.1 h
  have hpair : ((.ok (env.database handle name schema token?), installed) :
    Except Failure Database × World) = (.ok db, world') := h
  cases hpair
  rfl

/-- A database that is declared has a token. -/
theorem accounts_newDatabase (env : Environment) (ha : world.Accounts tokens) (name : String)
    (schema : Schema) (merge? : Option MergeFn) :
    (env.newDatabase name schema merge? world).2.Accounts
      (made (fun db => [db.token]) (env.newDatabase name schema merge? world).1 ++ tokens) := by
  cases hclosed : (world.link env.handle).closed with
  | true =>
    rw [newDatabase, attempt_bind_apply, ensureOpen_of_closed hclosed]
    exact ha
  | false =>
    have hdeclaring := env.accounts_declaring ha hclosed name schema merge?
    obtain ⟨result, after, hresult, hcontinues, hcases⟩ :=
      newDatabase_cases (ha.serves hclosed) name schema merge?
    rw [hresult] at hdeclaring ⊢
    rcases hcases with ⟨failure, rfl, hsame⟩ | ⟨token?, rfl, -⟩
    · rcases hdeclaring with ⟨hafter, -⟩ | hafter
      · exact hafter
      · -- The database would be there, although nothing has changed.
        have htitle := hafter.balanced.title_eq List.mem_cons_self
          ((hcontinues.closed env.handle).trans hclosed)
        rw [hsame, ha.balanced.next_eq_none] at htitle
        cases htitle
    · rcases hdeclaring with ⟨-, hrefused⟩ | hafter
      · cases hrefused
      · exact hafter

end Client.Environment
end RowStore
