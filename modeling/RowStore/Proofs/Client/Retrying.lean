/-
# Declarations that fail

A declaration is answered by what the engine says of it, and by whether the environment is closed and
the name is one. If it fails, because it is refused or because one of its calls was planned to fail, the
merge functions are those there were. What it leaves on the engine depends on the call that failed. Up
to the call that declares the database nothing has changed, and the declaration answers, when it is
repeated, as it would have answered without the failure. After that call the name is taken, and the
declaration is refused when it is repeated: nothing takes a declaration back but destroying the
environment.

Key definitions: `Engine.Objects.IsDeclared`, `Client.Environment.answer`.
Key theorems: `Engine.Objects.isDeclared_declare`, `Engine.Objects.declare_again`,
`Client.Environment.newDatabase_fst`, `Client.Environment.newDatabase_error`.
-/
import RowStore.Proofs.Client.Telling

namespace RowStore

/-! ### Names on the engine -/

namespace Engine.Objects

variable {objects objects' : Objects} {h : Handle} {name : String} {fields : List Field}

/-- An environment has a database of a name. -/
def IsDeclared (objects : Objects) (h : Handle) (name : String) : Prop :=
  ∃ env : Environment, objects.table.get? h = some (.environment env) ∧
    env.databases.contains name = true

/-- What was declared had no database of the name in its environment. -/
theorem not_isDeclared_of_declare (hr : objects.declare h name fields = .ok objects') :
    ¬objects.IsDeclared h name := by
  rintro ⟨env, henv, hcontains⟩
  unfold declare at hr
  rw [environment_eq_ok.2 henv] at hr
  dsimp only at hr
  split at hr
  · cases hr
  · change (if env.databases.contains name then throw _ else _ : Except Refusal Objects) = _ at hr
    rw [if_pos hcontains] at hr
    cases hr

/-- A declaration adds its name to its environment and no other. -/
theorem isDeclared_declare (hs : objects.Sound) (hr : objects.declare h name fields = .ok objects')
    (h' : Handle) (n : String) :
    objects'.IsDeclared h' n ↔ objects.IsDeclared h' n ∨ h' = h ∧ n = name := by
  obtain ⟨env, henv, rfl⟩ := declare_eq_ok hr
  unfold IsDeclared
  rw [get?_put]
  by_cases hh : h' = h
  · subst hh
    rw [if_pos rfl, henv]
    simp only [Option.some.injEq, Object.environment.injEq, exists_eq_left', Table.contains,
      Table.get?_insert]
    by_cases hn : n = name
    · simp [hn]
    · simp [hn]
  · rw [if_neg hh, get?_add]
    by_cases hnext : h' = objects.issued + 1
    · rw [if_pos hnext, hnext, hs.fresh]
      simp [hnext ▸ hh]
    · rw [if_neg hnext]
      simp [hh]

/-- A name that was declared is not declared again. -/
theorem declare_again (hr : objects.declare h name fields = .ok objects') (fields' : List Field) :
    objects'.declare h name fields' = .error (.duplicateDatabase name) := by
  obtain ⟨env, henv, hobjects⟩ := declare_eq_ok hr
  have hname : (name.isEmpty || name.contains '.') = false := by
    unfold declare at hr
    by_contra hname
    rw [Bool.not_eq_false] at hname
    rw [if_pos hname] at hr
    cases hr
  have henv' : objects'.environment h = .ok
      { env with databases := env.databases.insert name (objects.issued + 1) } := by
    rw [environment_eq_ok, hobjects, get?_put, if_pos rfl]
  have hcontains : (env.databases.insert name (objects.issued + 1)).contains name = true := by
    rw [Table.contains, Table.get?_insert, if_pos rfl]
    rfl
  rw [declare_eq hname, henv']
  show (if (env.databases.insert name (objects.issued + 1)).contains name then throw _ else _ :
    Except Refusal Objects) = _
  rw [if_pos hcontains]
  rfl

end Engine.Objects

/-! ### What a declaration answers -/

namespace Client.Environment

open Engine (Objects)

variable {env : Environment} {world after : World} {name : String} {schema : Schema}
  {merge? : Option MergeFn} {failure : Failure}

/-- What a declaration answers where no call is planned to fail. -/
def answer (env : Environment) (name : String) (schema : Schema) (merge? : Option MergeFn)
    (world : World) : Except Failure Database :=
  if (world.link env.handle).closed then .error .environmentClosed
  else if isDatabaseName name then
    match world.engine.objects.declare env.handle name schema.fields with
    | .ok _ => .ok (env.database (world.engine.objects.issued + 1) name schema
        (merge?.map fun _ => (world.link env.handle).registry.issued + 1))
    | .error refusal => .error (.engine "declare database" refusal.message)
  else .error (.invalidName name)

/-- What a declaration answers depends on the objects of the engine and on its environment. -/
theorem answer_congr (hobjects : after.engine.objects = world.engine.objects)
    (hclosed : (after.link env.handle).closed = (world.link env.handle).closed)
    (hregistry : (after.link env.handle).registry = (world.link env.handle).registry) :
    env.answer name schema merge? after = env.answer name schema merge? world := by
  unfold answer
  rw [hobjects, hclosed, hregistry]

/-- A declaration fails before any call, because the environment is closed or the name is none, or it
comes as far as the engine. -/
theorem newDatabase_obstacle (env : Environment) (name : String) (schema : Schema)
    (merge? : Option MergeFn) (world : World) :
    (∃ failure, env.newDatabase name schema merge? world = (.error failure, world) ∧
        env.answer name schema merge? world = .error failure ∧ ¬FailedLate failure) ∨
      (world.link env.handle).closed = false ∧ isDatabaseName name = true := by
  cases hclosed : (world.link env.handle).closed with
  | true =>
    refine .inl ⟨.environmentClosed, ?_, if_pos hclosed, nofun⟩
    rw [newDatabase_eq, attempt_bind_apply, ensureOpen_of_closed hclosed]
  | false =>
    cases hname : isDatabaseName name with
    | true => exact .inr ⟨rfl, rfl⟩
    | false =>
      refine .inl ⟨.invalidName name, ?_, ?_, nofun⟩
      · rw [newDatabase_eq, attempt_bind_apply, ensureOpen_apply hclosed]
        dsimp only
        rw [hname]
        rfl
      · unfold answer
        rw [hclosed, hname]
        rfl

/-- What a declaration that comes as far as the engine answers. -/
theorem answer_of_open (hopen : (world.link env.handle).closed = false)
    (hname : isDatabaseName name = true) : env.answer name schema merge? world =
      match world.engine.objects.declare env.handle name schema.fields with
      | .ok _ => .ok (env.database (world.engine.objects.issued + 1) name schema
          (merge?.map fun _ => (world.link env.handle).registry.issued + 1))
      | .error refusal => .error (.engine "declare database" refusal.message) := by
  unfold answer
  rw [hopen, hname, if_neg Bool.false_ne_true, if_pos rfl]

/-- Where no call is planned to fail, a declaration answers so. -/
theorem newDatabase_fst (hr : world.Reachable) (hf : world.FaultFree) :
    (env.newDatabase name schema merge? world).1 = env.answer name schema merge? world := by
  rcases env.newDatabase_obstacle name schema merge? world with
    ⟨failure, hnew, hanswer, -⟩ | ⟨hopen, hname⟩
  · rw [hnew, hanswer]
  · obtain ⟨result, middle, hfirst, hfollows, hcases⟩ := declare_cases env world name schema.fields
    have htold : result = told "declare database"
        (world.engine.objects.declare env.handle name schema.fields) := by
      have htold : (orRefused env.handle "declare database"
          (.declare env.handle name schema.fields) world).1 = told "declare database" _ :=
        orRefused_of_attemptFlag hf env.handle "declare database" rfl
      rwa [hfirst] at htold
    rw [newDatabase_apply hopen hname, attempt_bind_apply, hfirst, answer_of_open hopen hname]
    rcases hcases with ⟨message, rfl, -⟩ | ⟨rfl, hdeclare⟩
    · cases hdeclare : world.engine.objects.declare env.handle name schema.fields with
      | ok objects =>
        rw [hdeclare] at htold
        cases htold
      | error refusal =>
        rw [hdeclare] at htold
        exact congrArg Except.error (Except.error.inj htold)
    · obtain ⟨result, after, hrest, -, ⟨-, hplanned, -⟩ | ⟨rfl, -⟩⟩ :=
        afterDeclaring_cases hr.sound hdeclare merge?
      · exact absurd (hfollows.faultFree hf) hplanned
      · dsimp only
        rw [hrest, hdeclare, hfollows.registry]

/-- A declaration that succeeds, whatever is planned to fail later on, has added the database. -/
theorem newDatabase_ok {db : Database} (hr : world.Reachable)
    (hnew : env.newDatabase name schema merge? world = (.ok db, after)) :
    ∃ token?, db = env.database (world.engine.objects.issued + 1) name schema token? ∧
      Objects.Declares env.handle name schema.fields world.engine.objects after.engine.objects := by
  rcases env.newDatabase_obstacle name schema merge? world with ⟨failure, hfail, -⟩ | ⟨hopen, hname⟩
  · rw [hnew] at hfail
    cases hfail
  · obtain ⟨result, middle, hfirst, -, hcases⟩ := declare_cases env world name schema.fields
    rw [newDatabase_apply hopen hname, attempt_bind_apply, hfirst] at hnew
    rcases hcases with ⟨message, rfl, -⟩ | ⟨rfl, hdeclare⟩
    · cases hnew
    · obtain ⟨result, after', hrest, -, hcases⟩ := afterDeclaring_cases hr.sound hdeclare merge?
      dsimp only at hnew
      rw [hrest] at hnew
      rcases hcases with ⟨⟨failure, rfl, -⟩, -⟩ | ⟨rfl, hdeclares⟩
      · cases hnew
      · cases hnew
        exact ⟨_, rfl, hdeclares⟩

theorem reachable_of_newDatabase {result : Except Failure Database} (hr : world.Reachable)
    (hnew : env.newDatabase name schema merge? world = (result, after)) : after.Reachable := by
  have hleads : world.Leads (env.newDatabase name schema merge? world).2 :=
    (honest_newDatabase env name schema merge?).goes world
  rw [hnew] at hleads
  exact hleads.reachable hr

/-- A failure before the database was declared is none of a later call. -/
theorem not_failedLate_declare (message : String) :
    ¬FailedLate (.engine "declare database" message) := by
  intro h
  generalize hop : Failure.engine "declare database" message = failure at h
  cases h with
  | resolve _ => simp at hop
  | install _ => simp at hop

/-- A declaration that fails leaves the merge functions as they were. Up to the call that declares the
database no object has changed, and a repeated declaration answers what this one would have; after it
the database is declared, and a repeated declaration is refused. -/
theorem newDatabase_error (hr : world.Reachable)
    (hfail : env.newDatabase name schema merge? world = (.error failure, after)) :
    world.Restores after ∧
      ((¬FailedLate failure ∧ after.engine.objects = world.engine.objects ∧
          env.answer name schema merge? after = env.answer name schema merge? world) ∨
        (FailedLate failure ∧
          world.engine.objects.declare env.handle name schema.fields = .ok after.engine.objects ∧
          (∃ db, env.answer name schema merge? world = .ok db) ∧
          env.answer name schema merge? after =
            .error (.engine "declare database" (Refusal.duplicateDatabase name).message))) := by
  rcases env.newDatabase_obstacle name schema merge? world with
    ⟨failure', hnew, -, hearly⟩ | ⟨hopen, hname⟩
  · rw [hnew] at hfail
    cases hfail
    exact ⟨(World.Follows.refl world).restores, .inl ⟨hearly, rfl, rfl⟩⟩
  · obtain ⟨result, middle, hfirst, hfollows, hcases⟩ := declare_cases env world name schema.fields
    rw [newDatabase_apply hopen hname, attempt_bind_apply, hfirst] at hfail
    rcases hcases with ⟨message, rfl, hsame⟩ | ⟨rfl, hdeclare⟩
    · cases hfail
      refine ⟨hfollows.restores, .inl ⟨not_failedLate_declare message, hsame, ?_⟩⟩
      exact answer_congr hsame (hfollows.closed _) (hfollows.registry _)
    · obtain ⟨result, after', hrest, hcontinues, hcases⟩ :=
        afterDeclaring_cases hr.sound hdeclare merge?
      dsimp only at hfail
      rw [hrest] at hfail
      rcases hcases with ⟨⟨failure', rfl, hlate⟩, -, hkept, hrestores⟩ | ⟨rfl, -⟩
      · cases hfail
        refine ⟨fun e he => ?_, .inr ⟨hlate, by rw [hkept, hdeclare], ?_, ?_⟩⟩
        · rw [← hfollows.registry e] at he ⊢
          exact hrestores e he
        · rw [answer_of_open hopen hname, hdeclare]
          exact ⟨_, rfl⟩
        · have hstill : (after.link env.handle).closed = false := by
            rw [hcontinues.closed, hfollows.closed, hopen]
          rw [answer_of_open hstill hname, hkept, Objects.declare_again hdeclare schema.fields]
      · cases hfail

end Client.Environment
end RowStore
