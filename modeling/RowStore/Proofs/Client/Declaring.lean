/-
# Declaring databases

A declaration adds the database and enters it in its environment, resolves it, and installs its merge
function. Any of these calls may be planned to fail. Then the client is refused: nothing has changed if
it was the first call, and otherwise the database stays declared while the merge functions are those
there were. A client that is not refused has the handle of the database that was added, with the fields
of its schema and its merge function installed. Without planned failures a refusal changes nothing.

Key definitions: `Engine.Objects.Declares`, `World.Continues`, `World.Restores`,
`Client.Environment.FailedLate`.
Key theorems: `Client.Environment.declare_cases`, `Client.Environment.afterDeclaring_cases`,
`Client.Environment.newDatabase_cases`.
-/
import RowStore.Proofs.Data.Tables
import RowStore.Proofs.Engine.Changes

namespace RowStore

/-! ### What a declaration changes -/

namespace Engine.Objects

variable {objects objects' : Objects} {h : Handle} {name : String} {fields : List Field}

/-- The database that a declaration adds, its key fields first. -/
def declared (h : Handle) (name : String) (fields : List Field) : Database where
  env := h
  name := name
  fields := fields.filter (·.isKey) ++ fields.filter (!·.isKey)

/-- A database is added under the next handle, and its environment is replaced by one that is opened if
it was. -/
structure Declares (h : Handle) (name : String) (fields : List Field) (objects objects' : Objects) :
    Prop where
  issued : objects'.issued = objects.issued + 1
  env : ∃ env env' : Environment, objects.table.get? h = some (.environment env) ∧
    objects'.table.get? h = some (.environment env') ∧ env'.opened = env.opened
  added : ∃ hook? : Option Hook, objects'.table.get? (objects.issued + 1) =
    some (.database { declared h name fields with hook? })
  same : ∀ h', h' ≠ h → h' ≠ objects.issued + 1 →
    objects'.table.get? h' = objects.table.get? h'

/-- A declaration adds a database and enters it in its environment. -/
theorem declare_eq_ok (hr : objects.declare h name fields = .ok objects') :
    ∃ env : Environment, objects.table.get? h = some (.environment env) ∧
      objects' = (objects.add (.database (declared h name fields))).2.put h (.environment
        { env with databases := env.databases.insert name (objects.issued + 1) }) := by
  unfold declare at hr
  dsimp only at hr
  split at hr
  · cases hr
  obtain ⟨env, henv, hr⟩ := bind_eq_ok.1 hr
  split at hr
  · cases hr
  split at hr
  · cases hr
  cases hr
  exact ⟨env, environment_eq_ok.1 henv, rfl⟩

/-- The path of a database leads to what is entered under its name. -/
theorem resolve_db {env : Environment} (henv : objects.table.get? h = some (.environment env))
    (name : String) : objects.resolve h ("db." ++ name) = .ok (env.databases.get? name) := by
  unfold resolve
  rw [environment_eq_ok.2 henv, String.toList_append]
  show Except.ok (env.databases.get? (String.ofList name.toList)) = _
  rw [String.ofList_toList]

end Engine.Objects

/-! ### Operations that go on -/

/-- The world after operations that neither create nor close an environment: it is reachable and free
of faults if it was, and the same environments are closed. -/
structure World.Continues (world world' : World) : Prop where
  reachable : world.Reachable → world'.Reachable
  faultFree : world.FaultFree → world'.FaultFree
  closed : ∀ env, (world'.link env).closed = (world.link env).closed

namespace World

variable {world world' world'' : World}

theorem Continues.refl (world : World) : world.Continues world := ⟨id, id, fun _ => rfl⟩

theorem Continues.trans (h : world.Continues world') (h' : world'.Continues world'') :
    world.Continues world'' where
  reachable hr := h'.reachable (h.reachable hr)
  faultFree hf := h'.faultFree (h.faultFree hf)
  closed env := (h'.closed env).trans (h.closed env)

theorem Follows.continues (h : world.Follows world') : world.Continues world' :=
  ⟨h.reachable, h.faultFree, h.closed⟩

theorem Serves.continues {env : Handle} (hs : world.Serves env) (h : world.Continues world') :
    world'.Serves env where
  reachable := h.reachable hs.reachable
  faultFree := h.faultFree hs.faultFree
  isOpen := (h.closed env).trans hs.isOpen

end World

/-! ### Calls that may be planned to fail -/

namespace Client

variable {world : World}

theorem objects_diagnostic (env : Handle) (world : World) :
    (diagnostic? env world).2.engine.objects = world.engine.objects := by
  show (call (.getBytes env Engine.diagnosticKey) world).2.engine.objects = _
  rcases call_cases (.getBytes env Engine.diagnosticKey) world with hreach | ⟨-, -, hsame⟩
  · have hengine : (call (.getBytes env Engine.diagnosticKey) world).2.engine =
      (world.engine.getBytes env Engine.diagnosticKey).2 := congrArg Prod.snd hreach
    rw [hengine]
    unfold Engine.getBytes
    rw [if_pos rfl]
  · rw [hsame]

/-- A change that an operation asks for is refused, or the call was planned to fail, and no object has
changed; or it is carried out. -/
theorem orRefused_cases {action : Engine.Action .flag} {change : Except Refusal Engine.Objects}
    (hstep : world.engine.step world.mergeFunctions action = world.engine.attemptFlag change)
    (env : Handle) (operation : String) :
    ∃ result after, orRefused env operation action world = (result, after) ∧ world.Follows after ∧
      ((∃ message, result = .error (.engine operation message) ∧
          after.engine.objects = world.engine.objects) ∨
        result = .ok () ∧ change = .ok after.engine.objects) := by
  have hfollows : world.Follows (orRefused env operation action world).2 :=
    tame_orRefused env operation action world
  have hcall := call_cases action world
  rw [hstep] at hcall
  rw [orRefused_apply] at hfollows ⊢
  generalize call action world = called at hcall hfollows ⊢
  obtain ⟨answer, after⟩ := called
  rcases hcall with hreach | ⟨-, ⟨code, hanswer⟩, hsame⟩
  · obtain ⟨hanswer, hengine⟩ := Prod.mk.inj hreach
    dsimp only at hanswer hengine
    cases change with
    | ok objects =>
      obtain rfl : answer = true := hanswer
      exact ⟨.ok (), after, rfl, hfollows, .inr ⟨rfl, by rw [hengine]; rfl⟩⟩
    | error refusal =>
      obtain rfl : answer = false := hanswer
      refine ⟨_, _, rfl, hfollows, .inl ⟨_, rfl, (objects_diagnostic env after).trans ?_⟩⟩
      rw [hengine]
      rfl
  · obtain rfl : answer = false := hanswer
    refine ⟨_, _, rfl, hfollows, .inl ⟨_, rfl, (objects_diagnostic env after).trans ?_⟩⟩
    exact congrArg Engine.objects hsame

/-- A call that would be answered with a handle and changes no object is, or it was planned to fail. -/
theorem handleOrRefused_cases {action : Engine.Action .handle} {h : Handle} {engine : Engine}
    (hstep : world.engine.step world.mergeFunctions action = (some h, engine))
    (hsame : engine.objects = world.engine.objects) (env : Handle) (operation : String) :
    ∃ result after, handleOrRefused env operation action world = (result, after) ∧
      world.Follows after ∧ after.engine.objects = world.engine.objects ∧
      ((∃ message, result = .error (.engine operation message)) ∧ ¬world.FaultFree ∨
        result = .ok h) := by
  have hfollows : world.Follows (handleOrRefused env operation action world).2 :=
    tame_handleOrRefused env operation action world
  have hcall := call_cases action world
  rw [hstep] at hcall
  rw [handleOrRefused_apply] at hfollows ⊢
  generalize call action world = called at hcall hfollows ⊢
  obtain ⟨answer, after⟩ := called
  rcases hcall with hreach | ⟨hplanned, ⟨code, hanswer⟩, hkept⟩
  · obtain ⟨rfl, rfl⟩ := Prod.mk.inj hreach
    exact ⟨.ok h, after, rfl, hfollows, hsame, .inr rfl⟩
  · obtain rfl : answer = none := hanswer
    refine ⟨_, _, rfl, hfollows, (objects_diagnostic env after).trans ?_,
      .inl ⟨⟨_, rfl⟩, hplanned⟩⟩
    exact congrArg Engine.objects hkept

end Client

/-! ### Merge functions -/

/-- The registry has functions for tokens only that it issued. -/
def Registry.Counted (registry : Registry) : Prop :=
  ∀ token, registry.issued < token → registry.functions.get? token = none

/-- A function that is registered and unregistered leaves no trace among the functions. -/
theorem Registry.Counted.unregister_register {registry : Registry} (h : registry.Counted)
    (f : MergeFn) :
    ((registry.register f).2.unregister (registry.register f).1).functions = registry.functions := by
  refine Table.ext_get? fun token => ?_
  show ((registry.functions.insert (registry.issued + 1) f).erase (registry.issued + 1)).get? token = _
  rw [Table.get?_erase, Table.get?_insert]
  split
  · next heq => rw [heq, h _ (Nat.lt_succ_self _)]
  · rfl

/-- Every environment has the merge functions that it had, provided that its tokens are counted. -/
def World.Restores (world world' : World) : Prop :=
  ∀ e, (world.link e).registry.Counted →
    (world'.link e).registry.functions = (world.link e).registry.functions

theorem World.Follows.restores {world world' : World} (h : world.Follows world') :
    world.Restores world' := fun e _ => congrArg Registry.functions (h.registry e)

namespace Client.Environment

open Engine (Objects)

variable {env : Environment} {world : World}

theorem continues_setRegistry (world : World) (e : Handle) (registry : Registry) :
    world.Continues (world.setLink e { world.link e with registry }) where
  reachable hr := hr.register _ _
  faultFree := id
  closed e' := by
    rw [World.link_setLink]
    split
    · next heq => rw [heq]
    · rfl

/-- A merge function is registered, and unregistered again if it cannot be installed. -/
theorem installMerge_apply (env : Environment) (d : Handle) (f : MergeFn) (world : World) :
    env.installMerge d f world =
      match call (.installHook d ⟨env.handle, (world.link env.handle).registry.issued + 1⟩)
        (env.register f world).2 with
      | (true, after) => (.ok ((world.link env.handle).registry.issued + 1), after)
      | (false, after) => refused env.handle "install upsert"
        (env.unregister ((world.link env.handle).registry.issued + 1) after).2 := by
  have htoken : (env.register f world).1 = (world.link env.handle).registry.issued + 1 := rfl
  unfold installMerge
  rw [lift_bind_apply, lift_bind_apply, htoken]
  generalize call _ _ = called
  obtain ⟨_ | _, after⟩ := called <;> rfl

/-- A merge function is installed in a database that is live; or the call was planned to fail, and the
function is unregistered again. -/
theorem installMerge_cases {d : Handle} {db : Engine.Database}
    (hdb : world.engine.objects.table.get? d = some (.database db)) (env : Environment)
    (f : MergeFn) :
    ∃ result after, env.installMerge d f world = (result, after) ∧ world.Continues after ∧
      ((∃ message, result = .error (.engine "install upsert" message)) ∧ ¬world.FaultFree ∧
          after.engine.objects = world.engine.objects ∧ world.Restores after ∨
        result = .ok ((world.link env.handle).registry.issued + 1) ∧
          after.engine.objects = world.engine.objects.put d (.database { db with
            hook? := some ⟨env.handle, (world.link env.handle).registry.issued + 1⟩ })) := by
  rw [installMerge_apply]
  generalize htoken : (world.link env.handle).registry.issued + 1 = token
  have hregister : world.Continues (env.register f world).2 := continues_setRegistry world _ _
  have hfollows := World.follows_call (.installHook d ⟨env.handle, token⟩) (env.register f world).2
  have hcall := call_cases (.installHook d ⟨env.handle, token⟩) (env.register f world).2
  have hstep : (env.register f world).2.engine.step (env.register f world).2.mergeFunctions
      (.installHook d ⟨env.handle, token⟩) = (true, { world.engine with
        objects := world.engine.objects.put d (.database { db with
          hook? := some ⟨env.handle, token⟩ })
        diagnostic? := none }) := by
    show world.engine.attemptFlag (world.engine.objects.installHook d _) = _
    unfold Objects.installHook
    rw [Objects.database_eq_ok.2 hdb]
    rfl
  rw [hstep] at hcall
  generalize call _ (env.register f world).2 = called at hfollows hcall ⊢
  obtain ⟨answer, after⟩ := called
  rcases hcall with hreach | ⟨hplanned, ⟨code, hanswer⟩, hkept⟩
  · obtain ⟨rfl, hengine⟩ := Prod.mk.inj hreach
    exact ⟨_, after, rfl, hregister.trans hfollows.continues, .inr ⟨rfl, by rw [hengine]⟩⟩
  · obtain rfl : answer = false := hanswer
    have hunregister : after.Continues (env.unregister token after).2 :=
      continues_setRegistry after _ _
    have hread : (env.unregister token after).2.Follows
        (diagnostic? env.handle (env.unregister token after).2).2 :=
      (routine_diagnostic env.handle trivial : Plain _).tame _
    refine ⟨_, _, rfl, ((hregister.trans hfollows.continues).trans hunregister).trans
      hread.continues, .inl ⟨⟨_, rfl⟩, hplanned, ?_, fun e he => ?_⟩⟩
    · exact (objects_diagnostic _ _).trans (congrArg Engine.objects hkept)
    · show ((diagnostic? env.handle (env.unregister token after).2).2.link e).registry.functions = _
      rw [hread.registry]
      have hlink := hfollows.registry
      show ((after.setLink env.handle _).link e).registry.functions = _
      rw [World.link_setLink]
      split
      · next heq =>
        subst heq
        show ((after.link env.handle).registry.unregister token).functions = _
        rw [hlink]
        show (((world.setLink env.handle _).link env.handle).registry.unregister token).functions = _
        rw [World.link_setLink, if_pos rfl, ← htoken]
        exact he.unregister_register f
      · next hne =>
        rw [hlink]
        show ((world.setLink env.handle _).link e).registry.functions = _
        rw [World.link_setLink, if_neg hne]

/-! ### Declarations -/

/-- The database of a handle, as the client has it. -/
def database (env : Environment) (handle : Handle) (name : String) (schema : Schema)
    (token? : Option Nat) : Database where
  env := env.handle
  handle := handle
  name := name
  schema := schema
  termination := env.termination
  token? := token?

/-- What is done once a database is declared. -/
def afterDeclaring (env : Environment) (name : String) (schema : Schema) (merge? : Option MergeFn) :
    Attempt Database := do
  let handle ← handleOrRefused env.handle "resolve database" (.resolve env.handle ("db." ++ name))
  let token? ← merge?.mapM (env.installMerge handle)
  return env.database handle name schema token?

theorem newDatabase_eq (env : Environment) (name : String) (schema : Schema)
    (merge? : Option MergeFn) : env.newDatabase name schema merge? = (do
      ensureOpen env.handle
      if !isDatabaseName name then throw (.invalidName name)
      orRefused env.handle "declare database" (.declare env.handle name schema.fields)
      env.afterDeclaring name schema merge?) := rfl

/-- The failure of a declaration that the engine had carried out: the database could not be resolved, or
its merge function not be installed. -/
inductive FailedLate : Failure → Prop where
  | resolve (message : String) : FailedLate (.engine "resolve database" message)
  | install (message : String) : FailedLate (.engine "install upsert" message)

/-- Declaring a database on the engine fails and nothing has changed, or it is added. -/
theorem declare_cases (env : Environment) (world : World) (name : String) (fields : List Field) :
    ∃ result after, orRefused env.handle "declare database" (.declare env.handle name fields) world =
        (result, after) ∧ world.Follows after ∧
      ((∃ message, result = .error (.engine "declare database" message) ∧
          after.engine.objects = world.engine.objects) ∨
        result = .ok () ∧
          world.engine.objects.declare env.handle name fields = .ok after.engine.objects) :=
  orRefused_cases rfl env.handle "declare database"

/-- A declaration that comes as far as the engine. -/
theorem newDatabase_apply (hopen : (world.link env.handle).closed = false) {name : String}
    (hname : isDatabaseName name = true) (schema : Schema) (merge? : Option MergeFn) :
    env.newDatabase name schema merge? world =
      (orRefused env.handle "declare database" (.declare env.handle name schema.fields) >>= fun _ =>
        env.afterDeclaring name schema merge? : Attempt Database) world := by
  rw [newDatabase_eq, attempt_bind_apply, ensureOpen_apply hopen]
  dsimp only
  rw [hname]
  rfl

/-- A merge function, if there is one, is installed in the database that was added; or the call was
planned to fail. -/
theorem installAll_cases {objects : Objects} {name : String} {fields : List Field}
    (hd : Objects.Declares env.handle name fields objects world.engine.objects)
    (merge? : Option MergeFn) :
    ∃ result after, merge?.mapM (env.installMerge (objects.issued + 1)) world = (result, after) ∧
      world.Continues after ∧
      ((∃ message, result = .error (.engine "install upsert" message)) ∧ ¬world.FaultFree ∧
          after.engine.objects = world.engine.objects ∧ world.Restores after ∨
        result = .ok (merge?.map fun _ => (world.link env.handle).registry.issued + 1) ∧
          Objects.Declares env.handle name fields objects after.engine.objects) := by
  cases merge? with
  | none => exact ⟨_, world, rfl, .refl world, .inr ⟨rfl, hd⟩⟩
  | some f =>
    obtain ⟨hook?, hadded⟩ := hd.added
    obtain ⟨result, after, hinstall, hcontinues, hcases⟩ := installMerge_cases hadded env f
    have happly : (some f).mapM (env.installMerge (objects.issued + 1)) world =
        ((env.installMerge (objects.issued + 1) f >>= fun token => pure (some token) :
          Attempt (Option Nat))) world := rfl
    rw [happly, attempt_bind_apply, hinstall]
    rcases hcases with ⟨⟨message, rfl⟩, hfailed⟩ | ⟨rfl, hobjects⟩
    · exact ⟨_, after, rfl, hcontinues, .inl ⟨⟨message, rfl⟩, hfailed⟩⟩
    · refine ⟨_, after, rfl, hcontinues, .inr ⟨rfl, ?_⟩⟩
      rw [hobjects]
      refine ⟨hd.issued, ?_, ⟨some ⟨env.handle, (world.link env.handle).registry.issued + 1⟩, ?_⟩,
        fun h' hne hadd => ?_⟩
      · obtain ⟨e, e', he, he', hopened⟩ := hd.env
        refine ⟨e, e', he, ?_, hopened⟩
        rw [Objects.get?_put, if_neg, he']
        intro heq
        rw [heq, hadded] at he'
        cases he'
      · rw [Objects.get?_put, if_pos rfl]
      · rw [Objects.get?_put, if_neg hadd, hd.same h' hne hadd]

/-- Once a database is declared, the client has it; or a call was planned to fail, and the database
stays declared while the merge functions are those there were. -/
theorem afterDeclaring_cases {objects : Objects} (hs : objects.Sound) {name : String}
    {schema : Schema} (hdeclare : objects.declare env.handle name schema.fields =
      .ok world.engine.objects) (merge? : Option MergeFn) :
    ∃ result after, env.afterDeclaring name schema merge? world = (result, after) ∧
      world.Continues after ∧
      ((∃ failure, result = .error failure ∧ FailedLate failure) ∧ ¬world.FaultFree ∧
          after.engine.objects = world.engine.objects ∧ world.Restores after ∨
        result = .ok (env.database (objects.issued + 1) name schema
            (merge?.map fun _ => (world.link env.handle).registry.issued + 1)) ∧
          Objects.Declares env.handle name schema.fields objects after.engine.objects) := by
  obtain ⟨e, he, hobjects⟩ := Objects.declare_eq_ok hdeclare
  have hnext : env.handle ≠ objects.issued + 1 := fun heq => by
    rw [heq, hs.fresh] at he
    cases he
  have henv : world.engine.objects.table.get? env.handle = some (.environment
      { e with databases := e.databases.insert name (objects.issued + 1) }) := by
    rw [hobjects, Objects.get?_put, if_pos rfl]
  have hdeclares : Objects.Declares env.handle name schema.fields objects world.engine.objects := by
    refine ⟨congrArg Objects.issued hobjects, ⟨e, _, he, henv, rfl⟩, ⟨none, ?_⟩,
      fun h' hne hadd => ?_⟩ <;> rw [hobjects]
    · rw [Objects.get?_put, if_neg hnext.symm, Objects.get?_add, if_pos rfl]
      rfl
    · rw [Objects.get?_put, if_neg hne, Objects.get?_add, if_neg hadd]
  have hstep : world.engine.step world.mergeFunctions (.resolve env.handle ("db." ++ name)) =
      (some (objects.issued + 1), { world.engine with diagnostic? := none }) := by
    show world.engine.inquire (world.engine.objects.resolve env.handle ("db." ++ name)) = _
    rw [Objects.resolve_db henv, Table.get?_insert, if_pos rfl]
    rfl
  obtain ⟨result, middle, hresolve, hfollows, hsame, hcases⟩ :=
    handleOrRefused_cases hstep rfl env.handle "resolve database"
  unfold afterDeclaring
  rw [attempt_bind_apply, hresolve]
  rcases hcases with ⟨⟨message, rfl⟩, hplanned⟩ | rfl
  · exact ⟨_, middle, rfl, hfollows.continues,
      .inl ⟨⟨_, rfl, .resolve message⟩, hplanned, hsame, hfollows.restores⟩⟩
  · rw [← hsame] at hdeclares
    obtain ⟨result, after, hinstall, hcontinues, hcases⟩ := installAll_cases hdeclares merge?
    dsimp only
    rw [attempt_bind_apply, hinstall]
    have hrest := hfollows.continues.trans hcontinues
    rcases hcases with ⟨⟨message, rfl⟩, hplanned, hkept, hrestores⟩ | ⟨rfl, hafter⟩
    · refine ⟨_, after, rfl, hrest, .inl ⟨⟨_, rfl, .install message⟩,
        fun hf => hplanned (hfollows.faultFree hf), hkept.trans hsame, fun e he => ?_⟩⟩
      rw [← hfollows.registry e] at he ⊢
      exact hrestores e he
    · exact ⟨_, after, rfl, hrest, .inr ⟨by rw [← hfollows.registry], hafter⟩⟩

/-- A declaration is refused and nothing has changed, or the client has the database that was
added. -/
theorem newDatabase_cases (hs : world.Serves env.handle) (name : String) (schema : Schema)
    (merge? : Option MergeFn) :
    ∃ result after, env.newDatabase name schema merge? world = (result, after) ∧
      world.Continues after ∧
      ((∃ failure, result = .error failure ∧ after.engine.objects = world.engine.objects) ∨
        ∃ token?,
          result = .ok (env.database (world.engine.objects.issued + 1) name schema token?) ∧
          Objects.Declares env.handle name schema.fields world.engine.objects
            after.engine.objects) := by
  by_cases hname : isDatabaseName name = true
  · obtain ⟨result, middle, hfirst, hfollows, hcases⟩ := declare_cases env world name schema.fields
    rw [newDatabase_apply hs.isOpen hname, attempt_bind_apply, hfirst]
    rcases hcases with ⟨message, rfl, hsame⟩ | ⟨rfl, hdeclare⟩
    · exact ⟨_, middle, rfl, hfollows.continues, .inl ⟨_, rfl, hsame⟩⟩
    · obtain ⟨result, after, hrest, hcontinues, hcases⟩ :=
        afterDeclaring_cases hs.reachable.sound hdeclare merge?
      refine ⟨result, after, hrest, hfollows.continues.trans hcontinues, .inr ?_⟩
      rcases hcases with ⟨-, hplanned, -⟩ | ⟨rfl, hdeclares⟩
      · exact absurd (hfollows.faultFree hs.faultFree) hplanned
      · exact ⟨_, rfl, hdeclares⟩
  · rw [newDatabase_eq, attempt_bind_apply, ensureOpen_apply hs.isOpen]
    dsimp only
    rw [Bool.eq_false_iff.2 hname]
    exact ⟨_, world, rfl, .refl world, .inl ⟨_, rfl, rfl⟩⟩

end Client.Environment
end RowStore
