/-
# Declarations that fail in a session

A registry has functions for tokens only that it issued, in every session: tokens are issued when a
function is registered, and whatever else a client does takes functions away or leaves them alone. So a
function that is registered for a declaration and unregistered again leaves the merge functions as they
were. Whatever a session did before, and whichever calls are planned to fail, a declaration that fails
changes no merge function. It leaves a name behind exactly if it failed after the engine had carried it
out.

Key definitions: `World.Counted`, `World.calm`.
Key theorems: `Session.counted_run`, `Session.newDatabase_failed`.
-/
import RowStore.Proofs.Client.Retrying
import RowStore.Proofs.Session.Balance

namespace RowStore

/-! ### Tokens that were issued -/

namespace Registry.Counted

variable {registry : Registry}

theorem empty : Counted {} := fun _ _ => rfl

theorem register (h : registry.Counted) (f : MergeFn) : (registry.register f).2.Counted := by
  intro token hlt
  have hissued : registry.issued + 1 < token := hlt
  show (registry.functions.insert (registry.issued + 1) f).get? token = none
  rw [Table.get?_insert, if_neg (Nat.ne_of_gt hissued)]
  exact h token (Nat.lt_of_succ_lt hissued)

theorem unregister (h : registry.Counted) (token : Nat) : (registry.unregister token).Counted := by
  intro token' hlt
  show (registry.functions.erase token).get? token' = none
  rw [Table.get?_erase]
  split
  · rfl
  · exact h token' hlt

theorem clear (registry : Registry) : registry.clear.Counted := fun _ _ => rfl

end Registry.Counted

namespace World

variable {world world' : World}

/-- Every registry has functions for tokens only that it issued. -/
def Counted (world : World) : Prop := ∀ e, (world.link e).registry.Counted

theorem Counted.setLink (h : world.Counted) (e : Handle) {link : Link}
    (hlink : link.registry.Counted) : (world.setLink e link).Counted := by
  intro e'
  rw [link_setLink]
  split
  · exact hlink
  · exact h e'

theorem Counted.follows (h : world.Counted) (hfollows : world.Follows world') : world'.Counted := by
  intro e
  rw [hfollows.registry]
  exact h e

/-- The tokens stay counted. -/
def Counts (world world' : World) : Prop := world.Counted → world'.Counted

theorem Counts.of_steps (h : Relation.ReflTransGen Counts world world') (hc : world.Counted) :
    world'.Counted := by
  induction h with
  | refl => exact hc
  | tail _ hstep ih => exact hstep ih

/-- The world with no call planned to fail. -/
def calm (world : World) : World := { world with plans := fun _ => [] }

end World

/-! ### What clients do to registries -/

namespace Client

open World (Counts)

instance : Regular Counts where
  plain hx world := .single fun h => h.follows (hx.tame world)
  register env f _ h := h.setLink _ ((h env.handle).register f)
  unregister env token _ h := h.setLink _ ((h env.handle).unregister token)
  clearRegistry env world h := h.setLink _ (.clear (world.link env.handle).registry)
  advance _ _ h := h
  plan _ _ _ h := h

namespace Environment

theorem counts_close (env : Environment) (world : World) : Counts world (env.close world).2 := by
  intro h
  cases hclosed : (world.link env.handle).closed with
  | true =>
    unfold close
    rw [lift_bind_apply, isClosed_apply, hclosed]
    exact h
  | false =>
    rw [close_of_open hclosed]
    have hshut : (env.shut world).Counted := h.setLink _ (.clear _)
    exact hshut.follows (tame_orRefused env.handle "close environment" _ (env.shut world))

theorem counts_release (env : Environment) (world : World) :
    Counts world (env.release world).2 := by
  cases hclosed : (world.link env.handle).closed with
  | true =>
    unfold release
    rw [bind_apply, isClosed_apply, hclosed]
    exact id
  | false =>
    rw [release_of_open hclosed]
    exact env.counts_close world

theorem counts_afterMaking (env : Environment) (path? : Option String) (world : World) :
    Counts world (env.afterMaking path? world).2 := by
  intro h
  cases path? with
  | none => exact h
  | some path =>
    have hset : (env.setBytes Engine.pathKey (Bytes.ofText path) world).2.Counted :=
      h.follows ((quiet_setBytes env Engine.pathKey (Bytes.ofText path)).plain.tame world)
    unfold afterMaking
    dsimp only
    rw [tryCatch_apply]
    rcases hresult : env.setBytes Engine.pathKey (Bytes.ofText path) world with ⟨failure | _, after⟩
    · rw [hresult] at hset
      exact env.counts_release after hset
    · rw [hresult] at hset
      exact hset

/-- A new environment has no merge functions. -/
theorem counts_create (path? : Option String) (policy : CachePolicy) (termination : Termination)
    (world : World) : Counts world (create path? policy termination world).2 := by
  intro h
  have hcalled := h.follows (World.follows_call .newEnvironment world)
  rw [create_apply]
  rcases hcall : call .newEnvironment world with ⟨_ | handle, after⟩
  · rw [hcall] at hcalled
    exact hcalled
  · rw [hcall] at hcalled
    have hlinked : (after.setLink handle { cache := .ofPolicy policy }).Counted :=
      hcalled.setLink handle .empty
    have hmade := counts_afterMaking { handle, path?, policy, termination } path? _ hlinked
    dsimp only
    rw [attempt_bind_apply]
    rcases hpath : afterMaking { handle, path?, policy, termination } path?
      (after.setLink handle { cache := .ofPolicy policy }) with ⟨failure | _, final⟩
    · rw [hpath] at hmade
      exact hmade
    · rw [hpath] at hmade
      exact hmade

end Environment

end Client

namespace Session

open Client
open Environment (FailedLate)

/-- A command keeps the tokens counted. -/
theorem counted_step {session : Session} (h : session.world.Counted) (command : Command) :
    (session.step command).2.world.Counted := by
  refine World.Counts.of_steps (via_perform (fun slot _ => via_drop fun env _ => ?_)
    (fun path? policy termination world => ?_) fun slot _ => via_closeEnvironment fun env _ => ?_) h
  · exact .single (env.counts_release session.world)
  · exact .single (Environment.counts_create path? policy termination world)
  · exact .single (env.counts_close session.world)

/-- In every session the registries have functions for tokens only that they issued. -/
theorem counted_run (commands : List Command) : (run {} commands).2.world.Counted :=
  run_of_step (P := fun session => session.world.Counted) (fun command h => counted_step h command)
    commands fun _ => .empty

/-- Without planned failures a declaration answers by what the engine and its environment are. -/
theorem newDatabase_calm {world : World} (hr : world.Reachable) {env : Environment} {name : String}
    {schema : Schema} {merge? : Option MergeFn} :
    (env.newDatabase name schema merge? world.calm).1 = env.answer name schema merge? world :=
  Environment.newDatabase_fst (hr.plan _) rfl

/-- **What a failed declaration leaves behind.** Whatever a session did before and whichever calls are
planned to fail: if a declaration fails, every environment has the merge functions that it had. If it
failed before the engine had carried it out, no object has changed and no name is declared that was not,
and the declaration answers, repeated without planned failures, as it would have without them. If it
failed after that, the environment has one name more, that of the database; without planned failures the
declaration would have succeeded, and repeated it is refused, since the name is taken. -/
theorem newDatabase_failed (before : List Command) {env : Environment} {name : String}
    {schema : Schema} {merge? : Option MergeFn} {failure : Failure} {after : World}
    (hfail : env.newDatabase name schema merge? (run {} before).2.world = (.error failure, after)) :
    let world := (run {} before).2.world
    (∀ e, (after.link e).registry.functions = (world.link e).registry.functions) ∧
    (¬FailedLate failure → after.engine.objects = world.engine.objects ∧
      (∀ h n, after.engine.objects.IsDeclared h n ↔ world.engine.objects.IsDeclared h n) ∧
      (env.newDatabase name schema merge? after.calm).1 =
        (env.newDatabase name schema merge? world.calm).1) ∧
    (FailedLate failure → ¬world.engine.objects.IsDeclared env.handle name ∧
      (∀ h n, after.engine.objects.IsDeclared h n ↔
        world.engine.objects.IsDeclared h n ∨ h = env.handle ∧ n = name) ∧
      (∃ db, (env.newDatabase name schema merge? world.calm).1 = .ok db) ∧
      (env.newDatabase name schema merge? after.calm).1 =
        .error (.engine "declare database" (Refusal.duplicateDatabase name).message)) := by
  intro world
  have hr : world.Reachable := (rooted_run before).1
  have hr' := Environment.reachable_of_newDatabase hr hfail
  obtain ⟨hrestores, hcases⟩ := Environment.newDatabase_error hr hfail
  rw [newDatabase_calm hr, newDatabase_calm hr']
  refine ⟨fun e => hrestores e (counted_run before e), fun hearly => ?_, fun hlate => ?_⟩
  · rcases hcases with ⟨-, hsame, hagain⟩ | ⟨hlate, -⟩
    · exact ⟨hsame, fun h n => by rw [hsame], hagain⟩
    · exact absurd hlate hearly
  · rcases hcases with ⟨hearly, -⟩ | ⟨-, hdeclare, hdb, hagain⟩
    · exact absurd hlate hearly
    · exact ⟨Engine.Objects.not_isDeclared_of_declare hdeclare,
        Engine.Objects.isDeclared_declare hr.sound hdeclare, hdb, hagain⟩

/-- A session whose environment has a merge function, and whose next call to resolve a name is planned
to fail. -/
def stranding : List Command := [
  .createEnvironment "shop" none .static .early,
  .registry "shop" (.register (.ofActs [.keep 0])),
  .plan .resolve [some 0]]

/-- A session that plans the next installation of a merge function to fail. -/
def uninstalling : List Command := [
  .createEnvironment "shop" none .static .early,
  .registry "shop" (.register (.ofActs [.keep 0])),
  .plan .installHook [some 0]]

/-- The declaration fails, and yet its name is declared. It would have succeeded, and when it is repeated
it fails again. -/
theorem stranded_name :
    let world := (run {} stranding).2.world
    ∃ failure after, shop.newDatabase "orders" .standard none world = (.error failure, after) ∧
      ¬world.engine.objects.IsDeclared 1 "orders" ∧ after.engine.objects.IsDeclared 1 "orders" ∧
      (shop.newDatabase "orders" .standard none world.calm).1.isOk = true ∧
      (shop.newDatabase "orders" .standard none after.calm).1.isOk = false := by
  intro world
  have hfailed : (shop.newDatabase "orders" .standard none world).1 =
      .error (.engine "resolve database" "engine reported no diagnostic") := by cbv
  have hfail : shop.newDatabase "orders" .standard none world =
      (.error (.engine "resolve database" "engine reported no diagnostic"),
        (shop.newDatabase "orders" .standard none world).2) := Prod.ext hfailed rfl
  have hr : world.Reachable := (rooted_run stranding).1
  obtain ⟨-, ⟨hearly, -⟩ | ⟨-, hdeclare, ⟨db, hwould⟩, hagain⟩⟩ :=
    Environment.newDatabase_error hr hfail
  · exact absurd (.resolve _) hearly
  · have htaken := (Engine.Objects.isDeclared_declare hr.sound hdeclare 1 "orders").2
      (.inr ⟨rfl, rfl⟩)
    have hr' := Environment.reachable_of_newDatabase hr hfail
    refine ⟨_, _, hfail, Engine.Objects.not_isDeclared_of_declare hdeclare, htaken, ?_, ?_⟩
    · rw [newDatabase_calm hr, hwould]
      rfl
    · rw [newDatabase_calm hr', hagain]
      rfl

/-- The merge function of the declaration is not installed: the registry keeps the one it had, and the
name stays declared. -/
theorem uninstalling_newDatabase_failed :
    let world := (run {} uninstalling).2.world
    ∃ failure after,
      shop.newDatabase "orders" .standard (some (.ofActs [.double 0])) world =
        (.error failure, after) ∧
      FailedLate failure ∧
      (after.link 1).registry.functions = (world.link 1).registry.functions ∧
      after.engine.objects.IsDeclared 1 "orders" ∧
      (shop.newDatabase "orders" .standard (some (.ofActs [.double 0])) after.calm).1 =
        .error (.engine "declare database" "database 'orders' is already declared") := by
  intro world
  have hfailed : (shop.newDatabase "orders" .standard (some (.ofActs [.double 0])) world).1 =
      .error (.engine "install upsert" "engine reported no diagnostic") := by cbv
  have hfail : shop.newDatabase "orders" .standard (some (.ofActs [.double 0])) world =
      (.error (.engine "install upsert" "engine reported no diagnostic"),
        (shop.newDatabase "orders" .standard (some (.ofActs [.double 0])) world).2) :=
    Prod.ext hfailed rfl
  obtain ⟨hfunctions, -, hlate⟩ := newDatabase_failed uninstalling hfail
  obtain ⟨-, hnames, -, hagain⟩ := hlate (.install _)
  exact ⟨_, _, hfail, .install _, hfunctions 1, (hnames 1 "orders").2 (.inr ⟨rfl, rfl⟩), hagain⟩

end Session
end RowStore
