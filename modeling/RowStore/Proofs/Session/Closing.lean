/-
# Closing is final

Whatever a session did before, once an environment is closed by hand or released while it is open, nothing
of it is left: the engine has no object of it, and its cache and its merge functions are empty. Whatever
the session does then, with this or with other environments, and even if calls are planned to fail, this
stays so, and what belongs to the environment can do nothing: every operation on it leaves the whole world
as it is, and answers with a failure or with nothing.

Key definitions: `Client.Environment.Registers`, `Client.Environment.Finished`.
Key theorems: `Session.run_of_step`, `Session.run_keeps`, `Session.close_final`.
-/
import RowStore.Proofs.Client.Closing
import RowStore.Proofs.Session.Telling

namespace RowStore

namespace Client.Environment

variable {world : World} {env : Environment}

/-- The operations on the merge functions of an environment, which need no engine. -/
inductive Registers (env : Environment) : ∀ {α : Type}, Client α → Prop where
  | register (f : MergeFn) : Registers env (env.register f)
  | unregister (token : Nat) : Registers env (env.unregister token)
  | clear : Registers env env.clearRegistry

/-- Two worlds differ in merge functions only. -/
structure Unmoved (world world' : World) : Prop where
  engine : world'.engine = world.engine
  calls : world'.calls = world.calls
  cache : ∀ e, (world'.link e).cache = (world.link e).cache
  closed : ∀ e, (world'.link e).closed = (world.link e).closed

theorem unmoved_setRegistry (world : World) (e : Handle) (registry : Registry) :
    Unmoved world (world.setLink e { world.link e with registry }) where
  engine := rfl
  calls := rfl
  cache e' := by
    rw [World.link_setLink]
    split
    · next heq => rw [heq]
    · rfl
  closed e' := by
    rw [World.link_setLink]
    split
    · next heq => rw [heq]
    · rfl

theorem Registers.unmoved {α : Type} {x : Client α} (hx : env.Registers x) (world : World) :
    Unmoved world (x world).2 := by
  cases hx with
  | register f => exact unmoved_setRegistry world env.handle _
  | unregister token => exact unmoved_setRegistry world env.handle _
  | clear => exact unmoved_setRegistry world env.handle _

/-- Nothing of the environment is left, and nothing that belongs to it changes the world, but for its
merge functions. -/
structure Finished (env : Environment) (world : World) : Prop where
  owned : world.engine.objects.owned env.handle = []
  names : (world.link env.handle).cache.size = 0
  spent : ∀ {α : Type} {x : Client α} {a : α}, Spent env.handle x a → x world = (a, world)
  registers : ∀ {α : Type} {x : Client α}, env.Registers x → Unmoved world (x world).2

theorem finished_of_gone (hr : world.Reachable) (hg : world.Gone env.handle) :
    env.Finished world where
  owned := hg.owned_eq_nil hr
  names := hg.vacant.size_eq
  spent hs := hs.apply hg.closed
  registers hx := hx.unmoved world

end Client.Environment

namespace Session

open Client

/-- What every command keeps, a session keeps. -/
theorem run_of_step {P : Session → Prop}
    (hstep : ∀ {session : Session} (command : Command), P session → P (session.step command).2)
    (commands : List Command) {session : Session} (h : P session) : P (session.run commands).2 := by
  induction commands generalizing session with
  | nil => exact h
  | cons command commands ih => exact ih (hstep command h)

/-- What every move and every plan keeps, a session keeps. -/
theorem run_keeps {P : World → Prop}
    (hmove : ∀ {world world' : World}, world.Move world' → P world → P world')
    (hplan : ∀ {world : World} (plans : FaultPlans), P world → P { world with plans })
    (commands : List Command) {session : Session} (h : P session.world) :
    P (session.run commands).2.world := by
  refine run_of_step (P := fun session => P session.world) (fun {session} command hp => ?_) commands h
  cases command with
  | plan primitive entries => exact hplan _ hp
  | _ =>
    refine World.Leads.keeps hmove (leads_step session ?_) hp
    trivial

/-- The worlds of a session are reachable, and its environments are rooted. -/
theorem rooted_run (commands : List Command) :
    (run {} commands).2.world.Reachable ∧ (run {} commands).2.world.Rooted :=
  run_keeps (P := fun world => world.Reachable ∧ world.Rooted)
    (fun hm ⟨hr, hrooted⟩ => ⟨hm.reachable hr, hm.rooted hr hrooted⟩)
    (fun plans ⟨hr, hrooted⟩ => ⟨hr.plan plans, hrooted⟩) commands ⟨.start, World.rooted_start⟩

/-- An environment that is gone stays gone in every session. -/
theorem gone_run {e : Handle} (session : Session) (commands : List Command)
    (hr : session.world.Reachable) (hg : session.world.Gone e) :
    (session.run commands).2.world.Reachable ∧ (session.run commands).2.world.Gone e :=
  run_keeps (P := fun world => world.Reachable ∧ world.Gone e)
    (fun hm ⟨hr, hg⟩ => ⟨hm.reachable hr, hm.gone hr hg⟩)
    (fun plans ⟨hr, hg⟩ => ⟨hr.plan plans, hg.of_steady (.refl _) rfl⟩) commands ⟨hr, hg⟩

/-- A command that closes an environment and succeeds ends it. -/
theorem ends_closeEnvironment {session : Session} {slot : Slot} {env : Environment}
    (hget : session.slots.get? slot = some (.environment env))
    (hdone : (session.step (.closeEnvironment slot)).1 = .ok .done) :
    env.Ends session.world (session.step (.closeEnvironment slot)).2.world := by
  have hstep : session.step (.closeEnvironment slot) =
      (attempt env.close >>= fun _ => pure .done : Step Answer) session := by
    show (environment slot >>= fun env => attempt env.close >>= fun _ => pure .done : Step Answer)
      session = _
    rw [attempt_bind_apply, environment, look_apply, hget]
    rfl
  rw [hstep, attempt_bind_apply, attempt_apply] at hdone ⊢
  rcases hclose : env.close session.world with ⟨failure | _, world⟩
  · rw [hclose] at hdone
    cases hdone
  · exact .closed hclose

/-- Dropping an environment that is open ends it, if the call that destroys it is let through. -/
theorem ends_drop {session : Session} {slot : Slot} {env : Environment}
    (hget : session.slots.get? slot = some (.environment env))
    (hopen : (session.world.link env.handle).closed = false)
    (hreached : ∀ code entries, session.world.plans .destroy ≠ some code :: entries) :
    env.Ends session.world (session.step (.drop slot)).2.world := by
  have hdrop : drop slot session =
      (.ok true, { world := (env.release session.world).2, slots := session.slots.erase slot }) := by
    unfold drop
    rw [attempt_bind_apply, held?_apply, hget]
    rfl
  have hstep : (session.step (.drop slot)).2.world = (env.release session.world).2 := by
    show ((drop slot >>= fun dropped =>
      if dropped then pure .done else throw (.noSlot slot) : Step Answer) session).2.world = _
    rw [attempt_bind_apply, hdrop]
    rfl
  rw [hstep]
  exact .released hopen hreached

/-- Once an environment is closed there is nothing left of it, and so it stays, whatever came before and
whatever comes after, and whatever else is held. -/
theorem close_final (before : List Command) {env : Environment} {closed : World}
    (hends : env.Ends (run {} before).2.world closed) (slots : Table Slot Holding)
    (after : List Command) :
    (closed.link env.handle).registry.size = 0 ∧ env.Finished closed ∧
      env.Finished (run { world := closed, slots } after).2.world := by
  obtain ⟨hr, hrooted⟩ := rooted_run before
  have hgone := hends.gone hr hrooted
  have hclosed := hends.leads.reachable hr
  obtain ⟨hlater, hstays⟩ := gone_run { world := closed, slots } after hclosed hgone
  exact ⟨hends.registry_size, Environment.finished_of_gone hclosed hgone,
    Environment.finished_of_gone hlater hstays⟩

/-- A session that holds an open environment, a database and a row. -/
def opening : List Command := [
  .createEnvironment "shop" none .static .early,
  .declareDatabase "shop" "orders" "orders" none none,
  .openEnvironment "shop",
  .newRow "orders" "row"]

/-- The environment that it holds. -/
def shop : Environment := { handle := 1 }

theorem opening_close_final :
    shop.Ends (run {} opening).2.world (shop.close (run {} opening).2.world).2 ∧
      let closed := (shop.close (run {} opening).2.world).2
      (closed.link 1).registry.size = 0 ∧ shop.Finished closed ∧
        shop.Finished (run { world := closed } [.newRow "orders" "late"]).2.world := by
  have hdone : (shop.close (run {} opening).2.world).1 = .ok () := by cbv
  have hends : shop.Ends (run {} opening).2.world (shop.close (run {} opening).2.world).2 :=
    .closed (Prod.ext hdone rfl)
  exact ⟨hends, close_final opening hends {} [.newRow "orders" "late"]⟩

end Session
end RowStore
