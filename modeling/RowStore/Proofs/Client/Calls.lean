/-
# What client operations leave alone

Clients change a world by a few moves: calls of the engine, names acquired and released, links made
and changed. A world that moves lead to is reachable, and then its object table is sound and its
caches hand out the right names. Most operations are routines: they make calls and use names only.
A relation that names and the calls that neither make nor take objects keep to, a mild one, holds along
the routines made of them. Every routine is tame: what follows it has the same links, but for what
their caches count, and is as free of planned faults as before.

Key definitions: `World.Reachable`, `World.FaultFree`, `World.Follows`, `World.Mild`,
`Client.Routine`, `Client.Along`, `Client.Tame`.
Key theorems: `World.Reachable.sound`, `World.Reachable.faithful`, `Client.Routine.along`,
`Client.Routine.tame`.
-/
import RowStore.Client.Environment
import RowStore.Proofs.Engine.Reachable
import RowStore.Proofs.NameCache.Faithful

namespace RowStore

namespace World

variable {world world' world'' : World}

/-! ### Reachable worlds -/

/-- No call is planned to fail. -/
def FaultFree (world : World) : Prop := world.plans = fun _ => []

/-- The worlds that clients lead to: calls are made, names acquired and released, environments
created with an empty cache, given merge functions and closed; calls are planned to fail, and time
passes. -/
inductive Reachable : World → Prop where
  | start : Reachable {}
  | call {world : World} {kind : Engine.AnswerKind} (action : Engine.Action kind) :
    Reachable world → Reachable (Client.call action world).2
  | acquireName {world : World} (env : Handle) (key : String) :
    Reachable world → Reachable (Client.acquireName env key world).2
  | releaseName {world : World} (env : Handle) (key : String) :
    Reachable world → Reachable (Client.releaseName env key world).2
  | create {world : World} (env : Handle) (policy : CachePolicy) :
    Reachable world → Reachable (world.setLink env { cache := .ofPolicy policy })
  | register {world : World} (env : Handle) (registry : Registry) :
    Reachable world → Reachable (world.setLink env { world.link env with registry })
  | close {world : World} (env : Handle) :
    Reachable world → Reachable (world.setLink env
      { closed := true, registry := (world.link env).registry.clear
        cache := (world.link env).cache.clear })
  | plan {world : World} (plans : FaultPlans) : Reachable world → Reachable { world with plans }
  | advance {world : World} (ns : Nat) : Reachable world → Reachable (world.advance ns)

theorem link_setLink (env env' : Handle) (link : Link) :
    (world.setLink env link).link env' = if env' = env then link else world.link env' := by
  unfold World.link World.setLink
  dsimp only
  rw [Table.get?_insert]
  split <;> rfl

/-- A call leaves every link alone. -/
@[simp] theorem link_call {kind : Engine.AnswerKind} (action : Engine.Action kind) (env : Handle) :
    (Client.call action world).2.link env = world.link env := by
  unfold Client.call
  split <;> rfl

/-- The engine after a call, planned to fail or not, is one that calls lead to. -/
theorem reachable_engine_call {kind : Engine.AnswerKind} (action : Engine.Action kind)
    (h : world.engine.Reachable) : (Client.call action world).2.engine.Reachable := by
  unfold Client.call
  split
  · exact h.step _ action
  · exact h.step _ action
  · exact h

theorem Reachable.engine (h : world.Reachable) : world.engine.Reachable := by
  induction h with
  | start => exact .start
  | call action _ ih => exact reachable_engine_call action ih
  | acquireName _ _ _ ih => exact ih
  | releaseName _ _ _ ih => exact ih
  | create _ _ _ ih => exact ih
  | register _ _ _ ih => exact ih
  | close _ _ ih => exact ih
  | plan _ _ ih => exact ih
  | advance _ _ ih => exact ih

/-- Every reachable world has a sound object table. -/
theorem Reachable.sound (h : world.Reachable) : world.engine.objects.Sound := h.engine.sound

/-- A change of one link keeps the caches faithful if it keeps that link's. -/
theorem faithful_of_link {env : Handle} {link : Link}
    (h : ∀ env, (world.link env).cache.Faithful) (hlink : link.cache.Faithful) (env' : Handle) :
    ((world.setLink env link).link env').cache.Faithful := by
  rw [link_setLink]
  split
  · exact hlink
  · exact h env'

/-- Every cache of a reachable world hands out the right names. -/
theorem Reachable.faithful (h : world.Reachable) : ∀ env, (world.link env).cache.Faithful := by
  induction h with
  | start =>
    intro env
    exact NameCache.ofPolicy_faithful _
  | call action _ ih =>
    intro env
    rw [link_call]
    exact ih env
  | acquireName env key _ ih => exact faithful_of_link ih (ih env).acquire
  | releaseName env key _ ih => exact faithful_of_link ih (ih env).release
  | create env policy _ ih => exact faithful_of_link ih (NameCache.ofPolicy_faithful policy)
  | register env registry _ ih => exact faithful_of_link ih (ih env)
  | close env _ ih => exact faithful_of_link ih NameCache.clear_faithful
  | plan _ _ ih => exact ih
  | advance _ _ ih => exact ih

/-! ### What follows a tame operation -/

/-- A world that follows another: no calls are planned to fail if none were, and the links are
those there were, but for their caches. -/
structure Follows (world world' : World) : Prop where
  reachable : world.Reachable → world'.Reachable
  faultFree : world.FaultFree → world'.FaultFree
  closed : ∀ env, (world'.link env).closed = (world.link env).closed
  registry : ∀ env, (world'.link env).registry = (world.link env).registry

theorem Follows.refl (world : World) : world.Follows world := ⟨id, id, fun _ => rfl, fun _ => rfl⟩

theorem Follows.trans (h : world.Follows world') (h' : world'.Follows world'') :
    world.Follows world'' where
  reachable hr := h'.reachable (h.reachable hr)
  faultFree hf := h'.faultFree (h.faultFree hf)
  closed env := (h'.closed env).trans (h.closed env)
  registry env := (h'.registry env).trans (h.registry env)

theorem Follows.mergeFunctions (h : world.Follows world') :
    world'.mergeFunctions = world.mergeFunctions := by
  funext hook
  unfold World.mergeFunctions
  rw [h.registry]

/-- A relation that the world after is in to the world before when names are acquired and released and
calls are made that neither make nor take objects. -/
class Mild (R : World → World → Prop) : Prop where
  refl : ∀ world, R world world
  trans : ∀ {world world' world'' : World}, R world world' → R world' world'' → R world world''
  acquireName : ∀ env key world, R world (Client.acquireName env key world).2
  releaseName : ∀ env key world, R world (Client.releaseName env key world).2
  quiet : ∀ {kind : Engine.AnswerKind} {action : Engine.Action kind}, action.IsQuiet →
    ∀ world, R world (Client.call action world).2

theorem follows_call {kind : Engine.AnswerKind} (action : Engine.Action kind) (world : World) :
    world.Follows (Client.call action world).2 := by
  refine ⟨fun h => h.call action, fun h => ?_, fun env => ?_, fun env => ?_⟩
  · unfold Client.call
    rw [h]
    exact h
  · rw [link_call]
  · rw [link_call]

/-- What a link counts in its cache is all that a change of the cache changes. -/
theorem follows_of_cache (env : Handle) (cache : NameCache)
    (hr : world.Reachable → (world.setLink env { world.link env with cache }).Reachable) :
    world.Follows (world.setLink env { world.link env with cache }) := by
  refine ⟨hr, id, fun env' => ?_, fun env' => ?_⟩
  all_goals
    rw [link_setLink]
    split
    · next h =>
      subst h
      rfl
    · rfl

instance : Mild Follows where
  refl := .refl
  trans := .trans
  acquireName env key _ := follows_of_cache env _ fun hr => hr.acquireName env key
  releaseName env key _ := follows_of_cache env _ fun hr => hr.releaseName env key
  quiet _ := follows_call _

/-- The environment is not closed for its clients, and calls made for it go through. -/
structure Serves (world : World) (env : Handle) : Prop where
  reachable : world.Reachable
  faultFree : world.FaultFree
  isOpen : (world.link env).closed = false

theorem Serves.follows {env : Handle} (hs : world.Serves env) (h : world.Follows world') :
    world'.Serves env where
  reachable := h.reachable hs.reachable
  faultFree := h.faultFree hs.faultFree
  isOpen := (h.closed env).trans hs.isOpen

end World

namespace Client

variable {α β : Type} {world world' : World} {env : Handle}

section Apply

variable {ε σ : Type}

theorem bind_apply (x : StateM σ α) (f : α → StateM σ β) (state : σ) :
    (x >>= f) state = f (x state).1 (x state).2 := rfl

/-- An operation that can fail goes on only from a success. -/
theorem attempt_bind_apply (x : ExceptT ε (StateM σ) α) (f : α → ExceptT ε (StateM σ) β)
    (state : σ) :
    (x >>= f) state = match x state with
      | (.ok a, after) => f a after
      | (.error failure, after) => (.error failure, after) := by
  show (ExceptT.bindCont f (x state).1) (x state).2 = _
  rcases x state with ⟨failure | a, after⟩ <;> rfl

theorem lift_bind_apply (x : StateM σ α) (f : α → ExceptT ε (StateM σ) β) (state : σ) :
    ((liftM x : ExceptT ε (StateM σ) α) >>= f) state = f (x state).1 (x state).2 := rfl

theorem tryCatch_apply (x : ExceptT ε (StateM σ) α) (handle : ε → ExceptT ε (StateM σ) α)
    (state : σ) :
    tryCatch x handle state = match x state with
      | (.ok a, after) => (.ok a, after)
      | (.error failure, after) => handle failure after := by
  show (tryCatch x handle).run state = _
  rw [ExceptT.run_tryCatch, bind_apply]
  have hrun : x.run state = x state := rfl
  rw [hrun]
  rcases x state with ⟨failure | a, after⟩ <;> rfl

end Apply

/-- An operation in two parts succeeds if both do. -/
theorem bind_eq_ok {x : Attempt α} {f : α → Attempt β} {b : β} :
    (x >>= f) world = (.ok b, world') ↔
      ∃ a middle, x world = (.ok a, middle) ∧ f a middle = (.ok b, world') := by
  rw [attempt_bind_apply]
  rcases x world with ⟨failure | a, middle⟩
  · constructor
    · intro h
      cases h
    · rintro ⟨a, middle', h, -⟩
      cases h
  · constructor
    · exact fun h => ⟨a, middle, rfl, h⟩
    · rintro ⟨a', middle', h, hf⟩
      cases h
      exact hf

/-- Without a plan every call goes through. -/
theorem call_apply (h : world.FaultFree) {kind : Engine.AnswerKind} (action : Engine.Action kind) :
    call action world = world.reach action := by
  unfold call
  rw [h]

/-- A call is carried out, or it was planned to fail and does not reach the engine. -/
theorem call_cases {kind : Engine.AnswerKind} (action : Engine.Action kind) (world : World) :
    ((call action world).1, (call action world).2.engine) =
        world.engine.step world.mergeFunctions action ∨
      ¬world.FaultFree ∧ (∃ code, (call action world).1 = kind.failed code) ∧
        (call action world).2.engine = world.engine := by
  unfold call
  split
  · exact .inl rfl
  · exact .inl rfl
  · next code entries hplan =>
    refine .inr ⟨fun hf => ?_, ⟨code, rfl⟩, rfl⟩
    rw [hf] at hplan
    cases hplan

/-! ### Routines -/

/-- An operation that changes no link by itself: it makes calls that `P` admits, holds names, and looks
at what is closed and how many records there are. -/
inductive Routine (P : Engine.Call → Prop) : ∀ {α : Type}, Client α → Prop where
  | pure {α : Type} (a : α) : Routine P (Pure.pure a : Client α)
  | bind {α β : Type} {x : Client α} {f : α → Client β} :
    Routine P x → (∀ a, Routine P (f a)) → Routine P (x >>= f)
  | call {kind : Engine.AnswerKind} {action : Engine.Action kind} :
    P ⟨kind, action⟩ → Routine P (call action)
  | withName {α : Type} (env : Handle) (key : String) {body : String → Client α} :
    (∀ name, Routine P (body name)) → Routine P (withName env key body)
  | isClosed (env : Handle) : Routine P (isClosed env)
  | fetchBound : Routine P Cursor.fetchBound

/-- A routine that neither makes nor takes objects. -/
abbrev Quiet (x : Client α) : Prop := Routine (fun call => call.2.IsQuiet) x

/-- A routine, whatever it calls. -/
abbrev Plain (x : Client α) : Prop := Routine (fun _ => True) x

section Routine

variable {P : Engine.Call → Prop}

theorem Routine.plain {x : Client α} (hx : Routine P x) : Plain x := by
  induction hx with
  | pure a => exact .pure a
  | bind _ _ hx hf => exact .bind hx hf
  | call _ => exact .call trivial
  | withName env key _ hbody => exact .withName env key hbody
  | isClosed env => exact .isClosed env
  | fetchBound => exact .fetchBound

theorem routine_run_pure (a : α) : Routine P (pure a : Attempt α).run := .pure _

theorem routine_run_throw (failure : Failure) : Routine P (throw failure : Attempt α).run := .pure _

theorem Routine.run_bind {x : Attempt α} {f : α → Attempt β} (hx : Routine P x.run)
    (hf : ∀ a, Routine P (f a).run) : Routine P (x >>= f).run := by
  show Routine P (x.run >>= ExceptT.bindCont f)
  refine .bind hx fun result => ?_
  cases result with
  | ok a => exact hf a
  | error failure => exact .pure _

theorem Routine.run_lift {x : Client α} (hx : Routine P x) : Routine P (liftM x : Attempt α).run :=
  .bind hx fun _ => .pure _

theorem Routine.run_tryCatch {x : Attempt α} {handle : Failure → Attempt α} (hx : Routine P x.run)
    (hh : ∀ failure, Routine P (handle failure).run) : Routine P (tryCatch x handle).run := by
  rw [ExceptT.run_tryCatch]
  refine .bind hx fun result => ?_
  cases result with
  | ok a => exact .pure _
  | error failure => exact hh failure

theorem routine_mapM {f : α → Client β} (hf : ∀ a, Routine P (f a)) :
    ∀ l : List α, Routine P (l.mapM f)
  | [] => .pure _
  | a :: l => by
    rw [List.mapM_cons]
    exact (hf a).bind fun _ => (routine_mapM hf l).bind fun _ => .pure _

theorem routine_forM {f : α → Client PUnit} (hf : ∀ a, Routine P (f a)) :
    ∀ l : List α, Routine P (l.forM f)
  | [] => .pure _
  | a :: l => (hf a).bind fun _ => routine_forM hf l

theorem routine_run_mapM {f : α → Attempt β} (hf : ∀ a, Routine P (f a).run) :
    ∀ l : List α, Routine P (l.mapM f).run
  | [] => routine_run_pure _
  | a :: l => by
    rw [List.mapM_cons]
    exact (hf a).run_bind fun _ => (routine_run_mapM hf l).run_bind fun _ => routine_run_pure _

theorem routine_run_forM {f : α → Attempt PUnit} (hf : ∀ a, Routine P (f a).run) :
    ∀ l : List α, Routine P (l.forM f).run
  | [] => routine_run_pure _
  | a :: l => (hf a).run_bind fun _ => routine_run_forM hf l

theorem routine_tryWithName (env : Handle) (key : String) {body : String → Attempt α}
    (h : ∀ name, Routine P (body name).run) : Routine P (tryWithName env key body).run :=
  .withName env key h

theorem routine_ensureOpen (env : Handle) : Routine P (ensureOpen env).run :=
  (Routine.isClosed env).run_lift.run_bind fun closed => by
    cases closed
    · exact routine_run_pure _
    · exact routine_run_throw _

theorem routine_check (result : Except Failure α) : Routine P (check result).run := .pure _

theorem routine_diagnostic (env : Handle) (h : P ⟨_, .getBytes env Engine.diagnosticKey⟩) :
    Routine P (diagnostic? env) := .bind (.call h) fun _ => .pure _

theorem routine_refused (env : Handle) (h : P ⟨_, .getBytes env Engine.diagnosticKey⟩)
    (operation : String) : Routine P (refused env operation : Attempt α).run :=
  (routine_diagnostic env h).run_lift.run_bind fun _ => routine_run_throw _

theorem routine_orRefused {env : Handle} {action : Engine.Action .flag} (h : P ⟨_, action⟩)
    (hdiagnostic : P ⟨_, .getBytes env Engine.diagnosticKey⟩) (operation : String) :
    Routine P (orRefused env operation action).run :=
  (Routine.call h).run_lift.run_bind fun answer => by
    cases answer
    · exact routine_refused env hdiagnostic operation
    · exact routine_run_pure _

theorem routine_handleOrRefused {env : Handle} {action : Engine.Action .handle} (h : P ⟨_, action⟩)
    (hdiagnostic : P ⟨_, .getBytes env Engine.diagnosticKey⟩) (operation : String) :
    Routine P (handleOrRefused env operation action).run :=
  (Routine.call h).run_lift.run_bind fun answer => by
    cases answer
    · exact routine_refused env hdiagnostic operation
    · exact routine_run_pure _

end Routine

/-! ### What operations keep -/

/-- From wherever it starts, the operation ends in a world that is so related. -/
def Along (R : World → World → Prop) (x : Client α) : Prop := ∀ world : World, R world (x world).2

section Along

variable {R : World → World → Prop} [hmild : World.Mild R]

theorem along_pure (a : α) : Along R (pure a : Client α) := World.Mild.refl

theorem Along.bind {x : Client α} {f : α → Client β} (hx : Along R x) (hf : ∀ a, Along R (f a)) :
    Along R (x >>= f) := fun world => World.Mild.trans (hx world) (hf _ _)

theorem along_run_pure (a : α) : Along R (pure a : Attempt α).run := along_pure _

theorem Along.run_bind {x : Attempt α} {f : α → Attempt β} (hx : Along R x.run)
    (hf : ∀ a, Along R (f a).run) : Along R (x >>= f).run := by
  show Along R (x.run >>= ExceptT.bindCont f)
  refine Along.bind hx fun result => ?_
  cases result with
  | ok a => exact hf a
  | error failure => exact along_pure _

theorem Along.run_lift {x : Client α} (hx : Along R x) : Along R (liftM x : Attempt α).run :=
  Along.bind hx fun _ => along_pure _

theorem along_withName (env : Handle) (key : String) {body : String → Client α}
    (h : ∀ name, Along R (body name)) : Along R (withName env key body) :=
  Along.bind (World.Mild.acquireName env key) fun name => (h name.text).bind fun _ =>
    Along.bind (World.Mild.releaseName env key) fun _ => along_pure _

/-- A mild relation holds along every routine that neither makes nor takes objects. -/
theorem Routine.along {x : Client α} (hx : Quiet x) : Along R x := by
  induction hx with
  | pure a => exact along_pure a
  | bind _ _ hx hf => exact hx.bind hf
  | call hquiet => exact World.Mild.quiet hquiet
  | withName env key _ hbody => exact along_withName env key hbody
  | isClosed _ => exact World.Mild.refl
  | fetchBound => exact World.Mild.refl

end Along

/-- What follows the operation has the links and the plans there were. -/
def Tame (x : Client α) : Prop := ∀ world : World, world.Follows (x world).2

/-- Every routine is tame: all calls follow. -/
theorem Routine.tame {P : Engine.Call → Prop} {x : Client α} (hx : Routine P x) : Tame x := by
  induction hx with
  | pure a => exact along_pure a
  | bind _ _ hx hf => exact Along.bind hx hf
  | @call _ action _ => exact World.follows_call action
  | withName env key _ hbody => exact along_withName env key hbody
  | isClosed _ => exact World.Follows.refl
  | fetchBound => exact World.Follows.refl

theorem tame_call {kind : Engine.AnswerKind} (action : Engine.Action kind) : Tame (call action) :=
  World.follows_call action

theorem tame_acquireName (env : Handle) (key : String) : Tame (acquireName env key) :=
  World.Mild.acquireName env key

theorem tame_orRefused (env : Handle) (operation : String) (action : Engine.Action .flag) :
    Tame (orRefused env operation action).run :=
  (routine_orRefused trivial trivial operation : Plain _).tame

theorem tame_handleOrRefused (env : Handle) (operation : String)
    (action : Engine.Action .handle) : Tame (handleOrRefused env operation action).run :=
  (routine_handleOrRefused trivial trivial operation : Plain _).tame

/-! ### What the engine is asked -/

section Ask

variable {a : α} {operation : String}

theorem reach_fst {kind : Engine.AnswerKind} (action : Engine.Action kind) :
    (world.reach action).1 = (world.engine.step world.mergeFunctions action).1 := rfl

theorem reach_engine {kind : Engine.AnswerKind} (action : Engine.Action kind) :
    (world.reach action).2.engine = (world.engine.step world.mergeFunctions action).2 := rfl

/-- An operation under a name runs between two changes of the cache, with the text before the
first NUL for a name. -/
theorem withName_apply (env : Handle) (key : String) (body : String → Client α)
    (h : (world.link env).cache.Faithful) :
    ∃ middle, world.Follows middle ∧ middle.engine = world.engine ∧
      (withName env key body world).1 = (body (SharedName.beforeNul key) middle).1 ∧
      (withName env key body world).2.engine =
        (body (SharedName.beforeNul key) middle).2.engine := by
  have hname : (acquireName env key world).1.text = SharedName.beforeNul key := h.acquire_fst
  refine ⟨(acquireName env key world).2, tame_acquireName env key world, rfl, ?_, ?_⟩
  · exact congrArg (fun name => (body name (acquireName env key world).2).1) hname
  · exact congrArg (fun name => (body name (acquireName env key world).2).2.engine) hname

theorem isClosed_apply (env : Handle) :
    isClosed env world = ((world.link env).closed, world) := rfl

theorem ensureOpen_apply (h : (world.link env).closed = false) :
    ensureOpen env world = (.ok (), world) := by
  unfold ensureOpen
  rw [lift_bind_apply, isClosed_apply, h]
  rfl

theorem ensureOpen_of_closed (h : (world.link env).closed = true) :
    ensureOpen env world = (.error .environmentClosed, world) := by
  unfold ensureOpen
  rw [lift_bind_apply, isClosed_apply, h]
  rfl

theorem ensureOpen_eq_ok (h : ensureOpen env world = (.ok (), world')) :
    world' = world := by
  cases hclosed : (world.link env).closed with
  | true =>
    rw [ensureOpen_of_closed hclosed] at h
    cases h
  | false =>
    rw [ensureOpen_apply hclosed] at h
    cases h
    rfl

/-- The diagnostic is what the last call refused for. Reading it changes no object. -/
theorem diagnostic_apply (hf : world.FaultFree) (env : Handle) :
    (diagnostic? env world).1 = world.engine.diagnostic?.map Refusal.message ∧
      (diagnostic? env world).2.engine = world.engine := by
  have hstep : world.engine.step world.mergeFunctions (.getBytes env Engine.diagnosticKey) =
      (world.engine.diagnosticText?.map Bytes.ofText, world.engine) := by
    show world.engine.getBytes env Engine.diagnosticKey = _
    unfold Engine.getBytes
    rw [if_pos rfl]
  have hcall : (call (.getBytes env Engine.diagnosticKey) world).1 =
      world.engine.diagnosticText?.map Bytes.ofText := by
    rw [call_apply hf, reach_fst, hstep]
  constructor
  · show (call (.getBytes env Engine.diagnosticKey) world).1.map Text.ofBytes = _
    rw [hcall, Option.map_map, Engine.diagnosticText?, Option.map_map]
    refine congrArg (fun f => Option.map f world.engine.diagnostic?) (funext fun refusal => ?_)
    exact Text.ofBytes_ofText _
  · show (call (.getBytes env Engine.diagnosticKey) world).2.engine = _
    rw [call_apply hf, reach_engine, hstep]

theorem orRefused_apply (env : Handle) (operation : String) (action : Engine.Action .flag) :
    orRefused env operation action world =
      match call action world with
      | (true, after) => (.ok (), after)
      | (false, after) => refused env operation after := by
  unfold orRefused
  rw [lift_bind_apply]
  rcases call action world with ⟨_ | _, after⟩ <;> rfl

theorem handleOrRefused_apply (env : Handle) (operation : String)
    (action : Engine.Action .handle) :
    handleOrRefused env operation action world =
      match call action world with
      | (some h, after) => (.ok h, after)
      | (none, after) => refused env operation after := by
  unfold handleOrRefused
  rw [lift_bind_apply]
  rcases call action world with ⟨_ | _, after⟩ <;> rfl

/-- An operation that makes one call answers as the engine does and leaves it as the call does. -/
theorem orRefused_eq (hf : world.FaultFree) (env : Handle) (operation : String)
    (action : Engine.Action .flag) :
    (orRefused env operation action world).1.isOk =
        (world.engine.step world.mergeFunctions action).1 ∧
      (orRefused env operation action world).2.engine =
        (world.engine.step world.mergeFunctions action).2 := by
  rw [orRefused_apply, call_apply hf]
  rcases hreach : world.reach action with ⟨_ | _, after⟩
  · rw [← reach_fst, ← reach_engine, hreach]
    refine ⟨rfl, (diagnostic_apply ?_ env).2⟩
    have hafter := ((tame_call action) world).faultFree hf
    rw [call_apply hf, hreach] at hafter
    exact hafter
  · rw [← reach_fst, ← reach_engine, hreach]
    exact ⟨rfl, rfl⟩

/-- What a client is told of a call that was made for an operation. -/
def told (operation : String) (result : Except Refusal α) : Except Failure Unit :=
  match result with
  | .ok _ => .ok ()
  | .error refusal => .error (.engine operation refusal.message)

/-- A call that is refused leaves the refusal as the diagnostic, and its text is what is told. -/
theorem orRefused_of_attemptFlag (hf : world.FaultFree) (env : Handle) (operation : String)
    {action : Engine.Action .flag} {engine : Engine} {result : Except Refusal Engine.Objects}
    (hstep : world.engine.step world.mergeFunctions action = engine.attemptFlag result) :
    (orRefused env operation action world).1 = told operation result := by
  have hfst : (world.reach action).1 = (engine.attemptFlag result).1 := congrArg Prod.fst hstep
  have hsnd : (world.reach action).2.engine = (engine.attemptFlag result).2 :=
    congrArg Prod.snd hstep
  have hfaults : (world.reach action).2.FaultFree := hf
  rw [orRefused_apply, call_apply hf]
  generalize world.reach action = reached at hfst hsnd hfaults
  obtain ⟨answer, after⟩ := reached
  cases result with
  | ok objects =>
    cases (show answer = true from hfst)
    rfl
  | error refusal =>
    cases (show answer = false from hfst)
    unfold refused
    have hmessage := (diagnostic_apply hfaults env).1
    dsimp only at hmessage hsnd ⊢
    rw [lift_bind_apply, hmessage, hsnd]
    rfl

/-- A call answered with a handle reached the engine. -/
theorem step_of_call {action : Engine.Action .handle} {h : Handle}
    (hcall : call action world = (some h, world')) :
    world.engine.step world.mergeFunctions action = (some h, world'.engine) := by
  unfold call at hcall
  split at hcall
  · exact congrArg (fun answer => (answer.1, answer.2.engine)) hcall
  · exact congrArg (fun answer => (answer.1, answer.2.engine)) hcall
  · cases hcall

theorem call_of_handleOrRefused {h : Handle}
    {action : Engine.Action .handle}
    (hok : handleOrRefused env operation action world = (.ok h, world')) :
    call action world = (some h, world') := by
  rw [handleOrRefused_apply] at hok
  split at hok
  · next hcall =>
    cases hok
    exact hcall
  · cases hok

/-- A call that answers with a handle succeeds for its operation. -/
theorem handleOrRefused_of_some (hf : world.FaultFree) {action : Engine.Action .handle} {h : Handle}
    (hstep : (world.engine.step world.mergeFunctions action).1 = some h) (env : Handle)
    (operation : String) :
    handleOrRefused env operation action world = (.ok h, (world.reach action).2) := by
  have hreach : world.reach action = (some h, (world.reach action).2) := Prod.ext hstep rfl
  rw [handleOrRefused_apply, call_apply hf, hreach]

end Ask

end Client
end RowStore
