/-
# Clients beside each other

Two worlds are alike if they differ in nothing but their clocks and what is in the caches of names.
From alike worlds every routine has the same answer and leaves alike worlds: whatever a cache gave up,
kept or made anew, the name that it hands out for a text is the text up to its first NUL. So have the
operations that change links, and creating an environment with one cache or another.

Key definitions: `Coupled`, `Outcome`, `World.Alike`, `Client.Blind`.
Key theorems: `Client.Routine.blind`, `Client.Environment.blind_close`,
`Client.Environment.coupled_create`.
-/
import RowStore.Proofs.Client.Routines

namespace RowStore

/-! ### Programs beside each other -/

section Coupled

variable {σ ε α α' β β' : Type}

/-- From states that `S` relates, the programs answer with values that `R` relates and end in states
that `S` relates. -/
def Coupled (S : σ → σ → Prop) (R : α → α' → Prop) (x : StateM σ α) (x' : StateM σ α') : Prop :=
  ∀ s s', S s s' → R (x s).1 (x' s').1 ∧ S (x s).2 (x' s').2

/-- Both fail, for the same reason, or both succeed, with values that `R` relates. -/
inductive Outcome (R : α → α' → Prop) : Except ε α → Except ε α' → Prop where
  | ok {a : α} {a' : α'} : R a a' → Outcome R (.ok a) (.ok a')
  | error (reason : ε) : Outcome R (.error reason) (.error reason)

variable {S : σ → σ → Prop} {R : α → α' → Prop} {R' : β → β' → Prop}

theorem outcome_eq (result : Except ε α) : Outcome Eq result result := by
  cases result with
  | ok a => exact .ok rfl
  | error reason => exact .error reason

theorem coupled_pure {a : α} {a' : α'} (h : R a a') :
    Coupled S R (pure a : StateM σ α) (pure a' : StateM σ α') := fun _ _ hs => ⟨h, hs⟩

theorem Coupled.bind {x : StateM σ α} {x' : StateM σ α'} {f : α → StateM σ β}
    {f' : α' → StateM σ β'} (hx : Coupled S R x x')
    (hf : ∀ a a', R a a' → Coupled S R' (f a) (f' a')) : Coupled S R' (x >>= f) (x' >>= f') := by
  intro s s' hs
  obtain ⟨ha, hs⟩ := hx s s' hs
  exact hf _ _ ha _ _ hs

theorem coupled_modify {f f' : σ → σ} (h : ∀ s s', S s s' → S (f s) (f' s')) :
    Coupled S Eq (modify f : StateM σ PUnit) (modify f' : StateM σ PUnit) :=
  fun s s' hs => ⟨rfl, h s s' hs⟩

theorem coupled_run_pure {a : α} {a' : α'} (h : R a a') :
    Coupled S (Outcome R) (pure a : ExceptT ε (StateM σ) α).run
      (pure a' : ExceptT ε (StateM σ) α').run := coupled_pure (.ok h)

theorem coupled_run_throw (reason : ε) :
    Coupled S (Outcome R) (throw reason : ExceptT ε (StateM σ) α).run
      (throw reason : ExceptT ε (StateM σ) α').run := coupled_pure (.error reason)

theorem Coupled.run_bind {x : ExceptT ε (StateM σ) α} {x' : ExceptT ε (StateM σ) α'}
    {f : α → ExceptT ε (StateM σ) β} {f' : α' → ExceptT ε (StateM σ) β'}
    (hx : Coupled S (Outcome R) x.run x'.run)
    (hf : ∀ a a', R a a' → Coupled S (Outcome R') (f a).run (f' a').run) :
    Coupled S (Outcome R') (x >>= f).run (x' >>= f').run := by
  show Coupled S (Outcome R') (x.run >>= ExceptT.bindCont f) (x'.run >>= ExceptT.bindCont f')
  refine Coupled.bind hx fun result result' hresult => ?_
  cases hresult with
  | ok ha => exact hf _ _ ha
  | error reason => exact coupled_pure (.error reason)

theorem Coupled.run_lift {x : StateM σ α} {x' : StateM σ α'} (hx : Coupled S R x x') :
    Coupled S (Outcome R) (liftM x : ExceptT ε (StateM σ) α).run
      (liftM x' : ExceptT ε (StateM σ) α').run :=
  Coupled.bind hx fun _ _ ha => coupled_pure (.ok ha)

theorem Coupled.run_tryCatch {x : ExceptT ε (StateM σ) α} {x' : ExceptT ε (StateM σ) α'}
    {handle : ε → ExceptT ε (StateM σ) α} {handle' : ε → ExceptT ε (StateM σ) α'}
    (hx : Coupled S (Outcome R) x.run x'.run)
    (hh : ∀ reason, Coupled S (Outcome R) (handle reason).run (handle' reason).run) :
    Coupled S (Outcome R) (tryCatch x handle).run (tryCatch x' handle').run := by
  rw [ExceptT.run_tryCatch, ExceptT.run_tryCatch]
  refine Coupled.bind hx fun result result' hresult => ?_
  cases hresult with
  | ok ha => exact coupled_pure (.ok ha)
  | error reason => exact hh reason

end Coupled

/-! ### Alike worlds -/

/-- The links differ in nothing but what is in their caches. -/
structure Link.Alike (link link' : Link) : Prop where
  closed : link.closed = link'.closed
  registry : link.registry = link'.registry
  faithful : link.cache.Faithful
  faithful' : link'.cache.Faithful

/-- The worlds differ in nothing but their clocks and what is in the caches of names. -/
structure World.Alike (world world' : World) : Prop where
  engine : world.engine = world'.engine
  calls : world.calls = world'.calls
  plans : world.plans = world'.plans
  links : ∀ env, (world.link env).Alike (world'.link env)

namespace World

variable {world world' : World}

theorem alike_start : Alike {} {} :=
  ⟨rfl, rfl, rfl, fun _ =>
    ⟨rfl, rfl, NameCache.ofPolicy_faithful _, NameCache.ofPolicy_faithful _⟩⟩

namespace Alike

theorem mergeFunctions (h : world.Alike world') : world.mergeFunctions = world'.mergeFunctions := by
  funext hook
  unfold World.mergeFunctions
  rw [(h.links hook.registry).registry]

theorem setLink (h : world.Alike world') (env : Handle) {link link' : Link}
    (hl : link.Alike link') : (world.setLink env link).Alike (world'.setLink env link') where
  engine := h.engine
  calls := h.calls
  plans := h.plans
  links env' := by
    rw [link_setLink, link_setLink]
    split
    · exact hl
    · exact h.links env'

theorem plan (h : world.Alike world') (primitive : Engine.Primitive) (entries : List (Option Int)) :
    (world.plan primitive entries).Alike (world'.plan primitive entries) where
  engine := h.engine
  calls := h.calls
  plans := by
    unfold World.plan
    rw [h.plans]
  links := h.links

theorem reach (h : world.Alike world') {kind : Engine.AnswerKind} (action : Engine.Action kind) :
    (world.reach action).1 = (world'.reach action).1 ∧
      (world.reach action).2.Alike (world'.reach action).2 := by
  have hstep : world.engine.step world.mergeFunctions action =
      world'.engine.step world'.mergeFunctions action := by
    rw [h.engine, h.mergeFunctions]
  refine ⟨?_, ?_, ?_, h.plans, h.links⟩
  · rw [Client.reach_fst, hstep, Client.reach_fst]
  · rw [Client.reach_engine, hstep, Client.reach_engine]
  · show ⟨kind, action⟩ :: world.calls = ⟨kind, action⟩ :: world'.calls
    rw [h.calls]

theorem advance (h : world.Alike world') (ns ns' : Nat) :
    (world.advance ns).Alike (world'.advance ns') := ⟨h.engine, h.calls, h.plans, h.links⟩

end Alike
end World

/-! ### Blind operations -/

namespace Client

variable {α β : Type} {P : Engine.Call → Prop}

/-- The operation does not see what worlds that are alike differ in. -/
abbrev Blind (x : Client α) : Prop := Coupled World.Alike Eq x x

theorem Blind.bind {x : Client α} {f : α → Client β} (hx : Blind x) (hf : ∀ a, Blind (f a)) :
    Blind (x >>= f) := by
  refine Coupled.bind hx fun a a' ha => ?_
  cases ha
  exact hf a

theorem blind_call {kind : Engine.AnswerKind} (action : Engine.Action kind) :
    Blind (call action) := by
  intro world world' h
  unfold call
  rw [h.plans]
  split
  · exact h.reach action
  · exact (h.plan _ _).reach action
  · exact ⟨rfl, h.plan _ _⟩

theorem blind_isClosed (env : Handle) : Blind (isClosed env) :=
  fun _ _ h => ⟨(h.links env).closed, h⟩

/-- The names that two caches hand out for one text are spelled alike. -/
theorem coupled_acquireName (env : Handle) (key : String) :
    Coupled World.Alike (fun name name' => name.text = name'.text) (acquireName env key)
      (acquireName env key) := by
  intro world world' h
  have hlink := h.links env
  refine ⟨?_, h.setLink env
    ⟨hlink.closed, hlink.registry, hlink.faithful.acquire, hlink.faithful'.acquire⟩⟩
  exact hlink.faithful.acquire_fst.trans hlink.faithful'.acquire_fst.symm

theorem blind_releaseName (env : Handle) (key : String) : Blind (releaseName env key) :=
  coupled_modify fun _ _ h =>
    have hlink := h.links env
    h.setLink env ⟨hlink.closed, hlink.registry, hlink.faithful.release, hlink.faithful'.release⟩

theorem blind_withName (env : Handle) (key : String) {body : String → Client α}
    (h : ∀ name, Blind (body name)) : Blind (withName env key body) := by
  refine Coupled.bind (coupled_acquireName env key) fun name name' hname => ?_
  rw [hname]
  exact (h name'.text).bind fun _ => (blind_releaseName env key).bind fun _ => coupled_pure rfl

/-- No routine sees what is in a cache. -/
theorem Routine.blind {x : Client α} (hx : Routine P x) : Blind x := by
  induction hx with
  | pure a => exact coupled_pure rfl
  | bind _ _ hx hf => exact hx.bind hf
  | @call _ action _ => exact blind_call action
  | withName env key _ hbody => exact blind_withName env key hbody
  | isClosed env => exact blind_isClosed env
  | fetchBound => exact fun _ _ h => ⟨congrArg (·.objects.recordCount + 1) h.engine, h⟩

/-- Nor does what it fails with depend on it. -/
theorem Blind.run {x : Attempt α} (hx : Blind x.run) :
    Coupled World.Alike (Outcome Eq) x.run x.run := fun world world' h => by
  obtain ⟨ha, hw⟩ := hx world world' h
  refine ⟨?_, hw⟩
  rw [ha]
  exact outcome_eq _

theorem Blind.run_bind {x : Attempt α} {f : α → Attempt β} (hx : Blind x.run)
    (hf : ∀ a, Blind (f a).run) : Blind (x >>= f).run := by
  show Blind (x.run >>= ExceptT.bindCont f)
  refine Blind.bind hx fun result => ?_
  cases result with
  | ok a => exact hf a
  | error failure => exact coupled_pure rfl

theorem Blind.run_lift {x : Client α} (hx : Blind x) : Blind (liftM x : Attempt α).run :=
  Blind.bind hx fun _ => coupled_pure rfl

/-! ### Operations that change links -/

namespace Environment

theorem blind_modifyLink (env : Environment) {f : Link → Link}
    (hf : ∀ link link', link.Alike link' → (f link).Alike (f link')) : Blind (env.modifyLink f) :=
  coupled_modify fun _ _ h => h.setLink env.handle (hf _ _ (h.links env.handle))

/-- The merge functions of an environment can be looked at and changed. -/
theorem blind_registry (env : Environment) (f : Registry → α × Registry) :
    Blind (do
      let (answer, registry) := f ((← get).link env.handle).registry
      env.modifyLink fun link => { link with registry }
      return answer : Client α) := by
  intro world world' h
  have hlink := h.links env.handle
  refine ⟨congrArg (fun registry => (f registry).1) hlink.registry, h.setLink env.handle
    ⟨hlink.closed, congrArg (fun registry => (f registry).2) hlink.registry, hlink.faithful,
      hlink.faithful'⟩⟩

theorem blind_register (env : Environment) (f : MergeFn) : Blind (env.register f) :=
  env.blind_registry (·.register f)

theorem blind_unregister (env : Environment) (token : Nat) : Blind (env.unregister token) :=
  env.blind_registry fun registry => (registry.contains token, registry.unregister token)

theorem blind_clearRegistry (env : Environment) : Blind env.clearRegistry :=
  env.blind_registry fun registry => ((), registry.clear)

theorem blind_installMerge (env : Environment) (db : Handle) (f : MergeFn) :
    Blind (env.installMerge db f).run :=
  (env.blind_register f).run_lift.run_bind fun token =>
    (blind_call (.installHook db ⟨env.handle, token⟩)).run_lift.run_bind fun installed => by
      cases installed
      · exact (env.blind_unregister token).run_lift.run_bind fun _ =>
          (routine_refused env.handle trivial _ : Plain _).blind.run_bind fun _ => coupled_pure rfl
      · exact coupled_pure rfl

theorem blind_newDatabase (env : Environment) (name : String) (schema : Schema)
    (merge? : Option MergeFn) : Blind (env.newDatabase name schema merge?).run := by
  refine (routine_ensureOpen env.handle : Plain _).blind.run_bind fun _ => ?_
  split
  · exact coupled_pure rfl
  refine (routine_orRefused trivial trivial _ : Plain _).blind.run_bind fun _ => ?_
  refine (routine_handleOrRefused trivial trivial _ : Plain _).blind.run_bind fun handle => ?_
  cases merge? with
  | none => exact coupled_pure rfl
  | some f =>
    exact ((env.blind_installMerge handle f).run_bind fun _ => coupled_pure rfl).run_bind
      fun _ => coupled_pure rfl

/-- Closing an environment clears its cache, whatever is in it. -/
theorem blind_close (env : Environment) : Blind env.close.run := by
  refine (blind_isClosed env.handle).run_lift.run_bind fun closed => ?_
  cases closed with
  | true => exact coupled_pure rfl
  | false =>
    refine (env.blind_modifyLink fun link link' h => ?_).run_lift.run_bind fun _ =>
      (routine_orRefused trivial trivial _ : Plain _).blind
    exact ⟨rfl, congrArg Registry.clear h.registry, NameCache.clear_faithful,
      NameCache.clear_faithful⟩

theorem blind_release (env : Environment) : Blind env.release :=
  (blind_isClosed env.handle).bind fun closed => by
    cases closed
    · exact Blind.bind env.blind_close fun _ => coupled_pure rfl
    · exact coupled_pure rfl

/-- The environments differ in nothing but the policies of their caches. -/
def Alike (env env' : Environment) : Prop := ∃ policy, env' = { env with policy }

/-- An environment can be created with one cache or another. -/
theorem coupled_create (path? : Option String) (policy policy' : CachePolicy)
    (termination : Termination) :
    Coupled World.Alike (Outcome Alike) (create path? policy termination).run
      (create path? policy' termination).run := by
  refine Coupled.run_bind (blind_call .newEnvironment).run_lift.run fun handle? _ hhandle => ?_
  cases hhandle
  cases handle? with
  | none => exact coupled_run_throw _
  | some handle =>
    let env : Environment := { handle, path?, policy, termination }
    have hlink : Link.Alike { cache := .ofPolicy policy } { cache := .ofPolicy policy' } :=
      ⟨rfl, rfl, NameCache.ofPolicy_faithful _, NameCache.ofPolicy_faithful _⟩
    refine Coupled.run_bind
      (coupled_modify fun _ _ h => h.setLink handle hlink).run_lift fun _ _ _ => ?_
    cases path? with
    | none => exact coupled_run_pure ⟨policy', rfl⟩
    | some path =>
      have hset := (env.quiet_setBytes Engine.pathKey (Bytes.ofText path)).blind.run
      refine Coupled.run_bind (hset.run_tryCatch fun failure => ?_) fun _ _ _ =>
        coupled_run_pure ⟨policy', rfl⟩
      exact env.blind_release.run_lift.run.run_bind fun _ _ _ => coupled_run_throw failure

end Environment
end Client
end RowStore
