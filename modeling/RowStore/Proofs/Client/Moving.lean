/-
# How clients move the world

Whatever a client does, it moves the world in a few ways: it makes calls, acquires names from caches of
environments that are not closed and releases names, makes environments, changes merge functions, closes
environments, and time passes. What moves lead to is reachable and free of faults if the world was, and
every call on the way is recorded.

An operation tells its own cause if its moves include a call that was refused with the text of its
failure, whenever it fails with a refusal of the engine, and nothing but tidying up follows that call.
Operations in sequence do so if each does, and so do the small ones that the others are made of: asking
the engine and reading the diagnostic at once, also while a name is held.

Key definitions: `World.Move`, `World.Leads`, `World.Tidy`, `World.Raises`,
`World.Blames`, `Client.Goes`, `Client.Tidies`, `Client.Tells`, `Client.Honest`.
Key theorems: `World.Leads.reachable`, `World.Leads.recorded`, `World.Raises.blames`,
`Client.Honest.bind`, `Client.honest_orRefused`, `Client.honest_handleOrRefused`, `Client.honest_named`.
-/
import RowStore.Proofs.Client.Calls
import RowStore.Proofs.Engine.Ending
import RowStore.Proofs.Engine.Refusing

namespace RowStore

namespace World

/-- What a client does to the world in one go. -/
inductive Move : World → World → Prop where
  | call {world : World} {kind : Engine.AnswerKind} (action : Engine.Action kind) :
    Move world (Client.call action world).2
  | acquireName {world : World} (env : Handle) (key : String)
    (isOpen : (world.link env).closed = false) : Move world (Client.acquireName env key world).2
  | releaseName {world : World} (env : Handle) (key : String) :
    Move world (Client.releaseName env key world).2
  | create {world : World} (h : Handle) (policy : CachePolicy)
    (made : (Client.call .newEnvironment world).1 = some h) :
    Move world ((Client.call .newEnvironment world).2.setLink h { cache := .ofPolicy policy })
  | register {world : World} (env : Handle) (registry : Registry) :
    Move world (world.setLink env { world.link env with registry })
  | close {world : World} (env : Handle) :
    Move world (world.setLink env
      { closed := true, registry := (world.link env).registry.clear
        cache := (world.link env).cache.clear })
  | advance {world : World} (ns : Nat) : Move world (world.advance ns)

/-- Moves, one after the other, lead from a world to another. -/
abbrev Leads : World → World → Prop := Relation.ReflTransGen Move

variable {world world' world'' : World}

theorem move_of_call {kind : Engine.AnswerKind} {action : Engine.Action kind} {answer : kind.Answer}
    (hcall : Client.call action world = (answer, world')) : world.Move world' := by
  have hmove : world.Move (Client.call action world).2 := .call action
  rw [hcall] at hmove
  exact hmove

theorem Move.reachable (hm : world.Move world') (h : world.Reachable) : world'.Reachable := by
  cases hm with
  | call action => exact h.call action
  | acquireName env key _ => exact h.acquireName env key
  | releaseName env key => exact h.releaseName env key
  | create h' policy _ => exact (h.call _).create h' policy
  | register env registry => exact h.register env registry
  | close env => exact h.close env
  | advance ns => exact h.advance ns

theorem Move.faultFree (hm : world.Move world') (h : world.FaultFree) : world'.FaultFree := by
  cases hm with
  | call action => exact (follows_call action world).faultFree h
  | acquireName _ _ _ => exact h
  | releaseName _ _ => exact h
  | create _ _ _ => exact (follows_call .newEnvironment world).faultFree h
  | register _ _ => exact h
  | close _ => exact h
  | advance _ => exact h

/-- No move brings an object back or puts one of another kind in its place. -/
theorem Move.steady (hm : world.Move world') (h : world.Reachable) :
    world.engine.objects.Steady world'.engine.objects := by
  have hcall : ∀ {kind : Engine.AnswerKind} (action : Engine.Action kind),
      world.engine.objects.Steady (Client.call action world).2.engine.objects := fun action => by
    unfold Client.call
    split
    · exact Engine.steady_step h.sound _ action
    · exact Engine.steady_step h.sound _ action
    · exact .refl _
  cases hm with
  | call action => exact hcall action
  | acquireName _ _ _ => exact .refl _
  | releaseName _ _ => exact .refl _
  | create _ _ _ => exact hcall .newEnvironment
  | register _ _ => exact .refl _
  | close _ => exact .refl _
  | advance _ => exact .refl _

/-- A call that reaches the engine is recorded. -/
theorem recorded_call {kind : Engine.AnswerKind} (action : Engine.Action kind) :
    ∃ calls, (Client.call action world).2.calls = calls ++ world.calls ∧
      ∀ call ∈ calls, call = ⟨kind, action⟩ := by
  unfold Client.call
  split
  · exact ⟨[⟨kind, action⟩], rfl, fun _ => List.mem_singleton.1⟩
  · exact ⟨[⟨kind, action⟩], rfl, fun _ => List.mem_singleton.1⟩
  · exact ⟨[], rfl, nofun⟩

/-- Nothing but calls is recorded. -/
theorem Move.recorded (hm : world.Move world') : ∃ calls, world'.calls = calls ++ world.calls := by
  cases hm with
  | call action => exact (recorded_call action).imp fun _ h => h.1
  | acquireName _ _ _ => exact ⟨[], rfl⟩
  | releaseName _ _ => exact ⟨[], rfl⟩
  | create _ _ _ => exact (recorded_call .newEnvironment).imp fun _ h => h.1
  | register _ _ => exact ⟨[], rfl⟩
  | close _ => exact ⟨[], rfl⟩
  | advance _ => exact ⟨[], rfl⟩

namespace Leads

/-- What every move keeps stays. -/
theorem keeps {P : World → Prop} (hstep : ∀ {world world' : World}, world.Move world' → P world →
    P world') (hl : world.Leads world') (h : P world) : P world' := by
  induction hl with
  | refl => exact h
  | tail _ hm ih => exact hstep hm ih

theorem reachable (hl : world.Leads world') (h : world.Reachable) : world'.Reachable :=
  hl.keeps Move.reachable h

theorem faultFree (hl : world.Leads world') (h : world.FaultFree) : world'.FaultFree :=
  hl.keeps Move.faultFree h

theorem steady (hl : world.Leads world') (h : world.Reachable) :
    world.engine.objects.Steady world'.engine.objects := by
  induction hl with
  | refl => exact .refl _
  | tail hl hm ih => exact ih.trans (hm.steady (Leads.reachable hl h))

/-- The calls on the way are recorded after those before. -/
theorem recorded (hl : world.Leads world') : ∃ calls, world'.calls = calls ++ world.calls := by
  induction hl with
  | refl => exact ⟨[], rfl⟩
  | tail _ hm ih =>
    obtain ⟨before, hbefore⟩ := ih
    obtain ⟨last, hlast⟩ := hm.recorded
    exact ⟨last ++ before, by rw [hlast, hbefore, List.append_assoc]⟩

end Leads

/-- What tidies up: something is destroyed, the diagnostic is read, a name is released, or an environment
is closed. -/
inductive Tidy : World → World → Prop where
  | destroy {world : World} (h : Handle) : Tidy world (Client.call (.destroy h) world).2
  | diagnostic {world : World} (env : Handle) :
    Tidy world (Client.call (.getBytes env Engine.diagnosticKey) world).2
  | releaseName {world : World} (env : Handle) (key : String) :
    Tidy world (Client.releaseName env key world).2
  | close {world : World} (env : Handle) :
    Tidy world (world.setLink env
      { closed := true, registry := (world.link env).registry.clear
        cache := (world.link env).cache.clear })

theorem Tidy.move (ht : world.Tidy world') : world.Move world' := by
  cases ht with
  | destroy h => exact .call _
  | diagnostic env => exact .call _
  | releaseName env key => exact .releaseName env key
  | close env => exact .close env

/-- Tidying up leads from a world to another. -/
abbrev Tidies : World → World → Prop := Relation.ReflTransGen Tidy

theorem Tidies.leads (ht : world.Tidies world') : world.Leads world' := by
  induction ht with
  | refl => exact .refl
  | tail _ ht ih => exact ih.tail ht.move

/-- The call destroys something or reads the diagnostic. -/
inductive IsTidy : Engine.Call → Prop where
  | destroy (h : Handle) : IsTidy ⟨.flag, .destroy h⟩
  | diagnostic (env : Handle) : IsTidy ⟨.bytes, .getBytes env Engine.diagnosticKey⟩

/-- No other calls are made to tidy up. -/
theorem Tidy.recorded (ht : world.Tidy world') :
    ∃ calls, world'.calls = calls ++ world.calls ∧ ∀ call ∈ calls, IsTidy call := by
  cases ht with
  | destroy h =>
    exact (recorded_call (.destroy h)).imp fun _ ⟨heq, hmem⟩ =>
      ⟨heq, fun call hm => hmem call hm ▸ .destroy h⟩
  | diagnostic env =>
    exact (recorded_call (.getBytes env _)).imp fun _ ⟨heq, hmem⟩ =>
      ⟨heq, fun call hm => hmem call hm ▸ .diagnostic env⟩
  | releaseName env key => exact ⟨[], rfl, nofun⟩
  | close env => exact ⟨[], rfl, nofun⟩

theorem Tidies.recorded (ht : world.Tidies world') :
    ∃ calls, world'.calls = calls ++ world.calls ∧ ∀ call ∈ calls, IsTidy call := by
  induction ht with
  | refl => exact ⟨[], rfl, nofun⟩
  | tail _ ht ih =>
    obtain ⟨before, hbefore, htidy⟩ := ih
    obtain ⟨last, hlast, htidy'⟩ := ht.recorded
    refine ⟨last ++ before, by rw [hlast, hbefore, List.append_assoc], fun call hm => ?_⟩
    exact (List.mem_append.1 hm).elim (htidy' call) (htidy call)

/-- On the way from a world to another a call was refused, and this is the text of its refusal: the
diagnostic was read at once, and after that there was only tidying up. -/
inductive Raises (world world' : World) : String → Prop where
  | intro {middle : World} {kind : Engine.AnswerKind} {action : Engine.Action kind}
    {refusal : Refusal} {env : Handle} (before : world.Leads middle)
    (refused : middle.engine.Refuses middle.mergeFunctions action refusal)
    (after : (Client.diagnostic? env (middle.reach action).2).2.Tidies world') :
    Raises world world' refusal.message

/-- The calls recorded on the way from a world to another end with one that was refused with the text, and
those that tidied up after it. Calls are recorded newest first. -/
def Blames (world world' : World) (message : String) : Prop :=
  ∃ (middle : World) (call : Engine.Call) (refusal : Refusal),
    middle.engine.Refuses middle.mergeFunctions call.2 refusal ∧ refusal.message = message ∧
    ∃ earlier later : List Engine.Call, middle.calls = earlier ++ world.calls ∧
      world'.calls = later ++ call :: middle.calls ∧ ∀ call ∈ later, IsTidy call

namespace Raises

variable {message : String}

theorem tidies (hr : world.Raises world' message) (ht : world'.Tidies world'') :
    world.Raises world'' message := by
  obtain ⟨hbefore, hrefused, hafter⟩ := hr
  exact ⟨hbefore, hrefused, hafter.trans ht⟩

theorem of_leads (hl : world.Leads world') (hr : world'.Raises world'' message) :
    world.Raises world'' message := by
  obtain ⟨hbefore, hrefused, hafter⟩ := hr
  exact ⟨hl.trans hbefore, hrefused, hafter⟩

/-- The text is one of a refusal. -/
theorem message_ne (hr : world.Raises world' message) : message ≠ noDiagnostic := by
  obtain ⟨-, -, -⟩ := hr
  exact Refusal.message_ne _

/-- The call that was refused is recorded, and after it only calls that tidy up. -/
theorem blames (hr : world.Raises world' message) : world.Blames world' message := by
  obtain @⟨middle, kind, action, refusal, env, hbefore, hrefused, hafter⟩ := hr
  have hread : (middle.reach action).2.Tidies world' :=
    (Relation.ReflTransGen.single (.diagnostic env)).trans hafter
  obtain ⟨earlier, hearlier⟩ := hbefore.recorded
  obtain ⟨later, hlater, htidy⟩ := hread.recorded
  exact ⟨middle, ⟨kind, action⟩, refusal, hrefused, rfl, earlier, later, hearlier, hlater, htidy⟩

end Raises

end World

/-- Why a result is a failure, if it is. -/
def failure? : Except Failure α → Option Failure
  | .ok _ => none
  | .error failure => some failure

namespace Client

variable {α β : Type} {world : World} {env : Handle} {failureOf : α → Option Failure}
  {failureOf' : β → Option Failure}

/-- What the operation does is steps of one kind. -/
def Via (R : World → World → Prop) (x : Client α) : Prop :=
  ∀ world : World, Relation.ReflTransGen R world (x world).2

/-- The operation makes moves only. -/
abbrev Goes (x : Client α) : Prop := Via World.Move x

/-- The operation only tidies up. -/
abbrev Tidies (x : Client α) : Prop := Via World.Tidy x

/-- The operation makes moves only, and if it fails with a text of the engine without a call being
planned to fail, then the last call that it made, but for those that tidy up, was refused with that
text. -/
structure Tells (failureOf : α → Option Failure) (x : Client α) : Prop where
  goes : Goes x
  raises : ∀ world : World, world.Reachable → world.FaultFree → ∀ operation message,
    failureOf (x world).1 = some (.engine operation message) → world.Raises (x world).2 message

/-- An operation that can fail tells its own cause. -/
abbrev Honest (x : Attempt α) : Prop := Tells failure? x.run

/-! ### Operations that do not fail -/

section Via

variable {R : World → World → Prop}

theorem via_pure (a : α) : Via R (pure a) := fun _ => .refl

theorem Via.bind {x : Client α} {f : α → Client β} (hx : Via R x) (hf : ∀ a, Via R (f a)) :
    Via R (x >>= f) := fun world => (hx world).trans (hf _ _)

theorem Via.lift_bind {x : Client α} {f : α → Attempt β} (hx : Via R x)
    (hf : ∀ a, Via R (f a).run) : Via R (liftM x >>= f : Attempt β).run :=
  fun world => (hx world).trans (hf _ _)

theorem Via.run_bind {x : Attempt α} {f : α → Attempt β} (hx : Via R x.run)
    (hf : ∀ a, Via R (f a).run) : Via R (x >>= f).run := by
  show Via R (x.run >>= ExceptT.bindCont f)
  refine hx.bind fun result => ?_
  cases result with
  | ok a => exact hf a
  | error failure => exact fun _ => .refl

theorem via_isClosed (env : Handle) : Via R (isClosed env) := fun _ => .refl

theorem via_fetchBound : Via R Cursor.fetchBound := fun _ => .refl

theorem via_forM {f : α → Client PUnit} (hf : ∀ a, Via R (f a)) : ∀ l : List α, Via R (l.forM f)
  | [] => via_pure _
  | a :: l => (hf a).bind fun _ => via_forM hf l

theorem via_mapM {f : α → Client β} (hf : ∀ a, Via R (f a)) : ∀ l : List α, Via R (l.mapM f)
  | [] => via_pure _
  | a :: l => by
    rw [List.mapM_cons]
    exact (hf a).bind fun _ => (via_mapM hf l).bind fun _ => via_pure _

/-- What is done only if the environment is not closed. -/
theorem via_unlessClosed (a : α) {x : Client α}
    (hx : ∀ world : World, (world.link env).closed = false →
      Relation.ReflTransGen R world (x world).2) :
    Via R (do if ← isClosed env then return a else x) := fun world => by
  rw [bind_apply, isClosed_apply]
  dsimp only
  cases hclosed : (world.link env).closed with
  | true => exact .refl
  | false => exact hx world hclosed

end Via

/-- Tidying up is moves. -/
theorem Tidies.goes {x : Client α} (hx : Tidies x) : Goes x := fun world =>
  World.Tidies.leads (hx world)

theorem goes_call {kind : Engine.AnswerKind} (action : Engine.Action kind) : Goes (call action) :=
  fun _ => .single (.call action)

theorem tidies_destroy (h : Handle) : Tidies (call (.destroy h)) := fun _ => .single (.destroy h)

theorem tidies_diagnostic (env : Handle) : Tidies (diagnostic? env) := fun _ =>
  .single (.diagnostic env)

/-- A name is held while an environment that is not closed is used. -/
theorem leads_withName (hopen : (world.link env).closed = false) (key : String)
    {body : String → Client α} (hbody : ∀ name, Goes (body name)) :
    world.Leads (withName env key body world).2 :=
  (Relation.ReflTransGen.single (.acquireName env key hopen)).trans
    (((hbody _) _).tail (.releaseName env key))

/-! ### Operations that fail -/

/-- An operation that fails with no text of the engine. -/
theorem Goes.tells {x : Client α} (hx : Goes x)
    (hnone : ∀ world operation message, failureOf (x world).1 ≠ some (.engine operation message)) :
    Tells failureOf x :=
  ⟨hx, fun world _ _ operation message hfail => absurd hfail (hnone world operation message)⟩

theorem Tells.bind {x : Client α} {f : α → Client β} (hx : Goes x)
    (hf : ∀ a, Tells failureOf' (f a)) : Tells failureOf' (x >>= f) where
  goes := hx.bind fun a => (hf a).goes
  raises world hr hff operation message hfail :=
    have hfirst : world.Leads (x world).2 := hx world
    ((hf _).raises _ (hfirst.reachable hr) (hfirst.faultFree hff) operation message
      hfail).of_leads hfirst

theorem honest_pure (a : α) : Honest (pure a : Attempt α) := Goes.tells (via_pure _) nofun

theorem honest_throw {failure : Failure} (h : ∀ operation message,
    failure ≠ .engine operation message) : Honest (throw failure : Attempt α) :=
  Goes.tells (via_pure _) fun _ operation message heq => h operation message (Option.some.inj heq)

theorem honest_check {result : Except Failure α} (h : ∀ operation message,
    failure? result ≠ some (.engine operation message)) : Honest (check result) :=
  Goes.tells (via_pure _) fun _ => h

theorem honest_lift {x : Client α} (hx : Goes x) : Honest (liftM x : Attempt α) :=
  Goes.tells (hx.bind fun _ => via_pure _) nofun

/-- What comes second tells its own cause, or passes on the failure of what came first. -/
theorem Tells.follow {x : Client α} {f : α → Client β} (hx : Tells failureOf x)
    (hf : ∀ a, Tells failureOf' (f a) ∨ Tidies (f a) ∧ ∀ world operation message,
      failureOf' (f a world).1 = some (.engine operation message) →
        failureOf a = some (.engine operation message)) : Tells failureOf' (x >>= f) where
  goes := hx.goes.bind fun a => (hf a).elim Tells.goes fun h => h.1.goes
  raises world hr hff operation message hfail := by
    have hfirst : world.Leads (x world).2 := hx.goes world
    rcases hf (x world).1 with hsecond | ⟨hsecond, hpasses⟩
    · exact (hsecond.raises _ (hfirst.reachable hr) (hfirst.faultFree hff) operation message
        hfail).of_leads hfirst
    · exact (hx.raises world hr hff operation message (hpasses _ operation message hfail)).tidies
        (hsecond _)

theorem Honest.bind {x : Attempt α} {f : α → Attempt β} (hx : Honest x)
    (hf : ∀ a, Honest (f a)) : Honest (x >>= f) := by
  show Tells failure? (x.run >>= ExceptT.bindCont f)
  refine hx.follow fun result => ?_
  cases result with
  | ok a => exact .inl (hf a)
  | error failure => exact .inr ⟨via_pure _, fun _ _ _ hfail => hfail⟩

/-- What is done with the answer of an operation that can fail in its own way. -/
theorem Honest.of_lift {x : Client α} {f : α → Attempt β}
    (h : Tells failure? (x >>= fun a => (f a).run)) : Honest (liftM x >>= f) := h

theorem honest_mapM {f : α → Attempt β} (hf : ∀ a, Honest (f a)) : ∀ l : List α, Honest (l.mapM f)
  | [] => honest_pure _
  | a :: l => by
    rw [List.mapM_cons]
    exact (hf a).bind fun _ => (honest_mapM hf l).bind fun _ => honest_pure _

theorem honest_forM {f : α → Attempt PUnit} (hf : ∀ a, Honest (f a)) :
    ∀ l : List α, Honest (l.forM f)
  | [] => honest_pure _
  | a :: l => (hf a).bind fun _ => honest_forM hf l

/-- What is cleaned up after a failure does not replace it. -/
theorem Honest.cleanup {x : Attempt α} {cleaning : Client Unit} (hx : Honest x)
    (hc : Tidies cleaning) :
    Honest (tryCatch x fun failure => do
      cleaning
      throw failure) := by
  unfold Honest
  rw [ExceptT.run_tryCatch]
  refine hx.follow fun result => .inr ?_
  cases result with
  | ok a => exact ⟨via_pure _, fun _ _ _ hfail => hfail⟩
  | error failure => exact ⟨hc.bind fun _ => via_pure _, fun _ _ _ hfail => hfail⟩

/-! ### Asking the engine -/

section Via

variable {R : World → World → Prop}

theorem via_refused (hread : Via R (diagnostic? env)) (operation : String) :
    Via R (refused env operation : Attempt α).run := fun world => hread world

theorem via_orRefused {action : Engine.Action .flag} (hcall : Via R (call action))
    (hread : Via R (diagnostic? env)) (operation : String) :
    Via R (orRefused env operation action).run := fun world => by
  show Relation.ReflTransGen R world (orRefused env operation action world).2
  have hfirst := hcall world
  rw [orRefused_apply]
  rcases hresult : call action world with ⟨_ | _, after⟩
  · rw [hresult] at hfirst
    exact hfirst.trans (via_refused hread operation after)
  · rw [hresult] at hfirst
    exact hfirst

end Via

theorem goes_diagnostic (env : Handle) : Goes (diagnostic? env) := (tidies_diagnostic env).goes

theorem goes_refused (env : Handle) (operation : String) :
    Goes (refused env operation : Attempt α).run := via_refused (goes_diagnostic env) operation

theorem goes_handleOrRefused (env : Handle) (operation : String) (action : Engine.Action .handle) :
    Goes (handleOrRefused env operation action).run := fun world => by
  show world.Leads (handleOrRefused env operation action world).2
  have hcall : world.Leads (call action world).2 := goes_call action world
  rw [handleOrRefused_apply]
  rcases hresult : call action world with ⟨_ | h, after⟩
  · rw [hresult] at hcall
    exact hcall.trans (goes_refused env operation after)
  · rw [hresult] at hcall
    exact hcall

/-- What is destroyed may be refused. -/
theorem tidies_orRefused (env : Handle) (operation : String) (h : Handle) :
    Tidies (orRefused env operation (.destroy h)).run :=
  via_orRefused (tidies_destroy h) (tidies_diagnostic env) operation

/-- Failing with the diagnostic after a call that was refused. -/
theorem raises_refused (hff : world.FaultFree) {kind : Engine.AnswerKind}
    {action : Engine.Action kind} (hrefused : ∃ refusal,
      world.engine.Refuses world.mergeFunctions action refusal ∧
        (world.reach action).2.engine.diagnostic? = some refusal) {operation operation' message : String}
    (hfail : failure? ((refused env operation' : Attempt α) (world.reach action).2).1 =
      some (.engine operation message)) :
    world.Raises ((refused env operation' : Attempt α) (world.reach action).2).2 message := by
  obtain ⟨refusal, hrefuses, hdiagnostic⟩ := hrefused
  have hfaults : (world.reach action).2.FaultFree := hff
  have htext : (diagnostic? env (world.reach action).2).1 = some refusal.message := by
    rw [(diagnostic_apply hfaults env).1, hdiagnostic]
    rfl
  unfold refused at hfail
  rw [lift_bind_apply, htext] at hfail
  cases hfail
  show world.Raises _ refusal.message
  exact ⟨.refl, hrefuses, .refl⟩

theorem honest_orRefused (env : Handle) (operation : String) (action : Engine.Action .flag) :
    Honest (orRefused env operation action) where
  goes := via_orRefused (goes_call action) (goes_diagnostic env) operation
  raises world _ hff operation' message hfail := by
    change failure? (orRefused env operation action world).1 = _ at hfail
    show world.Raises (orRefused env operation action world).2 message
    rw [orRefused_apply, call_apply hff] at hfail ⊢
    cases hanswer : (world.reach action).1 with
    | true =>
      have hreach : world.reach action = (true, (world.reach action).2) := Prod.ext hanswer rfl
      rw [hreach] at hfail
      cases hfail
    | false =>
      have hreach : world.reach action = (false, (world.reach action).2) := Prod.ext hanswer rfl
      rw [hreach] at hfail ⊢
      exact raises_refused hff (Engine.refuses_of_false hanswer) hfail

theorem honest_handleOrRefused (env : Handle) (operation : String) (action : Engine.Action .handle)
    (hmakes : action.Makes) : Honest (handleOrRefused env operation action) where
  goes := goes_handleOrRefused env operation action
  raises world _ hff operation' message hfail := by
    change failure? (handleOrRefused env operation action world).1 = _ at hfail
    show world.Raises (handleOrRefused env operation action world).2 message
    rw [handleOrRefused_apply, call_apply hff] at hfail ⊢
    cases hanswer : (world.reach action).1 with
    | some h =>
      have hreach : world.reach action = (some h, (world.reach action).2) := Prod.ext hanswer rfl
      rw [hreach] at hfail
      cases hfail
    | none =>
      have hreach : world.reach action = (none, (world.reach action).2) := Prod.ext hanswer rfl
      rw [hreach] at hfail ⊢
      exact raises_refused hff (Engine.refuses_of_none hmakes hanswer) hfail

/-- An operation that reads the diagnostic if a call has no answer, and fails with what it reads. -/
theorem tells_asked (env : Handle) {action : Engine.Action .handle} {f : Option Handle → Client β}
    {g : Option String → Client β} (hsome : ∀ h, Tells failureOf' (f (some h)))
    (hnone : f none = diagnostic? env >>= g) (hg : ∀ text?, Tidies (g text?))
    (hfails : ∀ text? world operation message,
      failureOf' (g text? world).1 = some (.engine operation message) → text? = some message) :
    Tells failureOf' (call action >>= f) where
  goes := (goes_call action).bind fun
    | some h => (hsome h).goes
    | none => hnone ▸ Tidies.goes ((tidies_diagnostic env).bind hg)
  raises world hr hff operation message hfail := by
    have hcall : world.Leads (call action world).2 := goes_call action world
    rw [bind_apply] at hfail ⊢
    rw [call_apply hff] at hcall hfail ⊢
    cases hanswer : (world.reach action).1 with
    | some h =>
      rw [hanswer] at hfail
      exact ((hsome h).raises _ (hcall.reachable hr) (hcall.faultFree hff) operation message
        hfail).of_leads hcall
    | none =>
      rw [hanswer, hnone, bind_apply] at hfail
      rw [hnone, bind_apply]
      have htext := hfails _ _ operation message hfail
      have hfaults : (world.reach action).2.FaultFree := hff
      rw [(diagnostic_apply hfaults env).1] at htext
      obtain ⟨refusal, hdiagnostic, rfl⟩ := Option.map_eq_some_iff.1 htext
      obtain ⟨refusal', hrefuses, hsame⟩ : ∃ refusal,
          world.engine.Refuses world.mergeFunctions action refusal ∧
            (world.reach action).2.engine.diagnostic? = some refusal :=
        Engine.refuses_of_fails (fun _ heq => nomatch congrArg Sigma.fst heq)
          ⟨hanswer, Option.isSome_iff_exists.2 ⟨refusal, hdiagnostic⟩⟩
      obtain rfl : refusal' = refusal := Option.some.inj (hsame.symm.trans hdiagnostic)
      exact ⟨.refl, hrefuses, hg _ _⟩

/-! ### Environments that are not closed -/

theorem honest_ensureOpen (env : Handle) : Honest (ensureOpen env) :=
  (honest_lift (via_isClosed env)).bind fun closed => by
    cases closed
    · exact honest_pure _
    · exact honest_throw nofun

/-- What is done under a name, if the environment is not closed. -/
theorem honest_named (env : Handle) (key : String) {body : String → Attempt α}
    (hbody : ∀ name, Honest (body name)) :
    Honest (do
      ensureOpen env
      tryWithName env key body) := by
  have happly : ∀ world, (do ensureOpen env; tryWithName env key body : Attempt α) world =
      if (world.link env).closed then (.error .environmentClosed, world)
      else withName env key (fun name => (body name).run) world := fun world => by
    rw [attempt_bind_apply]
    cases hclosed : (world.link env).closed with
    | true =>
      rw [ensureOpen_of_closed hclosed]
      rfl
    | false =>
      rw [ensureOpen_apply hclosed]
      rfl
  refine ⟨fun world => ?_, fun world hr hff operation message hfail => ?_⟩
  · show world.Leads ((do ensureOpen env; tryWithName env key body : Attempt α) world).2
    rw [happly]
    cases hclosed : (world.link env).closed with
    | true => exact .refl
    | false => exact leads_withName hclosed key fun name => (hbody name).goes
  · change failure? ((do ensureOpen env; tryWithName env key body : Attempt α) world).1 = _ at hfail
    show world.Raises ((do ensureOpen env; tryWithName env key body : Attempt α) world).2 message
    rw [happly] at hfail ⊢
    cases hclosed : (world.link env).closed with
    | true =>
      rw [hclosed] at hfail
      cases hfail
    | false =>
      rw [hclosed] at hfail
      have hacquired : world.Leads (acquireName env key world).2 := .single (.acquireName env key hclosed)
      exact (((hbody _).raises _ (hacquired.reachable hr) (hacquired.faultFree hff) operation message
        hfail).of_leads hacquired).tidies (.single (.releaseName env key))

end Client
end RowStore
