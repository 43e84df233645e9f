/-
# Operations give back what they acquire

Rows, cursors, stores, transactions and settings acquire a name for every field or path that they
look at, and hold it while they call the engine. However deep these are nested, however often a cursor
goes round and whichever call fails, each name is released again: a routine leaves every text of every
environment with the acquisitions it had, and every cache under its policy. A cache may give names up
on the way; what is outstanding does not depend on that. So it is with the operations that change merge
functions or make an environment, which has no acquisitions before it is made and none after. Only
closing an environment takes acquisitions away.

Key definitions: `NameCache.Balances`, `World.Balances`, `World.Grown`, `World.Even`.
Key theorems: `NameCache.Balances.release_of_acquire`, `Client.Routine.balances`,
`Client.Environment.even_create`, `Client.Environment.even_close`.
-/
import RowStore.Proofs.Client.Closing
import RowStore.Proofs.Client.Routines
import RowStore.Proofs.NameCache.Guards

namespace RowStore

/-! ### Caches -/

namespace NameCache

variable {cache cache' cache'' : NameCache} {now : Nat} {key : String}

theorem heldFor_sweep (cache : NameCache) (now : Nat) (key : String) :
    (cache.sweep now).heldFor key = cache.heldFor key := by
  rw [heldFor_eq, heldFor_eq, held?_sweep]

theorem policy_of_uncounted (hcounts : cache.counts = false) : cache.policy = .static := by
  unfold counts at hcounts
  simpa using hcounts

/-- Without counting, an acquisition leaves no trace in the counts. -/
theorem heldFor_acquire_of_uncounted (hcounts : cache.counts = false) (key' : String) :
    (cache.acquire now key).2.heldFor key' = cache.heldFor key' := by
  have hcounts' : (cache.sweep now).counts = false :=
    (counts_congr (policy_sweep cache now)).trans hcounts
  rw [← heldFor_sweep cache now key']
  unfold acquire
  dsimp only
  generalize cache.sweep now = cache at hcounts' ⊢
  split
  · next entry hget =>
    unfold hit heldFor refs?
    dsimp only
    rw [hcounts', Table.get?_insert]
    split
    · next heq =>
      rw [heq, hget]
      rfl
    · rfl
  · next hget =>
    unfold miss heldFor refs?
    dsimp only
    rw [hcounts', Table.get?_insert]
    split
    · next heq =>
      rw [heq, hget]
      rfl
    · rfl

theorem release_of_uncounted (hcounts : cache.counts = false) : cache.release now key = cache := by
  unfold release
  rw [policy_of_uncounted hcounts]

/-- The policy is the same, and every text has the same acquisitions outstanding. -/
structure Balances (cache cache' : NameCache) : Prop where
  policy : cache'.policy = cache.policy
  heldFor : ∀ key, cache'.heldFor key = cache.heldFor key

namespace Balances

theorem refl (cache : NameCache) : cache.Balances cache := ⟨rfl, fun _ => rfl⟩

theorem trans (h : cache.Balances cache') (h' : cache'.Balances cache'') :
    cache.Balances cache'' where
  policy := h'.policy.trans h.policy
  heldFor key := (h'.heldFor key).trans (h.heldFor key)

/-- A release takes back what an acquisition added, whatever the cache gave up between them. -/
theorem release_of_acquire {later : Nat} (h : (cache.acquire now key).2.Balances cache') :
    cache.Balances (cache'.release later key) := by
  have hpolicy : cache'.policy = cache.policy := h.policy.trans (policy_acquire cache now key)
  have hcounts : cache'.counts = cache.counts := counts_congr hpolicy
  refine ⟨(policy_release cache' later key).trans hpolicy, fun key' => ?_⟩
  by_cases hcounted : cache.counts = true
  · rw [heldFor_release (hcounts.trans hcounted), h.heldFor, h.heldFor, heldFor_acquire hcounted,
      heldFor_acquire hcounted, if_pos rfl, Nat.add_sub_cancel]
    by_cases heq : key' = key
    · rw [if_pos heq, heq]
    · rw [if_neg heq, if_neg heq]
  · have huncounted : cache.counts = false := Bool.eq_false_iff.2 hcounted
    rw [release_of_uncounted (hcounts.trans huncounted), h.heldFor,
      heldFor_acquire_of_uncounted huncounted]

end Balances

end NameCache

/-! ### Worlds -/

namespace World

variable {world world' world'' : World} {e : Handle}

/-- Every cache of the world balances, and handles are issued in order. -/
structure Balances (world world' : World) : Prop where
  caches : ∀ env, (world.link env).cache.Balances (world'.link env).cache
  engine : world.engine.Reachable →
    world'.engine.Reachable ∧ world.engine.objects.issued ≤ world'.engine.objects.issued

namespace Balances

theorem refl (world : World) : world.Balances world :=
  ⟨fun _ => .refl _, fun hr => ⟨hr, Nat.le_refl _⟩⟩

theorem trans (h : world.Balances world') (h' : world'.Balances world'') :
    world.Balances world'' where
  caches env := (h.caches env).trans (h'.caches env)
  engine hr := by
    obtain ⟨hr', hle⟩ := h.engine hr
    obtain ⟨hr'', hle'⟩ := h'.engine hr'
    exact ⟨hr'', Nat.le_trans hle hle'⟩

theorem call {kind : Engine.AnswerKind} (action : Engine.Action kind) (world : World) :
    world.Balances (Client.call action world).2 where
  caches env := by
    rw [link_call]
    exact .refl _
  engine hr := by
    refine ⟨reachable_engine_call action hr, ?_⟩
    unfold Client.call
    split
    · exact (Engine.steady_step hr.sound _ action).issued
    · exact (Engine.steady_step hr.sound _ action).issued
    · exact Nat.le_refl _

/-- Between the acquisition of a name and its release every cache balances. -/
theorem named {env : Handle} {key : String} (h : (Client.acquireName env key world).2.Balances world') :
    world.Balances (Client.releaseName env key world').2 where
  caches env' := by
    have hcache := h.caches env'
    show (world.link env').cache.Balances ((world'.setLink env _).link env').cache
    rw [link_setLink]
    by_cases heq : env' = env
    · subst heq
      have hacquired : ((Client.acquireName env' key world).2.link env').cache =
          ((world.link env').cache.acquire world.now key).2 :=
        congrArg Link.cache ((link_setLink _ _ _).trans (if_pos rfl))
      rw [hacquired] at hcache
      rw [if_pos rfl]
      exact hcache.release_of_acquire
    · have hother : (Client.acquireName env key world).2.link env' = world.link env' :=
        (link_setLink _ _ _).trans (if_neg heq)
      rw [hother] at hcache
      rw [if_neg heq]
      exact hcache
  engine := h.engine

end Balances

/-- A world whose engine is one that calls lead to, and in which no name is held of an environment
that was not made yet. -/
structure Grown (world : World) : Prop where
  engine : world.engine.Reachable
  unmade : ∀ env, world.engine.objects.issued < env → ∀ key, (world.link env).cache.heldFor key = 0

theorem grown_start : Grown {} := ⟨.start, fun _ _ _ => rfl⟩

/-- In a grown world, the environment has the acquisitions that it had. -/
def Even (e : Handle) (world world' : World) : Prop := world.Grown → world'.Grown ∧
  ∀ key, (world'.link e).cache.heldFor key = (world.link e).cache.heldFor key

theorem Even.trans (h : Even e world world') (h' : Even e world' world'') : Even e world world'' := by
  intro hg
  obtain ⟨hg', hkeys⟩ := h hg
  obtain ⟨hg'', hkeys'⟩ := h' hg'
  exact ⟨hg'', fun key => (hkeys' key).trans (hkeys key)⟩

instance : Std.Refl (Even e) := ⟨fun _ hg => ⟨hg, fun _ => rfl⟩⟩

instance : IsTrans World (Even e) := ⟨fun _ _ _ => Even.trans⟩

/-- Steps that are even are so together. -/
theorem even_of_steps (h : Relation.ReflTransGen (Even e) world world') : Even e world world' := by
  rwa [Relation.reflTransGen_eq_self] at h

theorem Balances.even (h : world.Balances world') : Even e world world' := by
  intro hg
  obtain ⟨hr, hle⟩ := h.engine hg.engine
  refine ⟨⟨hr, fun env hlt key => ?_⟩, (h.caches e).heldFor⟩
  rw [(h.caches env).heldFor]
  exact hg.unmade env (Nat.lt_of_le_of_lt hle hlt) key

/-- A link may be replaced by one whose cache has the same acquisitions, or none. -/
theorem even_setLink (env : Handle) {link : Link}
    (hlink : ∀ key, link.cache.heldFor key = (world.link env).cache.heldFor key ∨
      link.cache.heldFor key = 0 ∧ (env = e → (world.link env).cache.heldFor key = 0)) :
    Even e world (world.setLink env link) := by
  intro hg
  refine ⟨⟨hg.engine, fun env' hlt key => ?_⟩, fun key => ?_⟩
  · have hzero := hg.unmade env' hlt key
    rw [link_setLink]
    split
    · next heq =>
      subst heq
      rcases hlink key with hsame | ⟨hnone, -⟩
      · rw [hsame, hzero]
      · exact hnone
    · exact hzero
  · rw [link_setLink]
    split
    · next heq =>
      subst heq
      rcases hlink key with hsame | ⟨hnone, hzero⟩
      · exact hsame
      · rw [hnone, hzero rfl]
    · rfl

end World

/-! ### Relations that operations keep to -/

namespace Client

/-- A relation that the world after is in to the world before whatever a client does, but for making
and closing environments. -/
class Regular (R : World → World → Prop) : Prop where
  plain : ∀ {α : Type} {x : Client α}, Plain x → Via R x
  register : ∀ (env : Environment) (f : MergeFn) (world : World), R world (env.register f world).2
  unregister : ∀ (env : Environment) (token : Nat) (world : World),
    R world (env.unregister token world).2
  clearRegistry : ∀ (env : Environment) (world : World), R world (env.clearRegistry world).2
  advance : ∀ (ns : Nat) (world : World), R world (world.advance ns)
  plan : ∀ (primitive : Engine.Primitive) (entries : List (Option Int)) (world : World),
    R world (world.plan primitive entries)

namespace Environment

variable {R : World → World → Prop} [Regular R]

theorem via_register (env : Environment) (f : MergeFn) : Via R (env.register f) := fun world =>
  .single (Regular.register env f world)

theorem via_unregister (env : Environment) (token : Nat) : Via R (env.unregister token) :=
  fun world => .single (Regular.unregister env token world)

theorem via_clearRegistry (env : Environment) : Via R env.clearRegistry := fun world =>
  .single (Regular.clearRegistry env world)

theorem via_installMerge (env : Environment) (db : Handle) (f : MergeFn) :
    Via R (env.installMerge db f).run := by
  refine Via.lift_bind (via_register env f) fun token => ?_
  refine Via.lift_bind (Regular.plain (.call trivial)) fun installed => ?_
  cases installed
  · exact Via.lift_bind (via_unregister env token) fun _ => Regular.plain <|
      (routine_refused _ trivial _).run_bind fun _ => routine_run_pure _
  · exact via_pure _

theorem via_newDatabase (env : Environment) (name : String) (schema : Schema)
    (merge? : Option MergeFn) : Via R (env.newDatabase name schema merge?).run := by
  rw [newDatabase_eq]
  refine Via.run_bind (Regular.plain (routine_ensureOpen _)) fun _ => ?_
  dsimp only
  split
  · exact fun _ => .refl
  refine Via.run_bind (Regular.plain (routine_orRefused trivial trivial _)) fun _ => ?_
  unfold afterDeclaring
  refine Via.run_bind (Regular.plain (routine_handleOrRefused trivial trivial _)) fun handle => ?_
  cases merge? with
  | none => exact via_pure _
  | some f =>
    refine Via.run_bind ?_ fun _ => via_pure _
    exact (via_installMerge env handle f).run_bind fun _ => via_pure _

end Environment

end Client

/-! ### Acquisitions -/

namespace Client

open World (Even Grown)

variable {α : Type} {world : World} {e : Handle}

/-- A routine gives back every name that it acquires. -/
theorem Routine.balances {x : Client α} (hx : Plain x) (world : World) :
    world.Balances (x world).2 := by
  induction hx generalizing world with
  | pure a => exact .refl world
  | bind _ _ hx hf => exact (hx world).trans (hf _ _)
  | call _ => exact .call _ world
  | withName env key _ hbody => exact (hbody _ _).named
  | isClosed _ => exact .refl world
  | fetchBound => exact .refl world

instance : Regular (Even e) where
  plain hx world := .single (Routine.balances hx world).even
  register env _ _ := World.even_setLink env.handle fun _ => .inl rfl
  unregister env _ _ := World.even_setLink env.handle fun _ => .inl rfl
  clearRegistry env _ := World.even_setLink env.handle fun _ => .inl rfl
  advance _ _ hg := ⟨⟨hg.engine, hg.unmade⟩, fun _ => rfl⟩
  plan _ _ _ hg := ⟨⟨hg.engine, hg.unmade⟩, fun _ => rfl⟩

namespace Environment

variable {env : Environment}

/-! ### Environments made and closed -/

/-- Closing an environment leaves the others as they are, and itself if no name of it is held. -/
theorem even_close (hidle : env.handle = e → (world.link e).closed = false →
    ∀ key, (world.link e).cache.heldFor key = 0) : Even e world (env.close world).2 := by
  cases hclosed : (world.link env.handle).closed with
  | true =>
    unfold close
    rw [lift_bind_apply, isClosed_apply, hclosed]
    exact refl_of _ _
  | false =>
    rw [close_of_open hclosed]
    have hshut : Even e world (env.shut world) := by
      refine World.even_setLink env.handle fun key => .inr ⟨rfl, fun heq => ?_⟩
      subst heq
      exact hidle rfl hclosed key
    exact hshut.trans
      (Routine.balances (routine_orRefused trivial trivial "close environment") (env.shut world)).even

theorem even_release (hidle : env.handle = e → (world.link e).closed = false →
    ∀ key, (world.link e).cache.heldFor key = 0) : Even e world (env.release world).2 := by
  cases hclosed : (world.link env.handle).closed with
  | true =>
    unfold release
    rw [bind_apply, isClosed_apply, hclosed]
    exact refl_of _ _
  | false =>
    rw [release_of_open hclosed]
    exact even_close hidle

/-- Setting the path of an environment without acquisitions, which is closed again if that fails. -/
theorem even_afterMaking (path? : Option String)
    (hidle : ∀ key, (world.link env.handle).cache.heldFor key = 0) :
    Even e world (env.afterMaking path? world).2 := by
  cases path? with
  | none => exact refl_of _ _
  | some path =>
    have hset := Routine.balances (quiet_setBytes env Engine.pathKey (Bytes.ofText path)).plain world
    unfold afterMaking
    dsimp only
    rw [tryCatch_apply]
    rcases hresult : env.setBytes Engine.pathKey (Bytes.ofText path) world with ⟨failure | _, after⟩
    · rw [show (env.setBytes Engine.pathKey (Bytes.ofText path)).run world = _ from hresult] at hset
      refine hset.even.trans (even_release fun heq _ key => ?_)
      rw [(hset.caches e).heldFor, ← heq]
      exact hidle key
    · rw [show (env.setBytes Engine.pathKey (Bytes.ofText path)).run world = _ from hresult] at hset
      exact hset.even

/-- An environment has no acquisitions before it is made, and none after. -/
theorem even_create (path? : Option String) (policy : CachePolicy) (termination : Termination)
    (world : World) : Even e world (create path? policy termination world).2 := by
  have hcalled := World.Balances.call .newEnvironment world
  rw [create_apply]
  rcases hcall : call .newEnvironment world with ⟨_ | h, after⟩
  · rw [hcall] at hcalled
    exact hcalled.even
  · rw [hcall] at hcalled
    dsimp only
    intro hg
    obtain ⟨hissued, -⟩ := World.newEnvironment_of_made (congrArg Prod.fst hcall)
    have hunmade : ∀ key, (after.link h).cache.heldFor key = 0 := fun key => by
      rw [(hcalled.caches h).heldFor]
      exact hg.unmade h (hissued ▸ Nat.lt_succ_self _) key
    have hmade : Even e after (after.setLink h { cache := .ofPolicy policy }) :=
      World.even_setLink h fun key => .inr ⟨rfl, fun _ => hunmade key⟩
    have hset := @even_afterMaking (after.setLink h { cache := .ofPolicy policy }) e
      { handle := h, path?, policy, termination } path? fun key => by
        rw [World.link_setLink, if_pos rfl]
        rfl
    have hrest := hcalled.even.trans (hmade.trans hset) hg
    rw [attempt_bind_apply]
    rcases hpath : afterMaking { handle := h, path?, policy, termination } path?
      (after.setLink h { cache := .ofPolicy policy }) with ⟨failure | _, final⟩
    · rw [hpath] at hrest
      exact hrest
    · rw [hpath] at hrest
      exact hrest

end Environment

end Client
end RowStore
