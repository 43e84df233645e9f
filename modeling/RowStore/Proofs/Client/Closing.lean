/-
# What becomes of a closed environment

An environment that is closed by hand, or released while it is open, is gone for good: it is closed for its
clients, its cache of names is empty, and on the engine it is not live and its handle is never issued
again. Every move keeps this. What belongs to such an environment is spent: an operation on it or on one
of its databases, rows, cursors and transactions changes nothing at all, and is answered with a failure or
with nothing.

Key definitions: `World.Rooted`, `World.Gone`, `Client.Environment.Ends`, `Client.Spent`.
Key theorems: `World.Move.rooted`, `World.Move.gone`, `Client.Environment.Ends.gone`,
`Client.Spent.apply`.
-/
import RowStore.Proofs.Client.Telling
import RowStore.Proofs.Client.Custody

namespace RowStore

/-! ### Empty caches -/

namespace NameCache

variable {cache : NameCache}

/-- No names, and none waiting to be given up. -/
structure Vacant (cache : NameCache) : Prop where
  entries : cache.entries = {}
  idle : cache.idle = []

theorem vacant_clear (cache : NameCache) : cache.clear.Vacant := ⟨rfl, rfl⟩

theorem Vacant.size_eq (h : cache.Vacant) : cache.size = 0 := by
  rw [size, h.entries]
  rfl

theorem Vacant.sweep (h : cache.Vacant) (now : Nat) : (cache.sweep now).Vacant := by
  unfold NameCache.sweep
  split
  · rw [h.idle, h.entries]
    exact ⟨rfl, rfl⟩
  · exact h

/-- There is nothing to release. -/
theorem Vacant.release (h : cache.Vacant) (now : Nat) (key : String) :
    (cache.release now key).Vacant := by
  have hnone : cache.entries.get? key = none := by
    rw [h.entries]
    rfl
  unfold NameCache.release
  split
  · exact h
  · rw [hnone]
    exact h
  · rw [hnone]
    exact h.sweep now

end NameCache

namespace World

variable {world world' : World} {e : Handle}

/-! ### Open environments -/

/-- The handle of every environment that is not closed was issued, and stands for nothing but an
environment. -/
def Rooted (world : World) : Prop := ∀ e, (world.link e).closed = false →
  e ≤ world.engine.objects.issued ∧
    ∀ object, world.engine.objects.table.get? e = some object → object.kind = .environment

theorem rooted_start : Rooted {} := fun e hopen => by cases hopen

/-- What is open stays rooted if its handle stands for nothing else. -/
theorem Rooted.of_steady (hrooted : world.Rooted)
    (hsteady : world.engine.objects.Steady world'.engine.objects)
    (hclosed : ∀ e, (world'.link e).closed = false → (world.link e).closed = false) :
    world'.Rooted := fun e hopen => by
  obtain ⟨hissued, hkind⟩ := hrooted e (hclosed e hopen)
  refine ⟨Nat.le_trans hissued hsteady.issued, fun object' hget' => ?_⟩
  obtain ⟨object, hget, hsame⟩ := hsteady.kind e hissued object' hget'
  exact hsame ▸ hkind object hget

/-- A link is replaced by one that is not closed only if the one before was not. -/
theorem Rooted.setLink (hrooted : world.Rooted) (env : Handle) {link : Link}
    (hclosed : link.closed = false → (world.link env).closed = false) :
    (world.setLink env link).Rooted := by
  have hsteady : world.engine.objects.Steady (world.setLink env link).engine.objects := .refl _
  refine hrooted.of_steady hsteady fun e hopen => ?_
  rw [link_setLink] at hopen
  split at hopen
  · next heq => exact heq ▸ hclosed hopen
  · exact hopen

/-- An environment that is made has the next handle. -/
theorem newEnvironment_of_made {h : Handle} (made : (Client.call .newEnvironment world).1 = some h) :
    h = world.engine.objects.issued + 1 ∧ (Client.call .newEnvironment world).2.engine.objects =
      (world.engine.objects.add (.environment {})).2 := by
  unfold Client.call at made ⊢
  split at made
  · exact ⟨(Option.some.inj made).symm, rfl⟩
  · exact ⟨(Option.some.inj made).symm, rfl⟩
  · cases made

theorem Move.rooted (hm : world.Move world') (hr : world.Reachable) (hrooted : world.Rooted) :
    world'.Rooted := by
  have hcall : ∀ {kind : Engine.AnswerKind} (action : Engine.Action kind),
      (Client.call action world).2.Rooted := fun action =>
    hrooted.of_steady (Move.steady (.call action) hr) fun e hopen => by
      rw [link_call] at hopen
      exact hopen
  cases hm with
  | call action => exact hcall action
  | acquireName env key isOpen => exact hrooted.setLink _ id
  | releaseName env key => exact hrooted.setLink _ id
  | create h policy made =>
    obtain ⟨rfl, hobjects⟩ := newEnvironment_of_made made
    intro e hopen
    by_cases heq : e = world.engine.objects.issued + 1
    · subst heq
      show _ ≤ (Client.call .newEnvironment world).2.engine.objects.issued ∧ ∀ object,
        (Client.call .newEnvironment world).2.engine.objects.table.get? _ = some object → _
      rw [hobjects]
      refine ⟨Nat.le_refl _, fun object hget => ?_⟩
      rw [Engine.Objects.get?_add, if_pos rfl] at hget
      cases hget
      rfl
    · rw [link_setLink, if_neg heq] at hopen
      exact hcall .newEnvironment e hopen
  | register env registry => exact hrooted.setLink _ id
  | close env => exact hrooted.setLink _ (by rintro ⟨⟩)
  | advance ns => exact hrooted

/-! ### Environments that are gone -/

/-- The environment is closed, its cache is empty, and its handle was issued and stands for nothing. -/
structure Gone (e : Handle) (world : World) : Prop where
  closed : (world.link e).closed = true
  vacant : (world.link e).cache.Vacant
  issued : e ≤ world.engine.objects.issued
  gone : world.engine.objects.table.get? e = none

namespace Gone

theorem of_steady (hg : world.Gone e) (hsteady : world.engine.objects.Steady world'.engine.objects)
    (hlink : world'.link e = world.link e) : world'.Gone e where
  closed := by rw [hlink, hg.closed]
  vacant := by
    rw [hlink]
    exact hg.vacant
  issued := Nat.le_trans hg.issued hsteady.issued
  gone := hsteady.gone hg.issued hg.gone

theorem setLink (hg : world.Gone e) (env : Handle) {link : Link}
    (hlink : e = env → link.closed = true ∧ link.cache.Vacant) : (world.setLink env link).Gone e where
  closed := by
    rw [link_setLink]
    split
    · next heq => exact (hlink heq).1
    · exact hg.closed
  vacant := by
    rw [link_setLink]
    split
    · next heq => exact (hlink heq).2
    · exact hg.vacant
  issued := hg.issued
  gone := hg.gone

end Gone

/-- No move brings an environment back. -/
theorem Move.gone (hm : world.Move world') (hr : world.Reachable) (hg : world.Gone e) :
    world'.Gone e := by
  have hcall : ∀ {kind : Engine.AnswerKind} (action : Engine.Action kind),
      (Client.call action world).2.Gone e := fun action =>
    hg.of_steady (Move.steady (.call action) hr) (link_call action e)
  cases hm with
  | call action => exact hcall action
  | acquireName env key isOpen =>
    refine hg.setLink env fun heq => ?_
    subst heq
    rw [hg.closed] at isOpen
    cases isOpen
  | releaseName env key =>
    refine hg.setLink env fun heq => ?_
    subst heq
    exact ⟨hg.closed, hg.vacant.release world.now key⟩
  | create h policy made =>
    refine (hcall .newEnvironment).setLink h fun heq => ?_
    obtain ⟨rfl, -⟩ := newEnvironment_of_made made
    exact absurd (heq ▸ hg.issued) (Nat.not_succ_le_self _)
  | register env registry =>
    refine hg.setLink env fun heq => ?_
    subst heq
    exact ⟨hg.closed, hg.vacant⟩
  | close env => exact hg.setLink env fun _ => ⟨rfl, NameCache.vacant_clear _⟩
  | advance ns => exact hg.of_steady (.refl _) rfl

/-- What is gone stays gone, whatever the moves. -/
theorem Leads.gone (hl : world.Leads world') (hr : world.Reachable) (hg : world.Gone e) :
    world'.Gone e := by
  induction hl with
  | refl => exact hg
  | tail hl hm ih => exact hm.gone (Leads.reachable hl hr) ih

/-- An environment that is gone owns nothing. -/
theorem Gone.owned_eq_nil (hg : world.Gone e) (hr : world.Reachable) :
    world.engine.objects.owned e = [] := hr.sound.owned_eq_nil hg.gone

end World

namespace Client

variable {world world' : World} {e : Handle}

/-- A call that is not planned to fail reaches the engine. -/
theorem call_of_unplanned {kind : Engine.AnswerKind} {action : Engine.Action kind}
    (h : ∀ code entries, world.plans action.primitive ≠ some code :: entries) :
    ∃ plans, call action world = { world with plans }.reach action := by
  unfold call
  split
  · exact ⟨world.plans, rfl⟩
  · exact ⟨_, rfl⟩
  · next hplan => exact absurd hplan (h _ _)

namespace Environment

variable {env : Environment}

/-- An environment is closed by hand, or it is released while it is open and the call that destroys it
is not planned to fail. -/
inductive Ends (env : Environment) (world : World) : World → Prop where
  | closed {after : World} (done : env.close world = (.ok (), after)) : Ends env world after
  | released (isOpen : (world.link env.handle).closed = false)
    (reached : ∀ code entries, world.plans .destroy ≠ some code :: entries) :
    Ends env world (env.release world).2

/-- The world in which an environment is closed for its clients, and not yet destroyed. -/
def shut (env : Environment) (world : World) : World :=
  world.setLink env.handle
    { closed := true
      registry := (world.link env.handle).registry.clear
      cache := (world.link env.handle).cache.clear }

theorem close_of_open (hopen : (world.link env.handle).closed = false) : env.close world =
    orRefused env.handle "close environment" (.destroy env.handle) (env.shut world) := by
  unfold close
  rw [lift_bind_apply, isClosed_apply, hopen]
  rfl

theorem release_of_open (hopen : (world.link env.handle).closed = false) :
    (env.release world).2 = (env.close world).2 := by
  unfold release
  rw [bind_apply, isClosed_apply, hopen]
  rfl

/-- A call that destroys the environment and reaches the engine leaves nothing of it. -/
theorem gone_of_reach (hr : world.Reachable) (hrooted : world.Rooted)
    (hopen : (world.link env.handle).closed = false)
    (hreach : ∃ plans, call (.destroy env.handle) (env.shut world) =
      { env.shut world with plans }.reach (.destroy env.handle)) :
    (call (.destroy env.handle) (env.shut world)).2.Gone env.handle := by
  obtain ⟨hissued, hkind⟩ := hrooted env.handle hopen
  have hshut : (env.shut world).Reachable := hr.close env.handle
  have hlink : (call (.destroy env.handle) (env.shut world)).2.link env.handle =
      { closed := true
        registry := (world.link env.handle).registry.clear
        cache := (world.link env.handle).cache.clear } := by
    rw [World.link_call, shut, World.link_setLink, if_pos rfl]
  refine ⟨by rw [hlink], ?_, ?_, ?_⟩
  · rw [hlink]
    exact NameCache.vacant_clear _
  · exact Nat.le_trans hissued (World.Move.steady (.call _) hshut).issued
  · obtain ⟨plans, hreach⟩ := hreach
    rw [hreach]
    exact Engine.gone_of_destroy hkind

/-- An environment that ends is gone. -/
theorem Ends.gone (hends : env.Ends world world') (hr : world.Reachable) (hrooted : world.Rooted) :
    world'.Gone env.handle := by
  have hshut : (env.shut world).Reachable := hr.close env.handle
  cases hends with
  | closed done =>
    cases hclosed : (world.link env.handle).closed with
    | true =>
      unfold close at done
      rw [lift_bind_apply, isClosed_apply, hclosed] at done
      cases done
    | false =>
      rw [close_of_open hclosed, orRefused_apply] at done
      have hreach : ∃ plans, call (.destroy env.handle) (env.shut world) =
          { env.shut world with plans }.reach (.destroy env.handle) := by
        refine call_of_unplanned fun code entries hplan => ?_
        unfold call at done
        rw [hplan] at done
        cases done
      have hgone := gone_of_reach hr hrooted hclosed hreach
      rcases hcall : call (.destroy env.handle) (env.shut world) with ⟨_ | _, after⟩
      · rw [hcall] at done
        cases done
      · rw [hcall] at done hgone
        cases done
        exact hgone
  | released isOpen reached =>
    rw [release_of_open isOpen, close_of_open isOpen, orRefused_apply]
    have hgone := gone_of_reach hr hrooted isOpen (call_of_unplanned reached)
    have hcalled := hshut.call (.destroy env.handle)
    rcases hcall : call (.destroy env.handle) (env.shut world) with ⟨_ | _, after⟩
    · rw [hcall] at hgone hcalled
      exact World.Leads.gone (goes_refused env.handle "close environment" after) hcalled hgone
    · rw [hcall] at hgone
      exact hgone

/-- An environment ends by moves. -/
theorem Ends.leads (hends : env.Ends world world') : world.Leads world' := by
  cases hends with
  | closed done =>
    have hgoes : world.Leads (env.close world).2 := (honest_close env).goes world
    rw [done] at hgoes
    exact hgoes
  | released isOpen reached => exact (tidies_release env).goes world

/-- An environment that ends has no merge functions. -/
theorem Ends.registry_size (hends : env.Ends world world') :
    (world'.link env.handle).registry.size = 0 := by
  have hcleared : ∀ world : World, (world.link env.handle).closed = false →
      ((env.close world).2.link env.handle).registry.size = 0 := fun world hopen => by
    rw [close_of_open hopen]
    have hfollows : (env.shut world).Follows (orRefused env.handle "close environment"
      (.destroy env.handle) (env.shut world)).2 := tame_orRefused _ _ _ _
    rw [hfollows.registry, shut, World.link_setLink, if_pos rfl]
    rfl
  cases hends with
  | closed done =>
    cases hclosed : (world.link env.handle).closed with
    | true =>
      unfold close at done
      rw [lift_bind_apply, isClosed_apply, hclosed] at done
      cases done
    | false =>
      have hsize := hcleared world hclosed
      rw [done] at hsize
      exact hsize
  | released isOpen reached =>
    rw [release_of_open isOpen]
    exact hcleared world isOpen

end Environment

/-! ### What is spent -/

/-- Why a store of a closed environment takes no rows. -/
def Store.spent (store : Store) : Failure :=
  if store.isFinished then .alreadyClosed "transaction" else .environmentClosed

/-- A cursor that has no more rows, whatever the environment. -/
def Cursor.isOver (cursor : Cursor) : Bool := cursor.closed || cursor.exhausted

/-- The operations on an environment and on its databases, rows, cursors and transactions, all rows
being its own, and what they answer once the environment is closed. -/
inductive Spent (e : Handle) : ∀ {α : Type}, Client α → α → Prop where
  | setField (row : Row) (own : row.env = e) (field : String) (value : Value) :
    Spent e (row.set field value).run (.error .environmentClosed)
  | getField (row : Row) (own : row.env = e) (field : String) (kind : ValueKind) :
    Spent e (row.get field kind) none
  | getWord (row : Row) (own : row.env = e) (field : String) : Spent e (row.getWord field) none
  | getBytes (row : Row) (own : row.env = e) (field : String) : Spent e (row.getBytes field) none
  | getText (row : Row) (own : row.env = e) (field : String) : Spent e (row.getText field) none
  | destroyRow (row : Row) (own : row.env = e) : Spent e row.destroy.run (.ok ())
  | releaseRow (row : Row) (own : row.env = e) : Spent e row.release ()
  | newRow (db : Database) (own : db.env = e) : Spent e db.newRow.run (.error .environmentClosed)
  | openCursor (db : Database) (own : db.env = e) (criteria : CriteriaSet) :
    Spent e (db.openCursor criteria).run (.error .environmentClosed)
  | lookup (store : Store) (own : store.env = e) (key : Row) (ownKey : key.env = e) :
    Spent e (store.lookup key).run (.error store.spent)
  | write (store : Store) (own : store.env = e) (row : Row) (ownRow : row.env = e)
    (kind : WriteKind) : Spent e (store.write row kind).run (.error store.spent)
  | commit (tx : Transaction) (own : tx.env = e) : Spent e tx.commit (.error, tx)
  | rollback (tx : Transaction) (own : tx.env = e) :
    Spent e tx.rollback.run (.error (Store.transaction tx).spent)
  | releaseTransaction (tx : Transaction) (own : tx.env = e) : Spent e tx.release ()
  | next (cursor : Cursor) (own : cursor.env = e) :
    Spent e cursor.next (if cursor.isOver then .ok none else .error .environmentClosed, cursor)
  | collect {β : Type} (cursor : Cursor) (own : cursor.env = e) (visit : Row → Attempt β) :
    Spent e (cursor.collect visit)
      (if cursor.isOver then .ok [] else .error .environmentClosed, cursor)
  | closeCursor (cursor : Cursor) (own : cursor.env = e) (homely : cursor.Homely) :
    Spent e cursor.close
      (if cursor.closed then (.error (.alreadyClosed "cursor"), cursor)
        else (.ok (), { cursor with closed := true, current? := none, seed? := none }))
  | releaseCursor (cursor : Cursor) (own : cursor.env = e) (homely : cursor.Homely) :
    Spent e cursor.release ()
  | setSetting (env : Environment) (own : env.handle = e) (path : String) (value : Value) :
    Spent e (env.set path value).run (.error .environmentClosed)
  | settingText (env : Environment) (own : env.handle = e) (path : String) :
    Spent e (env.getText path) none
  | settingNumber (env : Environment) (own : env.handle = e) (path : String) :
    Spent e (env.getInt path) none
  | diagnostic (env : Environment) (own : env.handle = e) : Spent e env.error? none
  | newDatabase (env : Environment) (own : env.handle = e) (name : String) (schema : Schema)
    (merge? : Option MergeFn) :
    Spent e (env.newDatabase name schema merge?).run (.error .environmentClosed)
  | openUp (env : Environment) (own : env.handle = e) :
    Spent e env.openUp.run (.error .environmentClosed)
  | begin (env : Environment) (own : env.handle = e) :
    Spent e env.begin.run (.error .environmentClosed)
  | close (env : Environment) (own : env.handle = e) :
    Spent e env.close.run (.error (.alreadyClosed "environment"))
  | release (env : Environment) (own : env.handle = e) : Spent e env.release ()

section Closed

variable {α β : Type} {env : Handle}

/-- What begins with a check that the environment is not closed. -/
theorem ensureOpen_bind_of_closed (h : (world.link env).closed = true) (f : Unit → Attempt α) :
    (ensureOpen env >>= f) world = (.error .environmentClosed, world) := by
  rw [attempt_bind_apply, ensureOpen_of_closed h]

/-- What is done only if the environment is not closed. -/
theorem unlessClosed_of_closed (h : (world.link env).closed = true) (a : α) (x : Client α) :
    (do if ← isClosed env then return a else x : Client α) world = (a, world) := by
  rw [bind_apply, isClosed_apply, h]
  rfl

theorem Row.getWord_of_closed {row : Row} (h : (world.link row.env).closed = true) (field : String) :
    row.getWord field world = (none, world) := unlessClosed_of_closed h none _

theorem Row.getBytes_of_closed {row : Row} (h : (world.link row.env).closed = true)
    (field : String) : row.getBytes field world = (none, world) := unlessClosed_of_closed h none _

theorem Row.release_of_closed {row : Row} (h : (world.link row.env).closed = true) :
    row.release world = ((), world) := unlessClosed_of_closed h () _

theorem releaseAll_of_closed {rows : List Row} (h : (world.link e).closed = true)
    (hown : ∀ row ∈ rows, row.env = e) : rows.forM Row.release world = ((), world) := by
  induction rows with
  | nil => rfl
  | cons row rows ih =>
    obtain ⟨hrow, hrows⟩ := List.forall_mem_cons.1 hown
    show (row.release >>= fun _ => rows.forM Row.release) world = _
    rw [bind_apply, Row.release_of_closed (hrow ▸ h)]
    exact ih hrows

/-- A store of a closed environment takes no row and changes nothing. -/
theorem Store.accept_of_spent {store : Store} {row : Row} (h : (world.link store.env).closed = true)
    (hrow : (world.link row.env).closed = true) :
    store.accept row world = (.error store.spent, world) := by
  unfold spent
  by_cases hfinished : store.isFinished = true
  · rw [accept_of_finished hfinished, Row.release_of_closed hrow, if_pos hfinished]
  · rw [accept_of_closed (Bool.eq_false_iff.2 hfinished) h, Row.release_of_closed hrow,
      if_neg hfinished]

theorem Cursor.next_of_closed {cursor : Cursor} (h : (world.link cursor.env).closed = true) :
    cursor.next world =
      ((if cursor.isOver then .ok none else .error .environmentClosed, cursor), world) := by
  unfold next isOver
  split
  · rfl
  · rw [bind_apply, isClosed_apply, h]
    rfl

theorem Cursor.close_of_closed {cursor : Cursor} (h : (world.link cursor.env).closed = true)
    (homely : cursor.Homely) : cursor.close world =
      (if cursor.closed then (.error (.alreadyClosed "cursor"), cursor)
        else (.ok (), { cursor with closed := true, current? := none, seed? := none }), world) := by
  cases hclosed : cursor.closed with
  | true =>
    unfold close
    rw [hclosed]
    rfl
  | false =>
    rw [close_of_open hclosed, bind_apply, releaseAll_of_closed h homely]
    unfold shut
    rw [bind_apply, isClosed_apply, h]
    rfl

end Closed

/-- An operation on what is spent changes nothing. -/
theorem Spent.apply {α : Type} {x : Client α} {a : α} (hs : Spent e x a)
    (h : (world.link e).closed = true) : x world = (a, world) := by
  cases hs with
  | setField row own field value =>
    subst own
    cases value with
    | int v => exact ensureOpen_bind_of_closed h _
    | uint v => exact ensureOpen_bind_of_closed h _
    | str b => exact ensureOpen_bind_of_closed h _
  | getField row own field kind =>
    subst own
    cases kind with
    | int =>
      show (row.getWord field >>= fun _ => _ : Client _) world = _
      rw [bind_apply, Row.getWord_of_closed h]
      rfl
    | uint =>
      show (row.getWord field >>= fun _ => _ : Client _) world = _
      rw [bind_apply, Row.getWord_of_closed h]
      rfl
    | str =>
      show (row.getBytes field >>= fun _ => _ : Client _) world = _
      rw [bind_apply, Row.getBytes_of_closed h]
      rfl
  | getWord row own field =>
    subst own
    exact Row.getWord_of_closed h field
  | getBytes row own field =>
    subst own
    exact Row.getBytes_of_closed h field
  | getText row own field =>
    subst own
    show (row.getBytes field >>= fun _ => _ : Client _) world = _
    rw [bind_apply, Row.getBytes_of_closed h]
    rfl
  | destroyRow row own =>
    subst own
    show row.destroy world = _
    unfold Row.destroy
    rw [lift_bind_apply, isClosed_apply, h]
    rfl
  | releaseRow row own =>
    subst own
    exact Row.release_of_closed h
  | newRow db own =>
    subst own
    exact ensureOpen_bind_of_closed h _
  | openCursor db own criteria =>
    subst own
    have hnew : db.newRow world = (.error .environmentClosed, world) :=
      ensureOpen_bind_of_closed h _
    show db.openCursor criteria world = _
    unfold Database.openCursor
    rw [attempt_bind_apply, hnew]
  | lookup store own key ownKey =>
    subst own
    show store.lookup key world = _
    unfold Store.lookup
    rw [attempt_bind_apply, Store.accept_of_spent h (ownKey ▸ h)]
  | write store own row ownRow kind =>
    subst own
    show store.write row kind world = _
    unfold Store.write
    rw [attempt_bind_apply, Store.accept_of_spent h (ownRow ▸ h)]
  | commit tx own =>
    subst own
    unfold Transaction.commit
    rw [bind_apply, isClosed_apply, h, Bool.or_true]
    rfl
  | rollback tx own =>
    subst own
    show tx.rollback world = _
    unfold Transaction.rollback Store.spent Store.isFinished
    dsimp only
    split
    · rfl
    · exact ensureOpen_bind_of_closed h _
  | releaseTransaction tx own =>
    subst own
    unfold Transaction.release
    rw [bind_apply, isClosed_apply, h, Bool.or_true]
    rfl
  | next cursor own =>
    subst own
    exact Cursor.next_of_closed h
  | collect cursor own visit =>
    subst own
    -- There is fuel for at least one fetch, which finds the environment closed.
    show Cursor.collect.go visit (_ + 1) cursor world = _
    unfold Cursor.collect.go
    rw [bind_apply, Cursor.next_of_closed h]
    cases cursor.isOver with
    | true => rfl
    | false => rfl
  | closeCursor cursor own homely =>
    subst own
    exact Cursor.close_of_closed h homely
  | releaseCursor cursor own homely =>
    subst own
    unfold Cursor.release
    split
    · show (cursor.close >>= fun _ => pure ()) world = _
      rw [bind_apply, Cursor.close_of_closed h homely]
      rfl
    · rfl
  | setSetting env own path value =>
    subst own
    cases value with
    | int v => exact ensureOpen_bind_of_closed h _
    | uint v => exact ensureOpen_bind_of_closed h _
    | str b => exact ensureOpen_bind_of_closed h _
  | settingText env own path =>
    subst own
    exact unlessClosed_of_closed h none _
  | settingNumber env own path =>
    subst own
    exact unlessClosed_of_closed h none _
  | diagnostic env own =>
    subst own
    exact unlessClosed_of_closed h none _
  | newDatabase env own name schema merge? =>
    subst own
    exact ensureOpen_bind_of_closed h _
  | openUp env own =>
    subst own
    exact ensureOpen_bind_of_closed h _
  | begin env own =>
    subst own
    exact ensureOpen_bind_of_closed h _
  | close env own =>
    subst own
    show env.close world = _
    unfold Environment.close
    rw [lift_bind_apply, isClosed_apply, h]
    rfl
  | release env own =>
    subst own
    unfold Environment.release
    rw [bind_apply, isClosed_apply, h]
    rfl

end Client
end RowStore
