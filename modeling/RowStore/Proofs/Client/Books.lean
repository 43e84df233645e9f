/-
# Books of what clients hold

A token stands for an object of the engine that a client holds: its handle and its title. The books
balance if the live objects of the environments that are not closed are those environments and the
objects of the tokens, no two tokens are for one handle, and no handle was handed over twice to a call
that takes its object. Every move of a client keeps the books: an object that is made gets a token, one
that is taken gives up its token, and closing an environment leaves tokens that stand for nothing.

Key definitions: `Token`, `entrusted`, `World.consumed`, `Balanced`, `World.Accounts`,
`World.Conserves`.
Key theorems: `Balanced.take`, `Balanced.make`, `Balanced.create`, `Balanced.close`, `Balanced.owned_perm`,
`World.accounts_call`, `World.Accounts.gives`, `World.Accounts.gains`, `World.Accounts.exchanges`,
`World.Accounts.along`.
-/
import RowStore.Proofs.Client.Declaring
import RowStore.Proofs.Engine.Custody
import RowStore.Proofs.Engine.Failing

namespace RowStore

open Engine (Objects Title Kind)

/-- A handle and what it is the handle of. -/
abbrev Token := Handle × Title

/-- The handles of an environment among the tokens, and what they are the handles of. -/
def entrusted (e : Handle) (tokens : List Token) : List (Handle × Kind) :=
  tokens.filterMap fun token => if token.2.env = e then some (token.1, token.2.kind) else none

theorem mem_entrusted {e h : Handle} {kind : Kind} {tokens : List Token} :
    (h, kind) ∈ entrusted e tokens ↔ (h, ⟨kind, e⟩) ∈ tokens := by
  rw [entrusted, List.mem_filterMap]
  constructor
  · rintro ⟨⟨h', kind', e'⟩, hm, htoken⟩
    split at htoken
    · next heq =>
      cases htoken
      cases heq
      exact hm
    · cases htoken
  · exact fun hm => ⟨_, hm, if_pos rfl⟩

theorem nodup_entrusted (e : Handle) {tokens : List Token} (hn : (tokens.map Prod.fst).Nodup) :
    (entrusted e tokens).Nodup := by
  rw [List.Nodup, List.pairwise_map] at hn
  rw [List.Nodup, entrusted, List.pairwise_filterMap]
  refine hn.imp fun {token token'} hne pair hpair pair' hpair' heq => hne ?_
  have hfst : ∀ {token : Token} {pair : Handle × Kind},
      (if token.2.env = e then some (token.1, token.2.kind) else none) = some pair →
        pair.1 = token.1 := fun h => by
    split at h
    · cases h
      rfl
    · cases h
  rw [← hfst hpair, ← hfst hpair', heq]

/-- The handle that a call takes the object of, whether or not it succeeds. -/
def Engine.Action.consumed? : Engine.Action kind → Option Handle
  | .destroy h => some h
  | .commit tx => some tx
  | action => action.row?

/-- The handles that were handed over to calls that take their objects, the last one first. -/
def World.consumed (world : World) : List Handle :=
  world.calls.filterMap fun call => call.2.consumed?

theorem World.consumed_reach (world : World) {kind : Engine.AnswerKind}
    (action : Engine.Action kind) :
    (world.reach action).2.consumed = action.consumed?.toList ++ world.consumed := by
  show (⟨kind, action⟩ :: world.calls : List Engine.Call).filterMap _ = _
  rw [List.filterMap_cons]
  dsimp only
  cases action.consumed? <;> rfl

/-! ### Balanced books -/

/-- The books balance: what is live in open environments are these and the objects of the tokens, one
token for a handle, and every handle that was consumed was consumed once and is gone. -/
structure Balanced (isOpen : Handle → Prop) (issued : Nat) (titles : Handle → Option Title)
    (consumed : List Handle) (tokens : List Token) : Prop where
  live : ∀ h title, titles h = some title ↔
    isOpen title.env ∧ (title = ⟨.environment, h⟩ ∨ (h, title) ∈ tokens)
  within : ∀ h title, titles h = some title → h ≤ issued
  known : ∀ token ∈ tokens, token.1 ≤ issued ∧ token.2.env ≤ issued ∧ token.2.kind ≠ .environment
  nodup : (tokens.map Prod.fst).Nodup
  once : consumed.Nodup
  gone : ∀ h ∈ consumed, h ≤ issued ∧ titles h = none

namespace Balanced

variable {isOpen : Handle → Prop} {issued : Nat} {titles : Handle → Option Title}
  {consumed : List Handle} {tokens tokens' : List Token} {token : Token} {h e : Handle} {title : Title}

theorem perm (hb : Balanced isOpen issued titles consumed tokens) (hp : tokens.Perm tokens') :
    Balanced isOpen issued titles consumed tokens' where
  live h title := by rw [hb.live, hp.mem_iff]
  within := hb.within
  known token hm := hb.known token (hp.mem_iff.2 hm)
  nodup := (hp.map Prod.fst).nodup_iff.1 hb.nodup
  once := hb.once
  gone := hb.gone

/-- The title of what a token stands for. -/
theorem title_eq (hb : Balanced isOpen issued titles consumed tokens) (hm : token ∈ tokens)
    (hopen : isOpen token.2.env) : titles token.1 = some token.2 :=
  (hb.live token.1 token.2).2 ⟨hopen, .inr hm⟩

/-- An open environment is live. -/
theorem environment (hb : Balanced isOpen issued titles consumed tokens) (hopen : isOpen e) :
    titles e = some ⟨.environment, e⟩ :=
  (hb.live e ⟨.environment, e⟩).2 ⟨hopen, .inl rfl⟩

/-- A token of an environment that is closed stands for nothing. -/
theorem dead (hb : Balanced isOpen issued titles consumed (token :: tokens))
    (hclosed : ¬ isOpen token.2.env) : Balanced isOpen issued titles consumed tokens where
  live h title := by
    rw [hb.live, List.mem_cons]
    refine and_congr_right fun hopen => or_congr_right ⟨?_, .inr⟩
    rintro (rfl | hm)
    · exact absurd hopen hclosed
    · exact hm
  within := hb.within
  known token hm := hb.known token (List.mem_cons_of_mem _ hm)
  nodup := (List.nodup_cons.1 hb.nodup).2
  once := hb.once
  gone := hb.gone

/-- An object that is taken gives up its token. -/
theorem take (hb : Balanced isOpen issued titles consumed ((h, title) :: tokens))
    (hopen : isOpen title.env) :
    Balanced isOpen issued (Function.update titles h none) (h :: consumed) tokens := by
  have htitle : titles h = some title := hb.title_eq List.mem_cons_self hopen
  obtain ⟨hfirst, hnodup⟩ := List.nodup_cons.1 hb.nodup
  refine ⟨fun h' title' => ?_, fun h' title' htitle' => ?_,
    fun token hm => hb.known token (List.mem_cons_of_mem _ hm), hnodup, ?_, fun h' hm => ?_⟩
  · by_cases heq : h' = h
    · subst heq
      rw [Function.update_self]
      refine ⟨nofun, fun ⟨hopen', hheld⟩ => ?_⟩
      rcases hheld with rfl | hm
      · rw [hb.environment hopen', Option.some.injEq] at htitle
        exact absurd (htitle ▸ rfl) (hb.known _ List.mem_cons_self).2.2
      · exact absurd (List.mem_map_of_mem hm) hfirst
    · rw [Function.update_of_ne heq, hb.live, List.mem_cons, Prod.mk.injEq]
      simp only [heq, false_and, false_or]
  · by_cases heq : h' = h
    · rw [heq, Function.update_self] at htitle'
      cases htitle'
    · rw [Function.update_of_ne heq] at htitle'
      exact hb.within h' title' htitle'
  · refine List.nodup_cons.2 ⟨fun hm => ?_, hb.once⟩
    rw [(hb.gone h hm).2] at htitle
    cases htitle
  · rcases List.mem_cons.1 hm with rfl | hm
    · exact ⟨hb.within _ _ htitle, Function.update_self ..⟩
    · refine ⟨(hb.gone h' hm).1, ?_⟩
      by_cases heq : h' = h
      · rw [heq, Function.update_self]
      · rw [Function.update_of_ne heq, (hb.gone h' hm).2]

/-- The next handle is that of nothing yet. -/
theorem next_eq_none (hb : Balanced isOpen issued titles consumed tokens) :
    titles (issued + 1) = none := by
  cases hnext : titles (issued + 1) with
  | none => rfl
  | some title => exact absurd (hb.within _ _ hnext) (Nat.not_succ_le_self _)

/-- The next handle gets a title, if what is live in open environments is accounted for. -/
theorem issue (hb : Balanced isOpen issued titles consumed tokens) {isOpen' : Handle → Prop}
    (hlive : ∀ h' title', Function.update titles (issued + 1) (some title) h' = some title' ↔
      isOpen' title'.env ∧ (title' = ⟨.environment, h'⟩ ∨ (h', title') ∈ tokens'))
    (hknown : ∀ token ∈ tokens', token ∈ tokens ∨
      token.1 = issued + 1 ∧ token.2.env ≤ issued + 1 ∧ token.2.kind ≠ .environment)
    (hnodup : (tokens'.map Prod.fst).Nodup) :
    Balanced isOpen' (issued + 1) (Function.update titles (issued + 1) (some title)) consumed
      tokens' where
  live := hlive
  within h' title' htitle' := by
    by_cases heq : h' = issued + 1
    · exact heq.le
    · rw [Function.update_of_ne heq] at htitle'
      exact (hb.within h' title' htitle').trans (Nat.le_succ _)
  known token hm := by
    rcases hknown token hm with hm | ⟨hnew, hrest⟩
    · obtain ⟨hle, henv, hkind⟩ := hb.known token hm
      exact ⟨hle.trans (Nat.le_succ _), henv.trans (Nat.le_succ _), hkind⟩
    · exact ⟨hnew.le, hrest⟩
  nodup := hnodup
  once := hb.once
  gone h' hm := by
    obtain ⟨hle, hnone⟩ := hb.gone h' hm
    refine ⟨hle.trans (Nat.le_succ _), ?_⟩
    rw [Function.update_of_ne fun heq => Nat.not_succ_le_self _ (heq ▸ hle), hnone]

/-- An object that is made in an open environment gets a token. -/
theorem make (hb : Balanced isOpen issued titles consumed tokens) (hopen : isOpen e) {kind : Kind}
    (hkind : kind ≠ .environment) :
    Balanced isOpen (issued + 1) (Function.update titles (issued + 1) (some ⟨kind, e⟩)) consumed
      ((issued + 1, ⟨kind, e⟩) :: tokens) := by
  refine hb.issue (fun h' title' => ?_) (fun token hm => ?_) ?_
  · by_cases heq : h' = issued + 1
    · subst heq
      rw [Function.update_self, Option.some.injEq, List.mem_cons, Prod.mk.injEq]
      constructor
      · rintro rfl
        exact ⟨hopen, .inr (.inl ⟨rfl, rfl⟩)⟩
      · rintro ⟨hopen', rfl | ⟨-, rfl⟩ | hm⟩
        · cases hb.next_eq_none.symm.trans (hb.environment hopen')
        · rfl
        · exact absurd (hb.known _ hm).1 (Nat.not_succ_le_self _)
    · rw [Function.update_of_ne heq, hb.live, List.mem_cons, Prod.mk.injEq]
      simp only [heq, false_and, false_or]
  · rcases List.mem_cons.1 hm with rfl | hm
    · exact .inr ⟨rfl, (hb.within _ _ (hb.environment hopen)).trans (Nat.le_succ _), hkind⟩
    · exact .inl hm
  · refine List.nodup_cons.2 ⟨fun hm => ?_, hb.nodup⟩
    obtain ⟨token, hm, heq⟩ := List.mem_map.1 hm
    exact absurd (heq ▸ (hb.known token hm).1) (Nat.not_succ_le_self _)

/-- An environment that is created is open. -/
theorem create (hb : Balanced isOpen issued titles consumed tokens) {isOpen' : Handle → Prop}
    (hopen : ∀ e, isOpen' e ↔ e = issued + 1 ∨ isOpen e) :
    Balanced isOpen' (issued + 1)
      (Function.update titles (issued + 1) (some ⟨.environment, issued + 1⟩)) consumed tokens := by
  refine hb.issue (fun h' title' => ?_) (fun token hm => .inl hm) hb.nodup
  by_cases heq : h' = issued + 1
  · subst heq
    rw [Function.update_self, Option.some.injEq]
    constructor
    · rintro rfl
      exact ⟨(hopen _).2 (.inl rfl), .inl rfl⟩
    · rintro ⟨-, rfl | hm⟩
      · rfl
      · exact absurd (hb.known _ hm).1 (Nat.not_succ_le_self _)
  · rw [Function.update_of_ne heq, hb.live, hopen]
    refine ⟨fun ⟨ho, hheld⟩ => ⟨.inr ho, hheld⟩,
      fun ⟨ho, hheld⟩ => ⟨ho.resolve_left fun henv => ?_, hheld⟩⟩
    rcases hheld with rfl | hm
    · exact heq henv
    · exact absurd (henv ▸ (hb.known _ hm).2.1) (Nat.not_succ_le_self _)

/-- Closing an environment takes all that it owns. -/
theorem close (hb : Balanced isOpen issued titles consumed tokens) {isOpen' : Handle → Prop}
    (he : isOpen e) (hopen : ∀ e', isOpen' e' ↔ e' ≠ e ∧ isOpen e') :
    Balanced isOpen' issued (fun h => (titles h).filter (·.env != e)) (e :: consumed) tokens where
  live h' title' := by
    rw [Option.filter_eq_some_iff, hb.live, hopen, bne_iff_ne, and_right_comm, and_comm (b := _ ≠ e)]
  within h' title' htitle' := hb.within h' title' (Option.filter_eq_some_iff.1 htitle').1
  known := hb.known
  nodup := hb.nodup
  once := by
    refine List.nodup_cons.2 ⟨fun hm => ?_, hb.once⟩
    have hnone := (hb.gone e hm).2
    rw [hb.environment he] at hnone
    cases hnone
  gone h' hm := by
    rcases List.mem_cons.1 hm with rfl | hm
    · exact ⟨hb.within _ _ (hb.environment he), by rw [hb.environment he]; simp⟩
    · obtain ⟨hle, hnone⟩ := hb.gone h' hm
      refine ⟨hle, ?_⟩
      rw [hnone]
      rfl

/-- The objects of an open environment are the environment and those of its tokens. -/
theorem owned_perm {objects : Objects} (hb : Balanced isOpen issued objects.title? consumed tokens)
    (hopen : isOpen e) : (objects.owned e).Perm ((e, .environment) :: entrusted e tokens) := by
  refine (List.perm_ext_iff_of_nodup (objects.nodup_owned e) ?_).2 fun (h, kind) => ?_
  · refine List.nodup_cons.2 ⟨fun hm => ?_, nodup_entrusted e hb.nodup⟩
    exact (hb.known _ (mem_entrusted.1 hm)).2.2 rfl
  · rw [Objects.mem_owned, hb.live, List.mem_cons, mem_entrusted]
    refine ⟨fun ⟨_, hheld⟩ => hheld.imp_left fun htitle => ?_,
      fun hheld => ⟨hopen, hheld.imp_left fun hpair => ?_⟩⟩
    · cases htitle
      rfl
    · cases hpair
      rfl

/-- An environment that is not open owns nothing. -/
theorem owned_eq_nil {objects : Objects} (hb : Balanced isOpen issued objects.title? consumed tokens)
    (hclosed : ¬ isOpen e) : objects.owned e = [] := by
  refine List.eq_nil_iff_forall_not_mem.2 fun (h, kind) hm => ?_
  exact hclosed ((hb.live h ⟨kind, e⟩).1 (Objects.mem_owned.1 hm)).1

end Balanced

/-! ### The books of a world -/

namespace World

variable {world world' : World} {tokens tokens' : List Token}

/-- The books of a world balance with the tokens. -/
structure Accounts (world : World) (tokens : List Token) : Prop where
  reachable : world.Reachable
  faultFree : world.FaultFree
  homely : world.engine.objects.Homely
  balanced : Balanced (fun e => (world.link e).closed = false) world.engine.objects.issued
    world.engine.objects.title? world.consumed tokens

/-- A call that goes through, in the books. -/
theorem accounts_call (hr : world.Reachable) (hf : world.FaultFree)
    (hh : world.engine.objects.Homely) {kind : Engine.AnswerKind} (action : Engine.Action kind)
    {issued : Nat} {titles : Handle → Option Title}
    (ht : world.engine.objects.Retitles issued titles
      (world.engine.step world.mergeFunctions action).2.objects)
    (hb : Balanced (fun e => (world.link e).closed = false) issued titles
      (action.consumed?.toList ++ world.consumed) tokens) :
    (Client.call action world).2.Accounts tokens := by
  have hcall := Client.call_apply hf action
  refine ⟨hr.call action, (follows_call action world).faultFree hf, ?_, ?_⟩
  · rw [hcall]
    exact ht.homely hh
  · simp only [link_call]
    rw [hcall, Client.reach_engine, ht.issued, ht.titles, consumed_reach]
    exact hb

namespace Accounts

theorem call (ha : world.Accounts tokens) {kind : Engine.AnswerKind} (action : Engine.Action kind)
    {issued : Nat} {titles : Handle → Option Title}
    (ht : world.engine.objects.Retitles issued titles
      (world.engine.step world.mergeFunctions action).2.objects)
    (hb : Balanced (fun e => (world.link e).closed = false) issued titles
      (action.consumed?.toList ++ world.consumed) tokens') :
    (Client.call action world).2.Accounts tokens' :=
  accounts_call ha.reachable ha.faultFree ha.homely action ht hb

theorem perm (ha : world.Accounts tokens) (hp : tokens.Perm tokens') : world.Accounts tokens' :=
  ⟨ha.reachable, ha.faultFree, ha.homely, ha.balanced.perm hp⟩

theorem serves (ha : world.Accounts tokens) {e : Handle} (hopen : (world.link e).closed = false) :
    world.Serves e := ⟨ha.reachable, ha.faultFree, hopen⟩

/-- A token of an environment that is closed stands for nothing. -/
theorem dead {token : Token} (ha : world.Accounts (token :: tokens))
    (hclosed : (world.link token.2.env).closed = true) : world.Accounts tokens :=
  ⟨ha.reachable, ha.faultFree, ha.homely, ha.balanced.dead (by rw [hclosed]; simp)⟩

/-- Without environments there is nothing to account for. -/
theorem start : World.Accounts {} [] where
  reachable := .start
  faultFree := rfl
  homely := nofun
  balanced :=
    { live := fun _ _ => ⟨nofun, fun ⟨hopen, _⟩ => nomatch hopen⟩
      within := nofun
      known := nofun
      nodup := .nil
      once := .nil
      gone := nofun }

/-- A call that takes an object takes its token. -/
theorem gives {h : Handle} {title : Title} (ha : world.Accounts ((h, title) :: tokens))
    (hopen : (world.link title.env).closed = false) {kind : Engine.AnswerKind}
    {action : Engine.Action kind} (hconsumed : action.consumed? = some h)
    (hr : world.engine.objects.Retitles world.engine.objects.issued
      (Function.update world.engine.objects.title? h none)
      (world.engine.step world.mergeFunctions action).2.objects) :
    (Client.call action world).2.Accounts tokens :=
  ha.call action hr (hconsumed ▸ ha.balanced.take hopen)

/-- A call that makes an object makes a token. -/
theorem gains (ha : world.Accounts tokens) {e : Handle} (hopen : (world.link e).closed = false)
    {k : Kind} (hk : k ≠ .environment) {kind : Engine.AnswerKind}
    {action : Engine.Action kind} (hconsumed : action.consumed? = none)
    (hr : world.engine.objects.Retitles (world.engine.objects.issued + 1)
      (Function.update world.engine.objects.title? (world.engine.objects.issued + 1)
        (some ⟨k, e⟩)) (world.engine.step world.mergeFunctions action).2.objects) :
    (Client.call action world).2.Accounts
      ((world.engine.objects.issued + 1, ⟨k, e⟩) :: tokens) :=
  ha.call action hr (hconsumed ▸ ha.balanced.make hopen hk)

/-- A call that takes a row takes its token; the row that it hands out, if it does, has one. -/
theorem exchanges {row e : Handle} (ha : world.Accounts ((row, ⟨.row, e⟩) :: tokens))
    (hopen : (world.link e).closed = false) {action : Engine.Action .handle}
    (hconsumed : action.consumed? = some row)
    (hx : world.engine.objects.Exchanges row e (world.engine.step world.mergeFunctions action).1
      (world.engine.step world.mergeFunctions action).2.objects) :
    (Client.call action world).2.Accounts
      ((Client.call action world).1.toList.map (fun found => (found, ⟨.row, e⟩)) ++ tokens) := by
  have htake := ha.balanced.take hopen
  have hanswer : (Client.call action world).1 =
      (world.engine.step world.mergeFunctions action).1 := by
    rw [Client.call_apply ha.faultFree, Client.reach_fst]
  rw [hanswer]
  cases hfound : (world.engine.step world.mergeFunctions action).1 with
  | none =>
    rw [hfound] at hx
    exact ha.call action hx (hconsumed ▸ htake)
  | some found =>
    rw [hfound] at hx
    obtain ⟨rfl, hx⟩ := hx
    exact ha.call action hx (hconsumed ▸ htake.make hopen nofun)

end Accounts

/-! ### Moves that leave the books alone -/

/-- The world after operations that neither make, take nor close anything. -/
structure Conserves (world world' : World) : Prop where
  continues : world.Continues world'
  objects : world.engine.objects.Retitles world.engine.objects.issued world.engine.objects.title?
    world'.engine.objects
  consumed : world'.consumed = world.consumed

theorem Conserves.refl (world : World) : world.Conserves world :=
  ⟨.refl world, .refl _, rfl⟩

theorem Conserves.trans {world'' : World} (h : world.Conserves world') (h' : world'.Conserves world'') :
    world.Conserves world'' where
  continues := h.continues.trans h'.continues
  objects := by
    have hnext := h'.objects
    rw [h.objects.issued, h.objects.titles] at hnext
    exact h.objects.trans hnext
  consumed := h'.consumed.trans h.consumed

/-- What a link holds is no matter of the books. -/
theorem Conserves.of_engine (hc : world.Continues world') (he : world'.engine = world.engine)
    (hcalls : world'.calls = world.calls) : world.Conserves world' where
  continues := hc
  objects := by
    rw [he]
    exact .refl _
  consumed := congrArg (fun calls => calls.filterMap fun call => call.2.consumed?) hcalls

theorem consumed_of_isQuiet {kind : Engine.AnswerKind} {action : Engine.Action kind}
    (hquiet : action.IsQuiet) : action.consumed? = none := by
  cases action with
  | setBytes => rfl
  | setWord => rfl
  | getBytes => rfl
  | getWord => rfl
  | resolve => rfl
  | installHook => rfl
  | openEnvironment => rfl
  | _ => exact hquiet.elim

theorem conserves_quiet {kind : Engine.AnswerKind} {action : Engine.Action kind}
    (hquiet : action.IsQuiet) (world : World) : world.Conserves (Client.call action world).2 where
  continues := (follows_call action world).continues
  objects := by
    unfold Client.call
    split
    · exact Engine.retitles_quiet _ hquiet
    · exact Engine.retitles_quiet _ hquiet
    · exact .refl _
  consumed := by
    have hreach : ∀ world : World, (world.reach action).2.consumed = world.consumed := fun world => by
      rw [consumed_reach, consumed_of_isQuiet hquiet]
      rfl
    unfold Client.call
    split
    · exact hreach _
    · exact hreach _
    · rfl

instance : Mild Conserves where
  refl := .refl
  trans := .trans
  acquireName env key world :=
    .of_engine (Client.tame_acquireName env key world).continues rfl rfl
  releaseName env key world :=
    .of_engine (Follows.continues (Mild.releaseName env key world)) rfl rfl
  quiet := conserves_quiet

theorem Accounts.conserves (ha : world.Accounts tokens) (hc : world.Conserves world') :
    world'.Accounts tokens where
  reachable := hc.continues.reachable ha.reachable
  faultFree := hc.continues.faultFree ha.faultFree
  homely := hc.objects.homely ha.homely
  balanced := by
    simp only [hc.continues.closed, hc.objects.issued, hc.objects.titles, hc.consumed]
    exact ha.balanced

/-- An operation that neither makes, takes nor closes anything leaves the books alone. -/
theorem Accounts.along {α : Type} {x : Client α} (ha : world.Accounts tokens)
    (hx : Client.Along Conserves x) : (x world).2.Accounts tokens := ha.conserves (hx world)

theorem Accounts.along_run {α : Type} {x : Attempt α} (ha : world.Accounts tokens)
    (hx : Client.Along Conserves x.run) : (x world).2.Accounts tokens := ha.conserves (hx world)

end World
end RowStore
