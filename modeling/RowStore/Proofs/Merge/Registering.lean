/-
# Tokens of a registry

A registry in use is told by its calls and their answers. A function is live under a token if it was
registered as that token and no later call took it away. The tokens that a registry issues are counted
up, so none is issued twice, and a stale one finds no other function: the registry holds exactly what
is live, whatever was unregistered or cleared before. The count stays a machine word as long as fewer
than 2^64 functions are registered.

Key definitions: `Registry.step`, `RegistryRun`, `RegistryRun.Live`, `RegistryRun.Sound`.
Key theorems: `RegistryRun.live_step`, `RegistryRun.sound_after`, `RegistryRun.dispatches`.
-/
import Mathlib
import RowStore.Merge.Program
import RowStore.Proofs.Data.Tables

namespace RowStore

namespace Registry

/-- A call of a registry. -/
inductive Action where
  | register (f : MergeFn)
  | unregister (token : Nat)
  | clear
  | merge (token : Nat) (existing : Option Images) (incoming result : Images)

/-- What a call answers: a token, whether the token was known, nothing, or how the merge ends. -/
inductive Answer where
  | issued (token : Nat)
  | removed (known : Bool)
  | cleared
  | merged (reply : MergeReply)

/-- Carries out a call. -/
def step (registry : Registry) : Action → Answer × Registry
  | .register f =>
    let (token, registry) := registry.register f
    (.issued token, registry)
  | .unregister token => (.removed (registry.contains token), registry.unregister token)
  | .clear => (.cleared, registry.clear)
  | .merge token existing incoming result =>
    (.merged (registry.merge token existing incoming result), registry)

/-- Whether a call takes away the function behind a token. -/
def Action.Removes (token : Nat) : Action → Prop
  | .unregister token' => token' = token
  | .clear => True
  | .register _ => False
  | .merge .. => False

theorem merge_of_some {registry : Registry} {token : Nat} {f : MergeFn}
    (hf : registry.functions.get? token = some f) (existing : Option Images)
    (incoming result : Images) :
    registry.merge token existing incoming result = f.run existing incoming result := by
  simp only [merge, function, hf, Option.getD_some]

/-- A merge through a token without a function is rejected, and the images stay as they are. -/
theorem merge_of_none {registry : Registry} {token : Nat}
    (hf : registry.functions.get? token = none) (existing : Option Images)
    (incoming result : Images) :
    ∃ message, registry.merge token existing incoming result = ⟨result, some message, []⟩ := by
  simp only [merge, function, hf, Option.getD_none]
  exact ⟨_, rfl⟩

/-- The size is the number of tokens with a function. -/
theorem encard_tokens (registry : Registry) :
    {token | ∃ f, registry.functions.get? token = some f}.encard = registry.size := by
  have hkeys : {token | ∃ f, registry.functions.get? token = some f} =
      (registry.functions.keys.toFinset : Set Nat) := by
    ext token
    simp [Table.mem_keys]
  rw [hkeys, Set.encard_coe_eq_coe_finsetCard,
    List.toFinset_card_of_nodup registry.functions.nodup_keys]
  simp [Table.keys, size, Table.size]

end Registry

open Registry (Action Answer)

/-- A registry in use, and the calls that were made of it with their answers, the oldest first. -/
structure RegistryRun where
  registry : Registry := {}
  past : List (Action × Answer) := []

namespace RegistryRun

variable {run : RegistryRun} {action : Action} {token : Nat} {f : MergeFn}

/-- Makes a call. -/
def step (run : RegistryRun) (action : Action) : RegistryRun where
  registry := (run.registry.step action).2
  past := run.past ++ [(action, (run.registry.step action).1)]

/-- Calls made one after the other on a new registry. -/
def after (actions : List Action) : RegistryRun := actions.foldl step {}

/-- The token that a call was answered with. -/
def token? : Action × Answer → Option Nat
  | (_, .issued token) => some token
  | _ => none

/-- The tokens that were issued, in the order of the registrations. -/
def tokens (run : RegistryRun) : List Nat := run.past.filterMap token?

/-- The function was registered as the token, and no later call took it away. -/
def Live (run : RegistryRun) (token : Nat) (f : MergeFn) : Prop :=
  ∃ before later, run.past = before ++ (.register f, .issued token) :: later ∧
    ∀ call ∈ later, ¬call.1.Removes token

/-! ### One call -/

theorem answer_eq_issued {registry : Registry} (h : (registry.step action).1 = .issued token) :
    token = registry.issued + 1 := by
  cases action with
  | register f =>
    cases h
    rfl
  | unregister _ => cases h
  | clear => cases h
  | merge _ _ _ _ => cases h

/-- A function is live after a call if the call registered it, or if it was live and the call does not
take it away. -/
theorem live_step : (run.step action).Live token f ↔
    (action = .register f ∧ token = run.registry.issued + 1) ∨
      (run.Live token f ∧ ¬action.Removes token) := by
  constructor
  · rintro ⟨before, later, hpast, hlater⟩
    rcases List.eq_nil_or_concat later with rfl | ⟨later, call, rfl⟩
    · obtain ⟨-, hlast⟩ := List.append_inj' hpast rfl
      obtain ⟨rfl, hanswer⟩ := Prod.mk.inj (List.cons.inj hlast).1
      exact .inl ⟨rfl, answer_eq_issued hanswer⟩
    · rw [List.concat_eq_append, ← List.cons_append, ← List.append_assoc] at hpast
      obtain ⟨hbefore, hlast⟩ := List.append_inj' hpast rfl
      have hcall := (List.cons.inj hlast).1
      refine .inr ⟨⟨before, later, hbefore, fun call' hmem => hlater call' ?_⟩, ?_⟩
      · simp [hmem]
      · have hlast := hlater call (by simp)
        rw [← hcall] at hlast
        exact hlast
  · rintro (⟨rfl, rfl⟩ | ⟨⟨before, later, hpast, hlater⟩, hkeeps⟩)
    · exact ⟨run.past, [], rfl, by simp⟩
    · refine ⟨before, later ++ [(action, (run.registry.step action).1)], ?_, fun call hmem => ?_⟩
      · simp [step, hpast]
      · rcases List.mem_append.1 hmem with hmem | hmem
        · exact hlater call hmem
        · rw [List.mem_singleton.1 hmem]
          exact hkeeps

theorem mem_tokens_of_live (hlive : run.Live token f) : token ∈ run.tokens := by
  obtain ⟨before, later, hpast, -⟩ := hlive
  exact List.mem_filterMap.2 ⟨(.register f, .issued token), by simp [hpast], rfl⟩

theorem tokens_step : (run.step action).tokens =
    run.tokens ++ (token? (action, (run.registry.step action).1)).toList := by
  simp only [tokens, step, List.filterMap_append, List.filterMap_cons, List.filterMap_nil]
  cases token? (action, (run.registry.step action).1) <;> rfl

/-! ### Runs -/

/-- The registry holds what is live, and its tokens were counted up. -/
structure Sound (run : RegistryRun) : Prop where
  live : ∀ token f, run.registry.functions.get? token = some f ↔ run.Live token f
  tokens : run.tokens = List.range' 1 run.registry.issued

/-- A token that is still to come has no live function. -/
theorem Sound.not_live (hs : run.Sound) (hlt : run.registry.issued < token) : ¬run.Live token f := by
  intro hlive
  have hmem := mem_tokens_of_live hlive
  rw [hs.tokens, List.mem_range'_1] at hmem
  omega

theorem sound_start : Sound {} where
  live token f := by
    constructor
    · intro h
      cases h
    · rintro ⟨before, later, hpast, -⟩
      simp at hpast
  tokens := rfl

theorem Sound.step (hs : run.Sound) (action : Action) : (run.step action).Sound := by
  refine ⟨fun token f => ?_, ?_⟩
  · rw [live_step, ← hs.live]
    cases action with
    | register g =>
      show (run.registry.functions.insert _ g).get? token = some f ↔ _
      rw [Table.get?_insert]
      by_cases htoken : token = run.registry.issued + 1
      · subst htoken
        have hnone : run.registry.functions.get? (run.registry.issued + 1) ≠ some f := fun hf =>
          hs.not_live (Nat.lt_succ_self _) ((hs.live _ f).1 hf)
        simp [hnone, Action.Removes]
      · simp [htoken, Action.Removes]
    | unregister token' =>
      show (run.registry.functions.erase token').get? token = some f ↔ _
      rw [Table.get?_erase]
      by_cases htoken : token = token'
      · simp [htoken, Action.Removes]
      · have hkeeps : ¬token' = token := fun h => htoken h.symm
        simp [htoken, hkeeps, Action.Removes]
    | clear =>
      show ({} : Table Nat MergeFn).get? token = some f ↔ _
      have hnone : ({} : Table Nat MergeFn).get? token = none := rfl
      simp [hnone, Action.Removes]
    | merge _ _ _ _ => simp [RegistryRun.step, Registry.step, Action.Removes]
  · rw [tokens_step, hs.tokens]
    cases action with
    | register g =>
      show List.range' 1 run.registry.issued ++ [run.registry.issued + 1] =
        List.range' 1 (run.registry.issued + 1)
      rw [List.range'_1_concat, Nat.add_comm 1]
    | unregister _ => exact List.append_nil _
    | clear => exact List.append_nil _
    | merge _ _ _ _ => exact List.append_nil _

theorem sound_after (actions : List Action) : (after actions).Sound := by
  induction actions using List.reverseRecOn with
  | nil => exact sound_start
  | append_singleton actions action ih =>
    rw [after, List.foldl_append]
    exact ih.step action

/-- **A registry dispatches to the right function for ever.** After any calls, no token was issued
twice; a merge through a token runs the function that was registered as the token, if it is live, and
otherwise is rejected and leaves the images as they are; the token can be unregistered exactly if it is
live; and the size is the number of live tokens. -/
theorem dispatches (actions : List Action) :
    let run := after actions
    run.tokens.Nodup ∧ (∀ token ∈ run.tokens, 0 < token ∧ token ≤ run.tokens.length) ∧
      (∀ token f existing incoming result, run.Live token f →
        (run.registry.step (.merge token existing incoming result)).1 =
          .merged (f.run existing incoming result)) ∧
      (∀ token existing incoming result, (∀ f, ¬run.Live token f) → ∃ message,
        (run.registry.step (.merge token existing incoming result)).1 =
          .merged ⟨result, some message, []⟩) ∧
      (∀ token, ∃ known, (run.registry.step (.unregister token)).1 = .removed known ∧
        (known = true ↔ ∃ f, run.Live token f)) ∧
      {token | ∃ f, run.Live token f}.encard = run.registry.size := by
  intro run
  have hs : run.Sound := sound_after actions
  refine ⟨?_, fun token hmem => ?_, fun token f existing incoming result hlive => ?_,
    fun token existing incoming result hdead => ?_, fun token => ⟨_, rfl, ?_⟩, ?_⟩
  · rw [hs.tokens]
    exact List.nodup_range'
  · have hcount : run.tokens.length = run.registry.issued := by
      rw [hs.tokens, List.length_range']
    rw [hs.tokens, List.mem_range'_1] at hmem
    omega
  · have hget := (hs.live token f).2 hlive
    exact congrArg Answer.merged (Registry.merge_of_some hget existing incoming result)
  · have hget : run.registry.functions.get? token = none :=
      Option.eq_none_iff_forall_ne_some.2 fun f hf => hdead f ((hs.live token f).1 hf)
    obtain ⟨message, hmerge⟩ := Registry.merge_of_none hget existing incoming result
    exact ⟨message, congrArg Answer.merged hmerge⟩
  · simp only [Registry.contains, Table.contains, Option.isSome_iff_exists, hs.live]
  · simp only [← hs.live]
    exact run.registry.encard_tokens

/-- The calls that register a function, take it away, and register another. -/
def replacing : List Action :=
  [.register (.ofActs [.keep 0]), .unregister 1, .register (.ofActs [.double 0])]

/-- The token of the function that was taken away is not issued again, and stays without effect. -/
theorem replacing_dispatches :
    (after replacing).Live 2 (.ofActs [.double 0]) ∧ (∀ f, ¬(after replacing).Live 1 f) ∧
      ((after replacing).registry.step (.merge 2 none [[3]] [[3]])).1 =
        .merged ⟨[[6]], none, [⟨none, [[3]], [true], [[6]]⟩]⟩ ∧
      ∃ message, ((after replacing).registry.step (.merge 1 none [[3]] [[3]])).1 =
        .merged ⟨[[3]], some message, []⟩ := by
  have hlive : (after replacing).Live 2 (.ofActs [.double 0]) :=
    ⟨[(.register (.ofActs [.keep 0]), .issued 1), (.unregister 1, .removed true)], [], rfl, nofun⟩
  have hdead : ∀ f, ¬(after replacing).Live 1 f := fun f hf => by
    have hget := ((sound_after replacing).live 1 f).2 hf
    cases hget
  obtain ⟨-, -, hruns, hrejects, -, -⟩ := dispatches replacing
  exact ⟨hlive, hdead, hruns 2 _ none [[3]] [[3]] hlive, hrejects 1 none [[3]] [[3]] hdead⟩

end RegistryRun
end RowStore
