/-
# Books of a session

What a session holds has the tokens of what is in its slots. Between commands the books balance with
these and the tokens of the declared databases; while a command is carried out it may have more in hand,
taken out of a slot or just made. A command settles if it ends with nothing in hand but what it answers
with. Commands that do one thing after the other settle if each settles from what the one before has left
in hand.

Key definitions: `Session.Holding.tokens`, `Session.tokens`, `Session.Accounts`, `Session.Settled`.
Key theorems: `Session.settled_attempt`, `Session.settled_drop`, `Session.Accounts.borrow`,
`Session.Accounts.replace`.
-/
import RowStore.Proofs.Client.Tenancy
import RowStore.Proofs.Data.Tables
import RowStore.Session.Step

namespace RowStore.Session

open Client
open World (Conserves)

/-- The tokens of what a slot holds. -/
def Holding.tokens : Holding → List Token
  | .environment _ => []
  | .database _ => []
  | .row held => [held.token]
  | .cursor held _ => held.tokens
  | .transaction held => held.tokens

/-- A database is a declared one, and the rows of a cursor are of its environment. -/
def Holding.Proper (declared : List Token) : Holding → Prop
  | .database held => held.token ∈ declared
  | .cursor held _ => held.Homely
  | _ => True

/-- The tokens of what slots hold. -/
def tokensOf (slots : Table Slot Holding) : List Token := slots.entries.flatMap fun e => e.2.tokens

/-- The tokens of what the session holds. -/
def tokens (session : Session) : List Token := tokensOf session.slots

/-- The books balance with the tokens that a command has in hand, those of the declared databases, and
those of what the session holds. -/
structure Accounts (session : Session) (declared hand : List Token) : Prop where
  world : session.world.Accounts (hand ++ (declared ++ session.tokens))
  proper : ∀ slot holding, session.slots.get? slot = some holding → holding.Proper declared

/-- A step ends with nothing in hand but what it answers with. -/
def Settled (declared : List Token) (tokensOf : α → List Token)
    (outcome : Except Trouble α × Session) : Prop :=
  outcome.2.Accounts declared (made tokensOf outcome.1)

variable {session : Session} {declared hand : List Token} {slot : Slot} {holding : Holding}

/-! ### Slots -/

theorem tokensOf_insert (slots : Table Slot Holding) (slot : Slot) (holding : Holding) :
    (tokensOf (slots.insert slot holding)).Perm (holding.tokens ++ tokensOf (slots.erase slot)) :=
  ((slots.perm_insert slot holding).flatMap_right _).trans (List.Perm.of_eq (List.flatMap_cons ..))

theorem tokensOf_of_get? {slots : Table Slot Holding} (hget : slots.get? slot = some holding) :
    (tokensOf slots).Perm (holding.tokens ++ tokensOf (slots.erase slot)) :=
  ((Table.perm_of_get? hget).flatMap_right _).trans (List.Perm.of_eq (List.flatMap_cons ..))

theorem erase_of_vacant {slots : Table Slot Holding} (hvacant : slots.get? slot = none) :
    slots.erase slot = slots :=
  Table.ext_get? fun k => by
    rw [Table.get?_erase]
    split
    · next heq => rw [heq, hvacant]
    · rfl

namespace Accounts

/-- What a slot holds, apart from what the others hold. -/
theorem borrow (hs : session.Accounts declared []) (hget : session.slots.get? slot = some holding) :
    session.world.Accounts
      (holding.tokens ++ (declared ++ tokensOf (session.slots.erase slot))) :=
  hs.world.perm (((tokensOf_of_get? hget).append_left declared).trans (List.perm_append_comm_assoc ..))

/-- Something is put where nothing is, or where something was taken from. -/
theorem replace (hs : session.Accounts declared hand) {world : World}
    (ha : world.Accounts
      (holding.tokens ++ (declared ++ tokensOf (session.slots.erase slot))))
    (hp : holding.Proper declared) :
    Accounts { world, slots := session.slots.insert slot holding } declared [] where
  world := ha.perm ((List.perm_append_comm_assoc ..).trans
    (((tokensOf_insert session.slots slot holding).append_left declared).symm))
  proper slot' holding' hget := by
    rw [Table.get?_insert] at hget
    split at hget
    · cases hget
      exact hp
    · exact hs.proper slot' holding' hget

/-- What is in hand is put where nothing is. -/
theorem hold (hs : session.Accounts declared holding.tokens) (hp : holding.Proper declared)
    (hvacant : session.slots.get? slot = none) :
    Accounts { session with slots := session.slots.insert slot holding } declared [] := by
  refine hs.replace ?_ hp
  rw [erase_of_vacant hvacant]
  exact hs.world

/-- What was in a slot is in hand. -/
theorem take (hs : session.Accounts declared []) (hget : session.slots.get? slot = some holding) :
    Accounts { session with slots := session.slots.erase slot } declared holding.tokens where
  world := hs.borrow hget
  proper slot' holding' hget' := by
    rw [Table.get?_erase] at hget'
    split at hget'
    · cases hget'
    · exact hs.proper slot' holding' hget'

/-- The slots stay as they are. -/
theorem after {hand' : List Token} (hs : session.Accounts declared hand) {world : World}
    (ha : world.Accounts (hand' ++ (declared ++ session.tokens))) :
    Accounts { session with world } declared hand' := ⟨ha, hs.proper⟩

/-- A database that is in hand becomes a declared one. -/
theorem declare {token : Token} (hs : session.Accounts declared [token]) :
    session.Accounts (token :: declared) [] where
  world := hs.world
  proper slot holding hget := by
    have hproper := hs.proper slot holding hget
    cases holding with
    | database db => exact List.mem_cons_of_mem _ hproper
    | cursor cursor schema => exact hproper
    | environment _ => trivial
    | row _ => trivial
    | transaction _ => trivial

end Accounts

/-! ### Steps -/

section Steps

variable {α β : Type} {tokensOf : α → List Token} {tokensOf' : β → List Token}

theorem Settled.bind {x : Step α} {f : α → Step β} (hx : Settled declared tokensOf (x session))
    (hf : ∀ a after, x session = (.ok a, after) → after.Accounts declared (tokensOf a) →
      Settled declared tokensOf' (f a after)) : Settled declared tokensOf' ((x >>= f) session) := by
  rw [attempt_bind_apply]
  rcases hresult : x session with ⟨trouble | a, after⟩
  · rw [hresult] at hx
    exact hx
  · rw [hresult] at hx
    exact hf a after hresult hx

/-- An operation of a client that neither makes, takes nor closes anything, and what follows it. -/
theorem settled_lift_along {x : Client α} {f : α → Step β} (hs : session.Accounts declared hand)
    (hx : Along Conserves x)
    (hf : ∀ a world, Accounts { session with world } declared hand →
      Settled declared tokensOf' (f a { session with world })) :
    Settled declared tokensOf' ((lift x >>= f) session) :=
  hf _ _ (hs.after (hs.world.along hx))

theorem lift_apply (x : Client α) (session : Session) :
    lift x session =
      (.ok (x session.world).1, { session with world := (x session.world).2 }) := rfl

theorem attempt_apply (x : Attempt α) (session : Session) :
    attempt x session = match x session.world with
      | (.ok a, world) => (.ok a, { session with world })
      | (.error failure, world) => (.error (.failure failure), { session with world }) := by
  unfold attempt ExceptT.run
  rw [attempt_bind_apply, lift_apply]
  rcases x session.world with ⟨failure | a, world⟩ <;> rfl

/-- An operation of a client that can fail. -/
theorem settled_attempt {x : Attempt α} (hs : session.Accounts declared hand)
    (hx : (x session.world).2.Accounts
      (made tokensOf (x session.world).1 ++ (declared ++ session.tokens))) :
    Settled declared tokensOf (attempt x session) := by
  rw [attempt_apply]
  rcases hresult : x session.world with ⟨failure | a, world⟩
  · rw [hresult] at hx
    exact hs.after hx
  · rw [hresult] at hx
    exact hs.after hx

/-- An operation of a client that can fail and gives up all that is in hand, and what follows it. -/
theorem settled_give {x : Attempt α} {f : α → Step β} (hs : session.Accounts declared hand)
    (hx : (x session.world).2.Accounts (declared ++ session.tokens))
    (hf : ∀ a world, Accounts { session with world } declared [] →
      Settled declared tokensOf' (f a { session with world })) :
    Settled declared tokensOf' ((attempt x >>= f) session) := by
  rw [attempt_bind_apply, attempt_apply]
  rcases hresult : x session.world with ⟨failure | a, world⟩
  · rw [hresult] at hx
    exact hs.after hx
  · rw [hresult] at hx
    exact hf a world (hs.after hx)

/-- An operation of a client that can fail and neither makes, takes nor closes anything. -/
theorem settled_attempt_along {x : Attempt α} {f : α → Step β}
    (hs : session.Accounts declared []) (hx : Along Conserves x.run)
    (hf : ∀ a world, Accounts { session with world } declared [] →
      Settled declared tokensOf' (f a { session with world })) :
    Settled declared tokensOf' ((attempt x >>= f) session) :=
  settled_give hs (hs.world.along_run hx) hf

theorem held?_apply (slot : Slot) (session : Session) :
    held? slot session = (.ok (session.slots.get? slot), session) := rfl

theorem look_apply (slot : Slot) (select : Holding → Option α) (session : Session) :
    look slot select session = match (session.slots.get? slot).bind select with
      | some a => (.ok a, session)
      | none => (.error (.noSlot slot), session) := by
  unfold look
  rw [attempt_bind_apply, held?_apply]
  dsimp only
  cases (session.slots.get? slot).bind select <;> rfl

/-- Looking at what a slot holds. -/
theorem settled_look {select : Holding → Option α} {f : α → Step β}
    (hs : session.Accounts declared [])
    (hf : ∀ holding a, session.slots.get? slot = some holding → select holding = some a →
      Settled declared tokensOf' (f a session)) :
    Settled declared tokensOf' ((look slot select >>= f) session) := by
  rw [attempt_bind_apply, look_apply]
  cases hfound : (session.slots.get? slot).bind select with
  | none => exact hs
  | some a =>
    obtain ⟨holding, hget, hselect⟩ := Option.bind_eq_some_iff.1 hfound
    exact hf holding a hget hselect

/-- Putting something into a slot that is empty. -/
theorem settled_hold {f : Unit → Step β} (hs : session.Accounts declared holding.tokens)
    (hp : holding.Proper declared) (hvacant : session.slots.get? slot = none)
    (hf : ∀ after : Session, after.Accounts declared [] → Settled declared tokensOf' (f () after)) :
    Settled declared tokensOf' ((hold slot holding >>= f) session) := hf _ (hs.hold hp hvacant)

/-- What a slot held is released. -/
theorem Holding.accounts_release {world : World} {rest : List Token}
    (ha : world.Accounts (holding.tokens ++ rest)) (hp : holding.Proper declared) :
    (holding.release world).2.Accounts rest := by
  cases holding with
  | environment held => exact Environment.accounts_release ha
  | database held => exact ha
  | row held => exact Row.accounts_release ha
  | cursor held schema => exact Cursor.accounts_release ⟨ha, hp⟩
  | transaction held => exact Transaction.accounts_release ha

/-- Dropping what a slot holds leaves it empty. -/
theorem drop_apply (hs : session.Accounts declared []) (slot : Slot) :
    ∃ dropped world, drop slot session =
        (.ok dropped, { world, slots := session.slots.erase slot }) ∧
      Accounts { world, slots := session.slots.erase slot } declared [] := by
  unfold drop
  rw [attempt_bind_apply, held?_apply]
  cases hget : session.slots.get? slot with
  | none =>
    rw [erase_of_vacant hget]
    exact ⟨false, session.world, rfl, hs⟩
  | some holding =>
    have htaken := hs.take hget
    exact ⟨true, _, rfl, htaken.after
      (Holding.accounts_release htaken.world (hs.proper slot holding hget))⟩

theorem settled_drop {f : Bool → Step β} (hs : session.Accounts declared [])
    (hf : ∀ dropped world, Accounts { world, slots := session.slots.erase slot } declared [] →
      Settled declared tokensOf' (f dropped { world, slots := session.slots.erase slot })) :
    Settled declared tokensOf' ((drop slot >>= f) session) := by
  obtain ⟨dropped, world, hdrop, hdropped⟩ := drop_apply hs slot
  rw [attempt_bind_apply, hdrop]
  exact hf dropped world hdropped

/-- What a slot holds is worked on and put back. -/
theorem settled_update {x : Client α} {now : α → Holding} {f : α → Step β}
    (hs : session.Accounts declared [])
    (hx : (x session.world).2.Accounts ((now (x session.world).1).tokens ++
      (declared ++ Session.tokensOf (session.slots.erase slot))))
    (hp : (now (x session.world).1).Proper declared)
    (hf : ∀ a after, Accounts after declared [] → Settled declared tokensOf' (f a after)) :
    Settled declared tokensOf' ((lift x >>= fun a => hold slot (now a) >>= fun _ => f a) session) :=
  hf _ _ (hs.replace hx hp)

/-- What an operation of a client makes is put into a slot that is empty. -/
theorem settled_make {x : Attempt α} (wrap : α → Holding) {answer : α → Answer} {into : Slot}
    (hs : session.Accounts declared hand) (hvacant : session.slots.get? into = none)
    (hx : (x session.world).2.Accounts
      (made (fun a => (wrap a).tokens) (x session.world).1 ++ (declared ++ session.tokens)))
    (hp : ∀ a world, x session.world = (.ok a, world) → (wrap a).Proper declared) :
    Settled declared (fun _ => []) ((do
      let a ← attempt x
      hold into (wrap a)
      return answer a : Step Answer) session) := by
  rw [attempt_bind_apply, attempt_apply]
  rcases hresult : x session.world with ⟨failure | a, world⟩
  · rw [hresult] at hx
    exact hs.after hx
  · rw [hresult] at hx
    exact settled_hold (hs.after hx) (hp a world hresult) hvacant fun after hafter => hafter

end Steps

end RowStore.Session
