/-
# When nothing is found

A lookup says that nothing was found exactly if it got as far as looking: the environment is not closed
and is opened on the engine, the store is not finished, the row belongs to it, every key field of the row
is set, and a reader of the store sees no record under the key. Whatever else stops a lookup is refused by
the engine, and the refusal has a text of its own.

Key definitions: `Engine.Row.Sets`, `Client.Store.Takes`, `Client.Store.seen?`, `Client.Store.Misses`.
Key theorems: `Engine.Database.exists_keyOf_iff`, `Engine.Objects.lookupRow_eq_none_iff`,
`Client.Store.lookup_eq_notFound_iff`.
-/
import RowStore.Proofs.Client.Custody
import RowStore.Proofs.Engine.Points

namespace RowStore

/-- Each has a counterpart if all of them have them together. -/
theorem exists_forall₂_iff {α β : Type} {R : α → β → Prop} :
    ∀ {l : List α}, (∃ l', List.Forall₂ R l l') ↔ ∀ a ∈ l, ∃ b, R a b
  | [] => ⟨fun _ => List.forall_mem_nil _, fun _ => ⟨[], .nil⟩⟩
  | a :: l => by
    rw [List.forall_mem_cons, ← exists_forall₂_iff (l := l)]
    constructor
    · rintro ⟨_, hl⟩
      cases hl with
      | cons hb hl => exact ⟨⟨_, hb⟩, _, hl⟩
    · rintro ⟨⟨_, hb⟩, _, hl⟩
      exact ⟨_, .cons hb hl⟩

namespace Engine

variable {objects objects' : Objects} {h : Handle} {db : Database} {r : Row}

/-! ### Keys -/

/-- The row has a cell for the field, of a kind that a key can have for it. -/
def Row.Sets (r : Row) (field : Field) : Prop :=
  ∃ part, (r.cells.get? field.name).bind (KeyPart.ofCell? field.type) = some part

/-- A cell that fits is of such a kind. -/
theorem Row.Fits.sets_iff {fields : List Field} (hfits : r.Fits fields) {field : Field}
    (hm : field ∈ fields) : r.Sets field ↔ (r.cells.get? field.name).isSome = true := by
  unfold Row.Sets
  cases hcell : r.cells.get? field.name with
  | none => simp
  | some cell =>
    have hfit := hfits field hm cell hcell
    obtain ⟨name, ⟨width, reversed⟩ | _, isKey⟩ := field
    · cases cell with
      | word w => cases reversed <;> simp [KeyPart.ofCell?]
      | bytes b => cases hfit
    · cases cell with
      | word w => cases hfit.1
      | bytes b => simp [KeyPart.ofCell?]

/-- A row has a key if its key fields are set. -/
theorem Database.exists_keyOf_iff :
    (∃ key, db.keyOf r = .ok key) ↔ ∀ field ∈ db.keyFields, r.Sets field := by
  simp only [Database.keyOf_eq_ok_iff]
  exact exists_forall₂_iff

/-! ### Lookups that get as far as looking -/

namespace Objects

theorem lookupRow_eq_none_iff : objects.lookupRow h r = .ok (none, objects') ↔
    objects' = objects ∧ ∃ target, objects.target h r = .ok target ∧
      ∃ db, objects.table.get? r.db = some (.database db) ∧ ∃ key, db.keyOf r = .ok key ∧
        objects.visible target r.db key = .ok none := by
  constructor
  · intro hlookup
    obtain ⟨target, htarget, hlookup⟩ := bind_eq_ok.1 hlookup
    obtain ⟨db, hdb, hlookup⟩ := bind_eq_ok.1 hlookup
    obtain ⟨key, hkey, hlookup⟩ := bind_eq_ok.1 hlookup
    obtain ⟨_ | record, hvisible, hlookup⟩ := bind_eq_ok.1 hlookup
    · cases hlookup
      exact ⟨rfl, target, htarget, db, database_eq_ok.1 hdb, key, hkey, hvisible⟩
    · cases hlookup
  · rintro ⟨rfl, target, htarget, db, hdb, key, hkey, hvisible⟩
    rw [lookupRow_eq htarget hdb, hkey]
    show (objects'.visible target r.db key >>= _) = _
    rw [hvisible]
    rfl

end Objects

/-- A lookup answers nothing and says nothing if it got as far as looking. -/
theorem lookup_silent_iff {engine : Engine} {row : Handle}
    (hrow : engine.objects.table.get? row = some (.row r)) (store : Handle) :
    ((engine.lookup store row).1 = none ∧ (engine.lookup store row).2.diagnostic? = none) ↔
      ∃ objects, (engine.objects.remove row).lookupRow store r = .ok (none, objects) := by
  rw [lookup_eq hrow]
  rcases (engine.objects.remove row).lookupRow store r with refusal | ⟨_ | found, objects⟩ <;> simp

end Engine

namespace Client.Store

open Engine (Objects)

variable {world : World} {store : Store} {key : Row} {rest : List Token}

/-- A store takes the rows of the database with this handle: a database its own, a transaction all. -/
def Takes (store : Store) (d : Handle) : Prop := ∀ db, store = .database db → db.handle = d

/-- The record that a reader of a store sees, given the one that is there: a transaction may have put
another in its place or deleted it. -/
def seen? (store : Store) (objects : Objects) (place : Engine.Place)
    (record? : Option Record) : Option Record :=
  match store with
  | .database _ => record?
  | .transaction tx =>
    match objects.table.get? tx.handle with
    | some (.transaction held) => (held.writes.get? place).getD record?
    | _ => record?

/-- A lookup under the key of a row gets as far as looking, and there is no record to see. -/
structure Misses (store : Store) (key : Row) (world : World) : Prop where
  isOpen : (world.link store.env).closed = false
  unfinished : store.isFinished = false
  opened : ∃ env, world.engine.objects.table.get? store.env = some (.environment env) ∧
    env.opened = true
  vacant : ∃ (r : Engine.Row) (db : Engine.Database),
    world.engine.objects.table.get? key.handle = some (.row r) ∧
      world.engine.objects.table.get? r.db = some (.database db) ∧ store.Takes r.db ∧
      (∀ field ∈ db.keyFields, r.Sets field) ∧
      ∀ k, db.keyOf r = .ok k →
        store.seen? world.engine.objects ⟨r.db, k⟩ (db.records.get? k) = none

/-- The store is live, as what it is. -/
def Live (objects : Objects) : Store → Prop
  | .database db => ∃ own, objects.table.get? db.handle = some (.database own)
  | .transaction tx => ∃ held, objects.table.get? tx.handle = some (.transaction held)

/-- Where a row goes on the engine. -/
def target : Store → Engine.Store
  | .database db => .database db.handle
  | .transaction tx => .transaction tx.handle

/-- A store that takes rows, of an environment that is not closed, is live. -/
theorem live_of_not_isShut (ha : world.Accounts rest) (hstore : store.tokens ⊆ rest)
    (hshut : ¬ store.IsShut world) : store.Live world.engine.objects := by
  obtain ⟨hunfinished, hopen⟩ := not_isShut hshut
  cases store with
  | database db =>
    have hheld : db.token ∈ rest := hstore List.mem_cons_self
    obtain ⟨own, hget, -⟩ := Objects.title?_eq_database.1 (ha.balanced.title_eq hheld hopen)
    exact ⟨own, hget⟩
  | transaction tx =>
    rw [tokens, Transaction.tokens_of_unfinished hunfinished] at hstore
    obtain ⟨held, hget, -⟩ := Objects.title?_eq_transaction.1
      (ha.balanced.title_eq (hstore List.mem_cons_self) hopen)
    exact ⟨held, hget⟩

section Live

variable {objects : Objects} {r : Engine.Row} {db : Engine.Database} {row : Handle}

/-- What is not a row stays when a row is taken. -/
theorem get?_remove_iff (hrow : objects.table.get? row = some (.row r)) {h : Handle}
    {object : Engine.Object} (hkind : object.kind ≠ .row) :
    (objects.remove row).table.get? h = some object ↔ objects.table.get? h = some object := by
  rw [Objects.get?_remove]
  split
  · next heq =>
    subst heq
    refine iff_of_false (by rintro ⟨⟩) fun hget => ?_
    rw [hrow] at hget
    cases hget
    exact hkind rfl
  · rfl

theorem Live.remove (hlive : store.Live objects) (hrow : objects.table.get? row = some (.row r)) :
    store.Live (objects.remove row) := by
  cases store with
  | database own => exact hlive.imp fun _ => (get?_remove_iff hrow (by nofun)).2
  | transaction tx => exact hlive.imp fun _ => (get?_remove_iff hrow (by nofun)).2

theorem seen?_remove (hlive : store.Live objects) (hrow : objects.table.get? row = some (.row r))
    (place : Engine.Place) (record? : Option Record) :
    store.seen? (objects.remove row) place record? = store.seen? objects place record? := by
  cases store with
  | database own => rfl
  | transaction tx =>
    obtain ⟨held, hget⟩ := hlive
    unfold seen?
    dsimp only
    rw [hget, (get?_remove_iff hrow (by nofun)).2 hget]

end Live

section Live

variable {objects : Engine.Objects} {r : Engine.Row} {db : Engine.Database}

/-- A row goes to a live store if the environment is opened and the store takes the row. -/
theorem target_eq_ok_iff (hlive : store.Live objects)
    (hdb : objects.table.get? r.db = some (.database db)) {target : Engine.Store} :
    objects.target store.handle r = .ok target ↔
      objects.ensureOpened db.env = .ok () ∧ store.Takes r.db ∧ target = store.target := by
  cases hopened : objects.ensureOpened db.env with
  | error refusal =>
    refine iff_of_false (fun htarget => ?_) fun h => nomatch h.1
    unfold Objects.target at htarget
    rw [Objects.database_eq_ok.2 hdb] at htarget
    change (objects.ensureOpened db.env >>= fun _ => _) = _ at htarget
    rw [hopened] at htarget
    cases htarget
  | ok _ =>
    cases store with
    | database own =>
      obtain ⟨live, hlive⟩ := hlive
      show objects.target own.handle r = _ ↔ _
      rw [Objects.target_database hdb hopened hlive]
      split
      · next heq =>
        have htakes : Takes (.database own) r.db := fun db' hsame => by
          cases hsame
          exact heq
        constructor
        · rintro ⟨⟩
          exact ⟨rfl, htakes, rfl⟩
        · rintro ⟨-, -, rfl⟩
          rfl
      · next hne => exact iff_of_false (by rintro ⟨⟩) fun h => hne (h.2.1 own rfl)
    | transaction tx =>
      obtain ⟨held, hlive⟩ := hlive
      show objects.target tx.handle r = _ ↔ _
      rw [Objects.target_transaction hdb hopened hlive]
      constructor
      · rintro ⟨⟩
        exact ⟨rfl, by rintro _ ⟨⟩, rfl⟩
      · rintro ⟨-, -, rfl⟩
        rfl

/-- A reader of a live store sees what is there, or what the transaction did to it. -/
theorem visible_eq (hlive : store.Live objects)
    (hdb : objects.table.get? r.db = some (.database db)) (k : Key) :
    objects.visible store.target r.db k =
      .ok (store.seen? objects ⟨r.db, k⟩ (db.records.get? k)) := by
  cases store with
  | database own => exact Objects.visible_database hdb k
  | transaction tx =>
    obtain ⟨held, hlive⟩ := hlive
    unfold seen?
    dsimp only
    rw [hlive]
    exact Objects.visible_transaction hdb hlive k

end Live

/-- A store that takes no rows says so. -/
theorem lookup_of_isShut (hshut : store.IsShut world) (key : Row) :
    (store.lookup key world).1 ≠ .error .notFound := by
  have haccept : ∃ failure, failure ≠ .notFound ∧
      store.accept key world = (.error failure, (key.release world).2) := by
    by_cases hfinished : store.isFinished = true
    · exact ⟨_, by rintro ⟨⟩, accept_of_finished hfinished key⟩
    · exact ⟨_, by rintro ⟨⟩, accept_of_closed (Bool.eq_false_iff.2 hfinished)
        (hshut.resolve_left hfinished) key⟩
  obtain ⟨failure, hfailure, haccept⟩ := haccept
  unfold lookup
  rw [attempt_bind_apply, haccept]
  rintro ⟨⟩
  exact hfailure rfl

/-- Nothing is found if the call answers nothing and says nothing. -/
theorem lookup_eq_notFound_iff_silent (hs : world.Serves store.env)
    (hopen : store.isFinished = false) : (store.lookup key world).1 = .error .notFound ↔
      (world.engine.lookup store.handle key.handle).1 = none ∧
        (world.engine.lookup store.handle key.handle).2.diagnostic? = none := by
  rw [(lookup_of_open hs hopen key).1]
  rcases world.engine.lookup store.handle key.handle with ⟨_ | found, engine⟩
  · cases hdiagnostic : engine.diagnostic? <;> simp [hdiagnostic]
  · simp

/-- Nothing is found exactly if the lookup gets as far as looking, and there is no record to see. -/
theorem lookup_eq_notFound_iff (ha : world.Accounts (key.token :: rest))
    (hstore : store.tokens ⊆ rest) (henv : key.env = store.env) :
    (store.lookup key world).1 = .error .notFound ↔ store.Misses key world := by
  by_cases hshut : store.IsShut world
  · refine iff_of_false (lookup_of_isShut hshut key) fun hm => ?_
    rcases hshut with hfinished | hclosed
    · rw [hm.unfinished] at hfinished
      cases hfinished
    · rw [hm.isOpen] at hclosed
      cases hclosed
  obtain ⟨hunfinished, hopen⟩ := not_isShut hshut
  have hlink : (world.link key.env).closed = false := by rw [henv, hopen]
  have hheld : key.token ∈ key.token :: rest := List.mem_cons_self
  have hkey : world.engine.objects.title? key.handle = some ⟨.row, key.env⟩ :=
    ha.balanced.title_eq hheld hlink
  obtain ⟨r, hrow, htitle⟩ := Objects.title?_eq_row.1 hkey
  obtain ⟨db, hdb, hdbenv⟩ := Objects.title?_eq_database.1 htitle
  have hlive := live_of_not_isShut ha (List.subset_cons_of_subset _ hstore) hshut
  have hrest := hlive.remove hrow
  have hdb' := (get?_remove_iff hrow (by nofun)).2 hdb
  rw [lookup_eq_notFound_iff_silent (ha.serves hopen) hunfinished, Engine.lookup_silent_iff hrow]
  simp only [Objects.lookupRow_eq_none_iff, target_eq_ok_iff hrest hdb',
    Objects.ensureOpened_eq_ok, hdbenv, henv]
  constructor
  · rintro ⟨_, rfl, _, ⟨⟨env, henvironment, hopened⟩, htakes, rfl⟩, own, hown, k, hk, hvisible⟩
    rw [hdb'] at hown
    cases hown
    rw [visible_eq hrest hdb', seen?_remove hlive hrow] at hvisible
    refine ⟨hopen, hunfinished, ⟨env, (get?_remove_iff hrow (by nofun)).1 henvironment, hopened⟩,
      r, db, hrow, hdb, htakes, Engine.Database.exists_keyOf_iff.1 ⟨k, hk⟩, fun k' hk' => ?_⟩
    rw [hk] at hk'
    cases hk'
    exact Except.ok.inj hvisible
  · rintro ⟨-, -, ⟨env, henvironment, hopened⟩, r', own, hrow', hown, htakes, hset, hvacant⟩
    rw [hrow] at hrow'
    cases hrow'
    rw [hdb] at hown
    cases hown
    obtain ⟨k, hk⟩ := Engine.Database.exists_keyOf_iff.2 hset
    refine ⟨_, rfl, _, ⟨⟨env, (get?_remove_iff hrow (by nofun)).2 henvironment, hopened⟩, htakes,
      rfl⟩, db, hdb', k, hk, ?_⟩
    rw [visible_eq hrest hdb', seen?_remove hlive hrow, hvacant k hk]

end Client.Store
end RowStore
