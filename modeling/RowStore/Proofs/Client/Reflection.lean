/-
# What the engine has for a ledger

The objects of an engine reflect a ledger if every database of the catalog has the records of the
base, every row in the hand of the program is there as the ledger has it, and so is every
transaction that is not finished, with the overlay for its writes. No two rows in the hand have one
handle, nor have two transactions, so what is done to one is not seen in another. Each change of the
object table is a change of the ledger.

Key definitions: `Client.Slots.Matching`, `Client.Reflects`, `Client.Reflects.SameBut`.
Key theorems: `Client.Reflects.addRow`, `Client.Reflects.setRow`, `Client.Reflects.removeRow`,
`Client.Reflects.addTx`, `Client.Reflects.finishTx`, `Client.Reflects.removeTx`,
`Client.Reflects.writeThrough`, `Client.Reflects.writePending`.
-/
import RowStore.Proofs.Client.Ledger
import RowStore.Proofs.Engine.Points

namespace RowStore.Client

open Engine (Place Objects)

/-! ### Numbered things, related -/

namespace Slots

variable {α β : Type} {R R' : α → β → Prop} {s : Slots α} {t : Slots β} {a : α} {b : β} {i : Nat}

/-- As many things came, and those that are there are related. -/
structure Matching (R : α → β → Prop) (s : Slots α) (t : Slots β) : Prop where
  made : s.made = t.made
  held : ∀ i, Option.Rel R (s.get? i) (t.get? i)

/-- Under a number there is nothing on either side, or there are related things. -/
theorem Matching.elim (h : Matching R s t) (i : Nat) :
    (s.get? i = none ∧ t.get? i = none) ∨
      ∃ a b, s.get? i = some a ∧ t.get? i = some b ∧ R a b := by
  have hrel := h.held i
  revert hrel
  generalize s.get? i = a?, t.get? i = b?
  rintro (hab | _)
  · exact Or.inr ⟨_, _, rfl, rfl, hab⟩
  · exact Or.inl ⟨rfl, rfl⟩

theorem Matching.of_some (h : Matching R s t) (hget : s.get? i = some a) :
    ∃ b, t.get? i = some b ∧ R a b := by
  rcases h.elim i with ⟨hnone, -⟩ | ⟨a', b, hsome, ht, hab⟩
  · rw [hget] at hnone
    simp at hnone
  · rw [hget] at hsome
    cases hsome
    exact ⟨b, ht, hab⟩

theorem Matching.rel (h : Matching R s t) {j : Nat}
    (hkeep : ∀ a b, s.get? j = some a → R a b → R' a b) :
    Option.Rel R' (s.get? j) (t.get? j) := by
  rcases h.elim j with ⟨hs, ht⟩ | ⟨a, b, hs, ht, hab⟩
  · rw [hs, ht]
    exact .none
  · rw [hs, ht]
    exact .some (hkeep a b hs hab)

theorem Matching.mono (h : Matching R s t) (hkeep : ∀ i a b, s.get? i = some a → R a b → R' a b) :
    Matching R' s t where
  made := h.made
  held i := h.rel (hkeep i)

theorem Matching.add (h : Matching R s t) (hkeep : ∀ i a b, s.get? i = some a → R a b → R' a b)
    (hab : R' a b) : Matching R' (s.add a) (t.add b) where
  made := congrArg (· + 1) h.made
  held i := by
    rw [get?_add, get?_add, h.made]
    split
    · exact .some hab
    · exact h.rel (hkeep i)

theorem Matching.put (h : Matching R s t)
    (hkeep : ∀ j a b, j ≠ i → s.get? j = some a → R a b → R' a b) (hab : R' a b) :
    Matching R' (s.put i a) (t.put i b) where
  made := h.made
  held j := by
    rw [get?_put, get?_put]
    by_cases hj : j = i
    · rw [if_pos hj, if_pos hj]
      exact .some hab
    · rw [if_neg hj, if_neg hj]
      exact h.rel fun a b => hkeep j a b hj

theorem Matching.remove (h : Matching R s t)
    (hkeep : ∀ j a b, j ≠ i → s.get? j = some a → R a b → R' a b) :
    Matching R' (s.remove i) (t.remove i) where
  made := h.made
  held j := by
    rw [get?_remove, get?_remove]
    by_cases hj : j = i
    · rw [if_pos hj, if_pos hj]
      exact .none
    · rw [if_neg hj, if_neg hj]
      exact h.rel fun a b => hkeep j a b hj

/-- Replacing a thing by itself changes nothing. -/
theorem get?_put_self (hget : s.get? i = some a) (j : Nat) :
    (s.put i a).get? j = s.get? j := by
  rw [Slots.get?_put]
  split
  · next hj => rw [hj, hget]
  · rfl

/-- Things are matched with others than before. -/
theorem Matching.rematch (h : Matching R s t) (hget : s.get? i = some a)
    (hkeep : ∀ j a b, j ≠ i → s.get? j = some a → R a b → R' a b) (hab : R' a b) :
    Matching R' s (t.put i b) where
  made := h.made
  held j := by
    rw [← get?_put_self hget j]
    exact (h.put hkeep hab).held j

/-- No two things have one handle. -/
def Apart (handle? : α → Option Handle) (s : Slots α) : Prop :=
  ∀ i j a b h, s.get? i = some a → s.get? j = some b → handle? a = some h → handle? b = some h →
    i = j

variable {handle? : α → Option Handle} {a' : α}

theorem Apart.add (hs : s.Apart handle?)
    (hfresh : ∀ i b h, s.get? i = some b → handle? b = some h → handle? a ≠ some h) :
    (s.add a).Apart handle? := by
  intro i j b c h hi hj hb hc
  rw [get?_add] at hi hj
  split at hi
  · next hnew =>
    cases hi
    split at hj
    · next hnew' => exact hnew.trans hnew'.symm
    · exact absurd hb (hfresh j c h hj hc)
  · split at hj
    · cases hj
      exact absurd hc (hfresh i b h hi hb)
    · exact hs i j b c h hi hj hb hc

theorem Apart.remove (hs : s.Apart handle?) (i : Nat) : (s.remove i).Apart handle? := by
  intro j k b c h hj hk hb hc
  rw [get?_remove] at hj hk
  split at hj
  · simp at hj
  · split at hk
    · simp at hk
    · exact hs j k b c h hj hk hb hc

theorem Apart.put (hs : s.Apart handle?) (hget : s.get? i = some a)
    (hsame : ∀ h, handle? a' = some h → handle? a = some h) : (s.put i a').Apart handle? := by
  intro j k b c h hj hk hb hc
  rw [get?_put] at hj hk
  split at hj
  · next hji =>
    cases hj
    split at hk
    · next hki => exact hji.trans hki.symm
    · exact hji.trans (hs i k a c h hget hk (hsame h hb) hc)
  · split at hk
    · next hki =>
      cases hk
      exact (hs j i b a h hj hget hb (hsame h hc)).trans hki.symm
    · exact hs j k b c h hj hk hb hc

end Slots

/-! ### Reflections -/

/-- The handle of a transaction that is not finished. -/
def Transaction.live? (tx : Transaction) : Option Handle :=
  if tx.finished then none else some tx.handle

namespace Catalog

/-- A handle of one of the databases of the catalog. -/
def Lists (catalog : Catalog) (d : Handle) : Prop := ∃ db ∈ catalog.databases, db.handle = d

/-- A database of the catalog as the engine has it, with the given records. -/
def stored (catalog : Catalog) (d : Handle) (records : Records) : Engine.Database :=
  { catalog.layout d with env := catalog.env.handle, records }

/-- The engine has the database, with the records of the base. -/
def Stores (catalog : Catalog) (objects : Objects) (base : Base) (d : Handle) : Prop :=
  ∃ records, objects.table.get? d = some (.database (catalog.stored d records)) ∧
    ∀ key, records.get? key = base ⟨d, key⟩

/-- The engine has the row. -/
structure RowLive (catalog : Catalog) (objects : Objects) (row : Row) (r : Engine.Row) : Prop where
  env : row.env = catalog.env.handle
  found : objects.table.get? row.handle = some (.row r)
  listed : catalog.Lists r.db

/-- The engine has the transaction, with the overlay for its writes. -/
structure Pending (catalog : Catalog) (objects : Objects) (tx : Transaction) (overlay : Overlay) :
    Prop where
  env : tx.env = catalog.env.handle
  unfinished : tx.finished = false
  found : ∃ writes : Table Place (Option Record), objects.table.get? tx.handle =
    some (.transaction { env := catalog.env.handle, writes }) ∧ writes.get? = overlay
  listed : ∀ place write, overlay place = some write → catalog.Lists place.db

/-- The transaction is finished, or the engine has it. -/
def TxLive (catalog : Catalog) (objects : Objects) (tx : Transaction) : Draft → Prop
  | .finished => tx.finished = true
  | .pending overlay => catalog.Pending objects tx overlay

end Catalog

/-- The objects of the engine are as the ledger has them. -/
structure Reflects (catalog : Catalog) (objects : Objects) (hand : Hand) (ledger : Ledger) :
    Prop where
  opened : objects.ensureOpened catalog.env.handle = .ok ()
  envs : ∀ db ∈ catalog.databases, db.env = catalog.env.handle
  stores : ∀ d, catalog.Lists d → catalog.Stores objects ledger.base d
  rows : hand.rows.Matching (catalog.RowLive objects) ledger.rows
  drafts : hand.txs.Matching (catalog.TxLive objects) ledger.drafts
  rowsApart : hand.rows.Apart fun row => some row.handle
  txsApart : hand.txs.Apart Transaction.live?

namespace Reflects

variable {catalog : Catalog} {objects objects' : Objects} {hand : Hand} {ledger : Ledger}
  {c : Handle} {i : Nat}

/-- The object tables differ at one handle at most. -/
def SameBut (c : Handle) (objects objects' : Objects) : Prop :=
  ∀ h, h ≠ c → objects'.table.get? h = objects.table.get? h

theorem sameBut_add (object : Engine.Object) :
    SameBut (objects.issued + 1) objects (objects.add object).2 := fun h hne => by
  rw [Objects.get?_add, if_neg hne]

theorem sameBut_put (object : Engine.Object) : SameBut c objects (objects.put c object) :=
  fun h hne => by rw [Objects.get?_put, if_neg hne]

theorem sameBut_remove : SameBut c objects (objects.remove c) :=
  fun h hne => by rw [Objects.get?_remove, if_neg hne]

/-- An object is still there if what changed was of another kind. -/
theorem SameBut.keeps {p : Engine.Object → Prop} (hsame : SameBut c objects objects')
    (hc : ∀ object, objects.table.get? c = some object → p object) {h : Handle}
    {object : Engine.Object} (hget : objects.table.get? h = some object) (hnot : ¬p object) :
    objects'.table.get? h = some object := by
  rw [hsame h, hget]
  rintro rfl
  exact hnot (hc object hget)

/-- The object is a row. -/
def IsRow (object : Engine.Object) : Prop := ∃ r, object = .row r

/-- The object is a transaction. -/
def IsTransaction (object : Engine.Object) : Prop := ∃ tx, object = .transaction tx

/-- The object is a database. -/
def IsDatabase (object : Engine.Object) : Prop := ∃ db, object = .database db

theorem opened_of_sameBut {p : Engine.Object → Prop} (h : Reflects catalog objects hand ledger)
    (hsame : SameBut c objects objects')
    (hc : ∀ object, objects.table.get? c = some object → p object)
    (hnot : ∀ env, ¬p (.environment env)) :
    objects'.ensureOpened catalog.env.handle = .ok () := by
  obtain ⟨env, hget, hopen⟩ := Objects.ensureOpened_eq_ok.1 h.opened
  exact Objects.ensureOpened_eq_ok.2 ⟨env, hsame.keeps hc hget (hnot env), hopen⟩

theorem stores_of_sameBut {p : Engine.Object → Prop} (h : Reflects catalog objects hand ledger)
    (hsame : SameBut c objects objects')
    (hc : ∀ object, objects.table.get? c = some object → p object)
    (hnot : ∀ db, ¬p (.database db)) (d : Handle) (hd : catalog.Lists d) :
    catalog.Stores objects' ledger.base d := by
  obtain ⟨records, hget, hrecords⟩ := h.stores d hd
  exact ⟨records, hsame.keeps hc hget (hnot _), hrecords⟩

theorem rowLive_of_sameBut {p : Engine.Object → Prop} (hsame : SameBut c objects objects')
    (hc : ∀ object, objects.table.get? c = some object → p object)
    (hnot : ∀ r, ¬p (.row r)) {row : Row} {r : Engine.Row} (hr : catalog.RowLive objects row r) :
    catalog.RowLive objects' row r :=
  ⟨hr.env, hsame.keeps hc hr.found (hnot r), hr.listed⟩

theorem txLive_of_sameBut {p : Engine.Object → Prop} (hsame : SameBut c objects objects')
    (hc : ∀ object, objects.table.get? c = some object → p object)
    (hnot : ∀ tx, ¬p (.transaction tx)) {tx : Transaction} {draft : Draft}
    (ht : catalog.TxLive objects tx draft) : catalog.TxLive objects' tx draft := by
  cases draft with
  | finished => exact ht
  | pending overlay =>
    obtain ⟨writes, hget, hw⟩ := Catalog.Pending.found ht
    exact ⟨ht.env, ht.unfinished, ⟨writes, hsame.keeps hc hget (hnot _), hw⟩, ht.listed⟩

/-! ### Rows -/

/-- A change of a row is a change of the rows in the hand. -/
theorem of_rows (h : Reflects catalog objects hand ledger) (hsame : SameBut c objects objects')
    (hc : ∀ object, objects.table.get? c = some object → IsRow object) {rows : Slots Row}
    {lines : Slots Engine.Row} (hrows : rows.Matching (catalog.RowLive objects') lines)
    (hapart : rows.Apart fun row => some row.handle) :
    Reflects catalog objects' { hand with rows } { ledger with rows := lines } where
  opened := h.opened_of_sameBut hsame hc fun env ⟨_, heq⟩ => by cases heq
  envs := h.envs
  stores := h.stores_of_sameBut hsame hc fun db ⟨_, heq⟩ => by cases heq
  rows := hrows
  drafts := h.drafts.mono fun _ _ _ _ => txLive_of_sameBut hsame hc fun tx ⟨_, heq⟩ => by cases heq
  rowsApart := hapart
  txsApart := h.txsApart

/-- A row with another handle than the one that changed is still there. -/
theorem rowLive_of_ne (hsame : SameBut c objects objects') {row : Row} {r : Engine.Row}
    (hr : catalog.RowLive objects row r) (hne : row.handle ≠ c) : catalog.RowLive objects' row r :=
  ⟨hr.env, (hsame _ hne).trans hr.found, hr.listed⟩

theorem addRow (h : Reflects catalog objects hand ledger)
    (hfresh : objects.table.get? (objects.issued + 1) = none) {r : Engine.Row}
    (hr : catalog.Lists r.db) :
    Reflects catalog (objects.add (.row r)).2
      { hand with rows := hand.rows.add ⟨catalog.env.handle, objects.issued + 1⟩ }
      { ledger with rows := ledger.rows.add r } := by
  have hne : ∀ i row, hand.rows.get? i = some row → row.handle ≠ objects.issued + 1 := by
    intro i row hget heq
    obtain ⟨r, -, hlive⟩ := h.rows.of_some hget
    rw [← heq, hlive.found] at hfresh
    simp at hfresh
  refine h.of_rows (sameBut_add _) (fun object hget => ?_) (h.rows.add ?_ ?_)
    (h.rowsApart.add ?_)
  · rw [hfresh] at hget
    simp at hget
  · exact fun i row r hget hlive => rowLive_of_ne (sameBut_add _) hlive (hne i row hget)
  · exact ⟨rfl, by rw [Objects.get?_add, if_pos rfl], hr⟩
  · intro i row h' hget heq hnew
    cases heq
    exact hne i row hget (Option.some.inj hnew).symm

/-- The rows in the hand with other numbers have other handles. -/
theorem row_ne (h : Reflects catalog objects hand ledger) {row row' : Row} {j : Nat}
    (hget : hand.rows.get? i = some row) (hget' : hand.rows.get? j = some row') (hne : j ≠ i) :
    row'.handle ≠ row.handle :=
  fun heq => hne (h.rowsApart j i row' row row'.handle hget' hget rfl (congrArg some heq.symm))

theorem isRow_of_get {h : Handle} {r : Engine.Row} (hget : objects.table.get? h = some (.row r))
    (object : Engine.Object) (hobject : objects.table.get? h = some object) : IsRow object := by
  rw [hget] at hobject
  cases hobject
  exact ⟨r, rfl⟩

theorem setRow (h : Reflects catalog objects hand ledger) {row : Row} {r : Engine.Row}
    (hget : hand.rows.get? i = some row) (hr : catalog.RowLive objects row r) (r' : Engine.Row)
    (hdb : r'.db = r.db) :
    Reflects catalog (objects.put row.handle (.row r')) hand
      { ledger with rows := ledger.rows.put i r' } := by
  have hrows : hand.rows.Matching (catalog.RowLive (objects.put row.handle (.row r')))
      (ledger.rows.put i r') := by
    refine h.rows.rematch hget (fun j row' r hj hget' hlive => ?_) ?_
    · exact rowLive_of_ne (sameBut_put _) hlive (h.row_ne hget hget' hj)
    · exact ⟨hr.env, by rw [Objects.get?_put, if_pos rfl], hdb ▸ hr.listed⟩
  exact h.of_rows (sameBut_put _) (isRow_of_get hr.found) hrows h.rowsApart

theorem removeRow (h : Reflects catalog objects hand ledger) {row : Row} {r : Engine.Row}
    (hget : hand.rows.get? i = some row) (hr : catalog.RowLive objects row r) :
    Reflects catalog (objects.remove row.handle) { hand with rows := hand.rows.remove i }
      { ledger with rows := ledger.rows.remove i } := by
  refine h.of_rows sameBut_remove (isRow_of_get hr.found) (h.rows.remove ?_) (h.rowsApart.remove i)
  exact fun j row' r hj hget' hlive =>
    rowLive_of_ne sameBut_remove hlive (h.row_ne hget hget' hj)

/-! ### Transactions -/

/-- A change of a transaction is a change of the drafts. -/
theorem of_drafts (h : Reflects catalog objects hand ledger) (hsame : SameBut c objects objects')
    (hc : ∀ object, objects.table.get? c = some object → IsTransaction object)
    {txs : Slots Transaction} {drafts : Slots Draft}
    (hdrafts : txs.Matching (catalog.TxLive objects') drafts)
    (hapart : txs.Apart Transaction.live?) :
    Reflects catalog objects' { hand with txs } { ledger with drafts } where
  opened := h.opened_of_sameBut hsame hc fun env ⟨_, heq⟩ => by cases heq
  envs := h.envs
  stores := h.stores_of_sameBut hsame hc fun db ⟨_, heq⟩ => by cases heq
  rows := h.rows.mono fun _ _ _ _ => rowLive_of_sameBut hsame hc fun r ⟨_, heq⟩ => by cases heq
  drafts := hdrafts
  rowsApart := h.rowsApart
  txsApart := hapart

/-- A transaction with another handle than the one that changed is as it was. -/
theorem txLive_of_ne (hsame : SameBut c objects objects') {tx : Transaction} {draft : Draft}
    (ht : catalog.TxLive objects tx draft) (hne : tx.live? ≠ some c) :
    catalog.TxLive objects' tx draft := by
  cases draft with
  | finished => exact ht
  | pending overlay =>
    obtain ⟨writes, hget, hw⟩ := Catalog.Pending.found ht
    refine ⟨ht.env, ht.unfinished, ⟨writes, (hsame _ fun heq => hne ?_).trans hget, hw⟩, ht.listed⟩
    unfold Transaction.live?
    rw [ht.unfinished, ← heq]
    rfl

theorem live?_eq_some {tx : Transaction} {h : Handle} (heq : tx.live? = some h) :
    tx.finished = false ∧ tx.handle = h := by
  unfold Transaction.live? at heq
  split at heq
  · simp at heq
  · next hf => exact ⟨Bool.eq_false_iff.2 hf, Option.some.inj heq⟩

theorem addTx (h : Reflects catalog objects hand ledger)
    (hfresh : objects.table.get? (objects.issued + 1) = none) :
    Reflects catalog (objects.add (.transaction { env := catalog.env.handle })).2
      { hand with txs := hand.txs.add { env := catalog.env.handle, handle := objects.issued + 1 } }
      { ledger with drafts := ledger.drafts.add (.pending fun _ => none) } := by
  have hne : ∀ i tx, hand.txs.get? i = some tx → tx.live? ≠ some (objects.issued + 1) := by
    intro i tx hget heq
    obtain ⟨hunfinished, hhandle⟩ := live?_eq_some heq
    obtain ⟨draft, -, hlive⟩ := h.drafts.of_some hget
    cases draft with
    | finished =>
      rw [show tx.finished = true from hlive] at hunfinished
      simp at hunfinished
    | pending overlay =>
      obtain ⟨writes, hfound, -⟩ := Catalog.Pending.found hlive
      rw [hhandle, hfresh] at hfound
      simp at hfound
  refine h.of_drafts (sameBut_add _) (fun object hget => ?_) (h.drafts.add ?_ ?_)
    (h.txsApart.add ?_)
  · rw [hfresh] at hget
    simp at hget
  · exact fun i tx draft hget hlive => txLive_of_ne (sameBut_add _) hlive (hne i tx hget)
  · refine ⟨rfl, rfl, ⟨{}, by rw [Objects.get?_add, if_pos rfl], rfl⟩, fun place write hw => ?_⟩
    simp at hw
  · intro i tx h' hget heq hnew
    cases hnew
    exact hne i tx hget heq

/-- The transactions with other numbers have other handles. -/
theorem tx_ne (h : Reflects catalog objects hand ledger) {tx tx' : Transaction} {j : Nat}
    (hget : hand.txs.get? i = some tx) (hlive : tx.finished = false)
    (hget' : hand.txs.get? j = some tx') (hne : j ≠ i) : tx'.live? ≠ some tx.handle := by
  have hself : tx.live? = some tx.handle := by
    unfold Transaction.live?
    rw [hlive]
    rfl
  exact fun heq => hne (h.txsApart j i tx' tx tx.handle hget' hget heq hself)

theorem isTransaction_of_get {h : Handle} {tx : Engine.Transaction}
    (hget : objects.table.get? h = some (.transaction tx)) (object : Engine.Object)
    (hobject : objects.table.get? h = some object) : IsTransaction object := by
  rw [hget] at hobject
  cases hobject
  exact ⟨tx, rfl⟩

/-- A transaction that the engine has no more is finished. -/
theorem finishTx (h : Reflects catalog objects hand ledger) {tx : Transaction} {overlay : Overlay}
    (hget : hand.txs.get? i = some tx) (ht : catalog.Pending objects tx overlay) :
    Reflects catalog (objects.remove tx.handle)
      { hand with txs := hand.txs.put i { tx with finished := true } }
      { ledger with drafts := ledger.drafts.put i .finished } := by
  obtain ⟨writes, hfound, -⟩ := ht.found
  refine h.of_drafts sameBut_remove (isTransaction_of_get hfound)
    (h.drafts.put (fun j tx' draft hj hget' hlive => ?_) rfl) (h.txsApart.put hget ?_)
  · exact txLive_of_ne sameBut_remove hlive (h.tx_ne hget ht.unfinished hget' hj)
  · intro h' heq
    exact absurd (live?_eq_some heq).1.symm Bool.false_ne_true

/-- A transaction that the engine has no more is gone. -/
theorem removeTx (h : Reflects catalog objects hand ledger) {tx : Transaction} {overlay : Overlay}
    (hget : hand.txs.get? i = some tx) (ht : catalog.Pending objects tx overlay) :
    Reflects catalog (objects.remove tx.handle) { hand with txs := hand.txs.remove i }
      { ledger with drafts := ledger.drafts.remove i } := by
  obtain ⟨writes, hfound, -⟩ := ht.found
  refine h.of_drafts sameBut_remove (isTransaction_of_get hfound)
    (h.drafts.remove fun j tx' draft hj hget' hlive => ?_) (h.txsApart.remove i)
  exact txLive_of_ne sameBut_remove hlive (h.tx_ne hget ht.unfinished hget' hj)

/-- A transaction that is put back changes nothing. -/
theorem putBack (h : Reflects catalog objects hand ledger) {tx : Transaction}
    (hget : hand.txs.get? i = some tx) :
    Reflects catalog objects { hand with txs := hand.txs.put i tx } ledger :=
  { h with
    drafts := ⟨h.drafts.made, fun j => by
      rw [Slots.get?_put_self hget]
      exact h.drafts.held j⟩
    txsApart := h.txsApart.put hget fun _ => id }

/-- Letting go of a finished transaction asks nothing of the engine. -/
theorem forgetTx (h : Reflects catalog objects hand ledger) (i : Nat) :
    Reflects catalog objects { hand with txs := hand.txs.remove i }
      { ledger with drafts := ledger.drafts.remove i } :=
  { h with
    drafts := h.drafts.remove fun _ _ _ _ _ hlive => hlive
    txsApart := h.txsApart.remove i }

/-! ### Writes -/

/-- A change of a database is a change of the base. -/
theorem of_base (h : Reflects catalog objects hand ledger) (hsame : SameBut c objects objects')
    (hc : ∀ object, objects.table.get? c = some object → IsDatabase object) {base : Base}
    (hstores : ∀ d, catalog.Lists d → catalog.Stores objects' base d) :
    Reflects catalog objects' hand { ledger with base } where
  opened := h.opened_of_sameBut hsame hc fun env ⟨_, heq⟩ => by cases heq
  envs := h.envs
  stores := hstores
  rows := h.rows.mono fun _ _ _ _ => rowLive_of_sameBut hsame hc fun r ⟨_, heq⟩ => by cases heq
  drafts := h.drafts.mono fun _ _ _ _ => txLive_of_sameBut hsame hc fun tx ⟨_, heq⟩ => by cases heq
  rowsApart := h.rowsApart
  txsApart := h.txsApart

/-- A write to a database is one to the base. -/
theorem writeThrough (h : Reflects catalog objects hand ledger) {place : Place}
    (hd : catalog.Lists place.db) (record? : Option Record) :
    ∃ objects', objects.writeThrough place record? = .ok objects' ∧
      Reflects catalog objects' hand
        { ledger with base := Function.update ledger.base place record? } := by
  obtain ⟨records, hget, hrecords⟩ := h.stores _ hd
  refine ⟨_, Objects.writeThrough_eq hget record?, h.of_base (sameBut_put _) ?_ fun d hd' => ?_⟩
  · intro object hobject
    rw [hget] at hobject
    cases hobject
    exact ⟨_, rfl⟩
  · by_cases heq : d = place.db
    · subst heq
      refine ⟨Objects.writtenRecords records place.key record?, ?_, fun key => ?_⟩
      · rw [Objects.get?_put, if_pos rfl]
        rfl
      · rw [Objects.get?_writtenRecords, Function.update_apply, hrecords]
        by_cases hkey : key = place.key
        · rw [if_pos hkey, hkey, if_pos rfl]
        · rw [if_neg hkey, if_neg fun hplace => hkey (congrArg Place.key hplace)]
    · obtain ⟨records', hget', hrecords'⟩ := h.stores d hd'
      refine ⟨records', (sameBut_put _ d heq).trans hget', fun key => ?_⟩
      rw [hrecords', Function.update_of_ne fun hplace => heq (congrArg Place.db hplace)]

/-- A write to a transaction is one to its overlay. -/
theorem writePending (h : Reflects catalog objects hand ledger) {tx : Transaction}
    {overlay : Overlay} (hget : hand.txs.get? i = some tx)
    (ht : catalog.Pending objects tx overlay) {place : Place} (hd : catalog.Lists place.db)
    (record? : Option Record) :
    ∃ objects', objects.write (.transaction tx.handle) place record? = .ok objects' ∧
      Reflects catalog objects' hand
        { ledger with
          drafts := ledger.drafts.put i (.pending (Function.update overlay place (some record?))) } := by
  obtain ⟨writes, hfound, hwrites⟩ := ht.found
  refine ⟨objects.put tx.handle (.transaction
    { env := catalog.env.handle, writes := writes.insert place record? }), ?_, ?_⟩
  · unfold Objects.write
    dsimp only
    rw [Objects.transaction_eq_ok.2 hfound]
    rfl
  · refine h.of_drafts (sameBut_put _) (isTransaction_of_get hfound)
      (h.drafts.rematch hget (fun j tx' draft hj hget' hlive => ?_)
        ⟨ht.env, ht.unfinished, ?_, ?_⟩) h.txsApart
    · exact txLive_of_ne (sameBut_put _) hlive (h.tx_ne hget ht.unfinished hget' hj)
    · refine ⟨writes.insert place record?, by rw [Objects.get?_put, if_pos rfl], ?_⟩
      funext place'
      rw [Table.get?_insert, Function.update_apply, hwrites]
    · intro place' write hw
      rw [Function.update_apply] at hw
      split at hw
      · next heq => exact heq ▸ hd
      · exact ht.listed place' write hw

end Reflects
end RowStore.Client
