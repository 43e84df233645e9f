/-
# What is stored

What is stored are the records of the databases and the pending writes of the transactions. Objects
that move store no more than before, and a commit moves what is pending into the databases. So what
holds of everything that is ever written holds of everything stored.

Key definitions: `Engine.Objects.Contains`, `Engine.Objects.Holds`.
Key theorems: `Engine.Objects.Moves.contains`, `Engine.Objects.Holds.of_changes`.
-/
import RowStore.Proofs.Engine.Changes

namespace RowStore.Engine

open Client (WriteKind)

namespace Objects

variable {objects objects' : Objects} {advances destroys : Handle → Prop} {makes : Object → Prop}

/-! ### Objects that store no more -/

/-- Whatever the objects `objects'` store, `objects` store as well. -/
structure Contains (objects objects' : Objects) : Prop where
  issued : objects.issued ≤ objects'.issued
  records : ∀ d db', objects'.table.get? d = some (.database db') →
    (objects.issued < d ∧ db'.records.entries = []) ∨
      ∃ db, objects.table.get? d = some (.database db) ∧ db'.fields = db.fields ∧
        db'.records = db.records
  writes : ∀ t tx', objects'.table.get? t = some (.transaction tx') →
    tx'.writes.entries = [] ∨ objects.table.get? t = some (.transaction tx')

theorem Contains.refl (objects : Objects) : objects.Contains objects where
  issued := Nat.le_refl _
  records := fun _ db hdb => .inr ⟨db, hdb, rfl, rfl⟩
  writes := fun _ _ => .inr

theorem Contains.add (hc : objects.Contains objects') {object : Object} (hempty : object.IsEmpty) :
    objects.Contains (objects'.add object).2 where
  issued := Nat.le_succ_of_le hc.issued
  records := by
    intro d db hdb
    rw [get?_add] at hdb
    split at hdb
    · next heq =>
      cases hdb
      exact .inl ⟨heq ▸ Nat.lt_succ_of_le hc.issued, hempty⟩
    · exact hc.records d db hdb
  writes := by
    intro t tx htx
    rw [get?_add] at htx
    split at htx
    · cases htx
      exact .inl hempty
    · exact hc.writes t tx htx

theorem Contains.put (hc : objects.Contains objects') {h : Handle} {old object : Object}
    (hlive : objects'.table.get? h = some old) (hlike : old.Like object) :
    objects.Contains (objects'.put h object) where
  issued := hc.issued
  records := by
    intro d db hdb
    rw [get?_put] at hdb
    split at hdb
    · next heq =>
      subst heq
      cases hdb
      cases old with
      | database db' =>
        obtain ⟨-, hfields, hrecords⟩ := hlike
        rw [hfields, hrecords]
        exact hc.records d db' hlive
      | environment _ => cases hlike
      | row _ => cases hlike
      | cursor _ => cases hlike
      | transaction _ => cases hlike
    · exact hc.records d db hdb
  writes := by
    intro t tx htx
    rw [get?_put] at htx
    split at htx
    · cases htx
      cases old <;> cases hlike
    · exact hc.writes t tx htx

/-- Some objects less. -/
theorem Contains.subset {objects'' : Objects} (hc : objects.Contains objects')
    (hissued : objects''.issued = objects'.issued)
    (hsub : ∀ h object, objects''.table.get? h = some object →
      objects'.table.get? h = some object) : objects.Contains objects'' where
  issued := hissued ▸ hc.issued
  records := fun d db hdb => hc.records d db (hsub d _ hdb)
  writes := fun t tx htx => hc.writes t tx (hsub t _ htx)

theorem Contains.remove (hc : objects.Contains objects') (h : Handle) :
    objects.Contains (objects'.remove h) := by
  refine hc.subset rfl fun h' object hget => ?_
  rw [get?_remove] at hget
  split at hget
  · simp at hget
  · exact hget

theorem Moves.contains (hm : Moves advances destroys makes objects objects') :
    objects.Contains objects' := by
  induction hm with
  | refl => exact .refl objects
  | add _ hempty _ ih => exact ih.add hempty
  | put _ hlive hlike _ ih => exact ih.put hlive hlike
  | remove _ _ _ ih => exact ih.remove _
  | destroy _ _ ih => exact ih.subset rfl fun h' object hget => (get?_filter.1 hget).1

end Objects

/-! ### What holds of everything stored -/

namespace Objects

variable {objects objects' : Objects} {good : List Field → Key → Option Record → Prop}

/-- A property of writes under keys holds of all records, and of all pending writes to databases
that are live. -/
structure Holds (good : List Field → Key → Option Record → Prop) (objects : Objects) : Prop where
  records : ∀ d db, objects.table.get? d = some (.database db) → ∀ e ∈ db.records.entries,
    good db.fields e.1 (some e.2)
  pending : ∀ t tx, objects.table.get? t = some (.transaction tx) → ∀ e ∈ tx.writes.entries,
    ∀ db, objects.table.get? e.1.db = some (.database db) → good db.fields e.1.key e.2

/-- What holds of a store holds of what is part of it. -/
theorem Holds.of_contains (hs : objects.Sound) (hh : objects.Holds good)
    (hc : objects.Contains objects') : objects'.Holds good where
  records := by
    intro d db' hdb' e he
    rcases hc.records d db' hdb' with ⟨-, hempty⟩ | ⟨db, hdb, hfields, hrecords⟩
    · rw [hempty] at he
      simp at he
    · rw [hrecords] at he
      rw [hfields]
      exact hh.records d db hdb e he
  pending := by
    intro t tx htx e he db' hdb'
    rcases hc.writes t tx htx with hempty | hold
    · rw [hempty] at he
      simp at he
    · rcases hc.records _ db' hdb' with ⟨hfresh, -⟩ | ⟨db, hdb, hfields, -⟩
      · -- A place of a pending write was issued before the write.
        have hle := ((hs.sound _ _ hold).2 e.1 e.2 (Table.get?_eq_some_iff.2 he)).1
        exact absurd hfresh (Nat.not_lt.2 hle)
      · rw [hfields]
        exact hh.pending t tx hold e he db hdb

theorem Holds.remove (hs : objects.Sound) (hh : objects.Holds good) (h : Handle) :
    (objects.remove h).Holds good :=
  hh.of_contains hs ((Contains.refl objects).remove h)

theorem Holds.writeThrough {place : Place} {record? : Option Record} (hh : objects.Holds good)
    (hgood : ∀ db, objects.table.get? place.db = some (.database db) →
      good db.fields place.key record?)
    (hr : objects.writeThrough place record? = .ok objects') : objects'.Holds good := by
  obtain ⟨db, hdb, hr⟩ := bind_eq_ok.1 hr
  rw [database_eq_ok] at hdb
  cases hr
  constructor
  · intro d db' hdb' e he
    rw [get?_put] at hdb'
    split at hdb'
    · cases hdb'
      cases record? with
      | none => exact hh.records _ db hdb e (Table.mem_entries_erase.1 he).2
      | some record =>
        rcases Table.mem_entries_insert.1 he with ⟨hkey, hrecord⟩ | ⟨-, he⟩
        · rw [hkey, hrecord]
          exact hgood db hdb
        · exact hh.records _ db hdb e he
    · exact hh.records d db' hdb' e he
  · intro t tx htx e he db' hdb'
    rw [get?_put] at htx hdb'
    split at htx
    · simp at htx
    split at hdb'
    · next heq =>
      cases hdb'
      exact hh.pending t tx htx e he db (heq ▸ hdb)
    · exact hh.pending t tx htx e he db' hdb'

/-- A write keeps what holds of everything stored, if it holds of the write. -/
theorem Holds.write {target : Store} {place : Place} {record? : Option Record}
    (hh : objects.Holds good)
    (hgood : ∀ db, objects.table.get? place.db = some (.database db) →
      good db.fields place.key record?)
    (hr : objects.write target place record? = .ok objects') : objects'.Holds good := by
  cases target with
  | database d => exact hh.writeThrough hgood hr
  | transaction t =>
    obtain ⟨tx, htx, hr⟩ := bind_eq_ok.1 hr
    rw [transaction_eq_ok] at htx
    cases hr
    have hlive : ∀ d db, (objects.put t (.transaction
        { tx with writes := tx.writes.insert place record? })).table.get? d =
          some (.database db) → objects.table.get? d = some (.database db) := by
      intro d db hdb
      rw [get?_put] at hdb
      split at hdb
      · simp at hdb
      · exact hdb
    constructor
    · exact fun d db hdb => hh.records d db (hlive d db hdb)
    · intro t' tx' htx' e he db hdb
      have hdb := hlive _ _ hdb
      rw [get?_put] at htx'
      split at htx'
      · cases htx'
        rcases Table.mem_entries_insert.1 he with ⟨hplace, hrecord⟩ | ⟨-, he⟩
        · rw [hrecord]
          rw [hplace] at hdb ⊢
          exact hgood db hdb
        · exact hh.pending t tx htx e he db hdb
      · exact hh.pending t' tx' htx' e he db hdb

/-- What holds of everything stored after a write holds of the write. -/
theorem Holds.of_write {target : Store} {place : Place} {record : Record}
    (hr : objects.write target place (some record) = .ok objects') {db : Database}
    (hdb : objects.table.get? place.db = some (.database db)) (hh : objects'.Holds good) :
    good db.fields place.key (some record) := by
  cases target with
  | database d =>
    obtain ⟨db', hdb', hr⟩ := bind_eq_ok.1 hr
    rw [database_eq_ok, hdb] at hdb'
    cases hdb'
    cases hr
    exact hh.records place.db _ ((get?_put ..).trans (if_pos rfl)) (place.key, record)
      (Table.mem_entries_insert.2 (.inl ⟨rfl, rfl⟩))
  | transaction t =>
    obtain ⟨tx, htx, hr⟩ := bind_eq_ok.1 hr
    rw [transaction_eq_ok] at htx
    cases hr
    have hne : place.db ≠ t := by
      rintro rfl
      rw [hdb] at htx
      cases htx
    exact hh.pending t _ ((get?_put ..).trans (if_pos rfl)) (place, some record)
      (Table.mem_entries_insert.2 (.inl ⟨rfl, rfl⟩)) db
      (((get?_put ..).trans (if_neg hne)).trans hdb)

/-- What holds of everything stored holds of what a reader sees. -/
theorem Holds.visible {target : Store} {d : Handle} {db : Database} {key : Key} {record : Record}
    (hh : objects.Holds good) (hdb : objects.table.get? d = some (.database db))
    (hvisible : objects.visible target d key = .ok (some record)) : good db.fields key (some record) := by
  unfold Objects.visible at hvisible
  split at hvisible
  · next write hpending =>
    cases hvisible
    cases target with
    | database _ => cases hpending
    | transaction t =>
      unfold pending? at hpending
      dsimp only at hpending
      split at hpending
      · next tx htx => exact hh.pending t tx htx _ (Table.get?_eq_some_iff.1 hpending) db hdb
      · cases hpending
  · obtain ⟨db', hdb', hvisible⟩ := bind_eq_ok.1 hvisible
    rw [database_eq_ok, hdb] at hdb'
    cases hdb'
    have hget : db.records.get? key = some record := Except.ok.inj hvisible
    exact hh.records d db hdb _ (Table.get?_eq_some_iff.1 hget)

theorem Holds.writeAll : ∀ (writes : List (Place × Option Record)) {objects : Objects},
    objects.Holds good →
    (∀ e ∈ writes, ∀ db, objects.table.get? e.1.db = some (.database db) →
      good db.fields e.1.key e.2) →
    (Objects.writeAll writes objects).2.Holds good
  | [], _, hh, _ => hh
  | (place, record?) :: writes, objects, hh, hgood => by
    rw [Objects.writeAll]
    split
    · next objects' hw =>
      refine Holds.writeAll writes (hh.writeThrough (hgood _ List.mem_cons_self) hw) ?_
      intro e he db hdb
      have hgood := hgood e (List.mem_cons_of_mem _ he)
      obtain ⟨old, hold, hw⟩ := bind_eq_ok.1 hw
      rw [database_eq_ok] at hold
      cases hw
      rw [get?_put] at hdb
      split at hdb
      · next heq =>
        cases hdb
        exact hgood old (heq ▸ hold)
      · exact hgood db hdb
    · exact hh

/-- What holds of everything stored holds after a call, if it holds of the write of the call. -/
theorem Holds.of_changes {functions : Hook → MergeFn} {kind : AnswerKind} {action : Action kind}
    (hs : objects.Sound) (hh : objects.Holds good)
    (hgood : ∀ (kind : WriteKind) (store row : Handle) (r : Row) (target : Store) (db : Database)
      (key : Key) (record? : Option Record),
      (⟨_, action⟩ : Call) = ⟨_, kind.action store row⟩ →
      objects.table.get? row = some (.row r) →
      Writing functions (objects.remove row) store r kind target db key record? →
      good db.fields key record?)
    (hc : objects.Changes functions action objects') : objects'.Holds good := by
  cases hc with
  | moved hm => exact hh.of_contains hs hm.contains
  | written htaken hwriting hmade =>
    refine (hh.remove hs _).write (fun db hdb => ?_) hmade
    have hgood := hgood _ _ _ _ _ _ _ _ rfl htaken hwriting
    rw [hwriting.live] at hdb
    cases hdb
    exact hgood
  | committed hpending =>
    refine Holds.writeAll _ (hh.remove hs _) fun e he db hdb => ?_
    rw [get?_remove] at hdb
    split at hdb
    · simp at hdb
    · exact hh.pending _ _ hpending e he db hdb

end Objects

end RowStore.Engine
