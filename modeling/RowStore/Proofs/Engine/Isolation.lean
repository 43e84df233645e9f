/-
# What an environment has, and what leaves it alone

An environment has its databases with their records, its transactions with their pending writes, and
rows and cursors. A call on a store of another environment replaces that store and takes its row; it
leaves alone what the environment has, but for the row. A commit makes the writes of its transaction
wherever they go, and a row of any database goes into any transaction. So a commit leaves alone what
another environment has exactly if none of its writes crosses over: none that is made would change a
record there.

Key definitions: `Engine.Objects.held?`, `Engine.Objects.Alters`, `Engine.Objects.Leaves`,
`Engine.Objects.Crosses`.
Key theorems: `Engine.Objects.Alters.leaves`, `Engine.leaves_write`, `Engine.leaves_lookup`,
`Engine.leaves_commit_iff`.
-/
import RowStore.Proofs.Data.Tables
import RowStore.Proofs.Engine.Failing

namespace RowStore.Engine

open Client (WriteKind)

/-- The environment of a database, by its outline. -/
def Outline.env? : Outline → Option Handle
  | .environment => none
  | .database env _ _ => some env

/-- The environment of a store: a database or a transaction. -/
def Object.storeEnv? : Object → Option Handle
  | .database db => some db.env
  | .transaction tx => some tx.env
  | _ => none

namespace Objects

variable {objects objects' objects'' : Objects} {a b h store : Handle} {r : Row}

/-! ### What an environment has -/

/-- What an environment has under a handle. -/
def held? (objects : Objects) (env h : Handle) : Option Object :=
  (objects.table.get? h).filter fun object => objects.owner? h object == some env

theorem held?_eq_some {object : Object} : objects.held? b h = some object ↔
    objects.table.get? h = some object ∧ objects.owner? h object = some b := by
  rw [held?, Option.filter_eq_some_iff, beq_iff_eq]

theorem held?_eq_none : objects.held? b h = none ↔
    ∀ object, objects.table.get? h = some object → objects.owner? h object ≠ some b := by
  rw [Option.eq_none_iff_forall_ne_some]
  refine forall_congr' fun object => ?_
  rw [Ne, held?_eq_some, not_and]

theorem owner?_of_storeEnv? {object : Object} (hstore : object.storeEnv? = some b) :
    objects.owner? h object = some b := by
  cases object with
  | database _ => exact hstore
  | transaction _ => exact hstore
  | environment _ => cases hstore
  | row _ => cases hstore
  | cursor _ => cases hstore

theorem held?_database {db : Database} : objects.held? b h = some (.database db) ↔
    objects.table.get? h = some (.database db) ∧ db.env = b := by
  rw [held?_eq_some, owner?, Option.some.injEq]

/-- The owner of a row is told by outlines. -/
theorem owner?_row (r : Row) : objects.owner? h (.row r) = (objects.outline? r.db).bind
    Outline.env? := by
  simp only [owner?, outline?]
  cases objects.table.get? r.db with
  | none => rfl
  | some object => cases object <;> rfl

theorem owner?_congr (hsame : ∀ d, objects'.outline? d = objects.outline? d) (object : Object) :
    objects'.owner? h object = objects.owner? h object := by
  cases object with
  | row r => rw [owner?_row, owner?_row, hsame]
  | environment _ => rfl
  | database _ => rfl
  | cursor _ => rfl
  | transaction _ => rfl

/-! ### Objects replaced and removed -/

/-- Some objects are replaced by others of their owner or removed, and the outlines stay. -/
structure Alters (touched : Handle → Prop) (objects objects' : Objects) : Prop where
  issued : objects'.issued = objects.issued
  outline : ∀ d, objects'.outline? d = objects.outline? d
  same : ∀ h, ¬ touched h → objects'.table.get? h = objects.table.get? h
  owned : ∀ h object', objects'.table.get? h = some object' →
    ∃ object, objects.table.get? h = some object ∧
      objects.owner? h object' = objects.owner? h object

variable {touched touched' : Handle → Prop}

theorem Alters.refl (objects : Objects) : Alters touched objects objects where
  issued := rfl
  outline := fun _ => rfl
  same := fun _ _ => rfl
  owned := fun _ object hget => ⟨object, hget, rfl⟩

theorem Alters.trans (ha : Alters touched objects objects')
    (ha' : Alters touched objects' objects'') : Alters touched objects objects'' where
  issued := ha'.issued.trans ha.issued
  outline := fun d => (ha'.outline d).trans (ha.outline d)
  same := fun h hnot => (ha'.same h hnot).trans (ha.same h hnot)
  owned := fun h object'' hget => by
    obtain ⟨object', hget', howner'⟩ := ha'.owned h object'' hget
    obtain ⟨object, hget, howner⟩ := ha.owned h object' hget'
    rw [owner?_congr ha.outline, owner?_congr ha.outline] at howner'
    exact ⟨object, hget, howner'.trans howner⟩

theorem Alters.mono (ha : Alters touched objects objects') (hsub : ∀ h, touched h → touched' h) :
    Alters touched' objects objects' :=
  { ha with same := fun h hnot => ha.same h fun ht => hnot (hsub h ht) }

theorem alters_remove (hnone : objects.outline? h = none) :
    Alters (· = h) objects (objects.remove h) where
  issued := rfl
  outline := fun d => by
    by_cases hd : d = h
    · subst hd
      rw [hnone]
      simp [outline?]
    · simp [outline?, hd]
  same := fun h' hne => by rw [get?_remove, if_neg hne]
  owned := fun h' object' hget => by
    rw [get?_remove] at hget
    split at hget
    · cases hget
    · exact ⟨object', hget, rfl⟩

theorem alters_put {old object : Object} (hold : objects.table.get? h = some old)
    (houtline : object.outline? = old.outline?)
    (howner : objects.owner? h object = objects.owner? h old) :
    Alters (· = h) objects (objects.put h object) where
  issued := rfl
  outline := outline?_put hold houtline
  same := fun h' hne => by rw [get?_put, if_neg hne]
  owned := fun h' object' hget => by
    rw [get?_put] at hget
    split at hget
    · next heq =>
      cases hget
      subst heq
      exact ⟨old, hold, howner⟩
    · exact ⟨object', hget, rfl⟩

/-- What is not touched is had by the environment that had it. -/
theorem Alters.held?_eq (ha : Alters touched objects objects') (hnot : ¬ touched h) :
    objects'.held? b h = objects.held? b h := by
  unfold held?
  rw [ha.same h hnot]
  simp only [owner?_congr ha.outline]

/-- What an environment does not have, it does not have later. -/
theorem Alters.held?_eq_none (ha : Alters touched objects objects')
    (hnone : objects.held? b h = none) : objects'.held? b h = none := by
  rw [Objects.held?_eq_none] at hnone ⊢
  intro object' hget
  obtain ⟨object, hget, howner⟩ := ha.owned h object' hget
  rw [owner?_congr ha.outline, howner]
  exact hnone object hget

/-! ### Where rows go -/

theorem store_eq_ok {goal : Store} : objects.store h = .ok goal ↔
    (goal = .database h ∧ ∃ db, objects.table.get? h = some (.database db)) ∨
      goal = .transaction h ∧ ∃ tx, objects.table.get? h = some (.transaction tx) := by
  unfold Objects.store
  rw [bind_eq_ok]
  simp only [find_eq_ok]
  constructor
  · rintro ⟨object, hget, hgoal⟩
    cases object with
    | database db =>
      cases hgoal
      exact .inl ⟨rfl, db, hget⟩
    | transaction tx =>
      cases hgoal
      exact .inr ⟨rfl, tx, hget⟩
    | environment _ => cases hgoal
    | row _ => cases hgoal
    | cursor _ => cases hgoal
  · rintro (⟨rfl, db, hget⟩ | ⟨rfl, tx, hget⟩)
    · exact ⟨_, hget, rfl⟩
    · exact ⟨_, hget, rfl⟩

/-- A row of a live database in an opened environment goes to its database and to every
transaction, and nowhere else. -/
theorem target_eq_ok {goal : Store} : objects.target store r = .ok goal ↔
    ∃ db, objects.table.get? r.db = some (.database db) ∧ objects.ensureOpened db.env = .ok () ∧
      ((goal = .database store ∧ store = r.db) ∨
        goal = .transaction store ∧ ∃ tx, objects.table.get? store = some (.transaction tx)) := by
  unfold target
  rw [bind_eq_ok]
  simp only [database_eq_ok]
  refine exists_congr fun db => and_congr_right fun hdb => ?_
  rw [bind_eq_ok]
  constructor
  · rintro ⟨⟨⟩, hopen, hgoal⟩
    refine ⟨hopen, ?_⟩
    obtain ⟨found, hstore, hgoal⟩ := bind_eq_ok.1 hgoal
    rcases store_eq_ok.1 hstore with ⟨rfl, -⟩ | ⟨rfl, htx⟩
    · dsimp only at hgoal
      split at hgoal
      · next heq =>
        cases hgoal
        exact .inl ⟨rfl, heq⟩
      · cases hgoal
    · cases hgoal
      exact .inr ⟨rfl, htx⟩
  · rintro ⟨hopen, ⟨rfl, rfl⟩ | ⟨rfl, htx⟩⟩
    · refine ⟨(), hopen, bind_eq_ok.2 ⟨_, store_eq_ok.2 (.inl ⟨rfl, db, hdb⟩), ?_⟩⟩
      exact if_pos rfl
    · exact ⟨(), hopen, bind_eq_ok.2 ⟨_, store_eq_ok.2 (.inr ⟨rfl, htx⟩), rfl⟩⟩

/-- What an upsert asks for is decided by the store, the database and whether the environment of the
database is opened. -/
theorem mergeOf_congr {db : Database} (hdb : objects.table.get? r.db = some (.database db))
    (hdb' : objects'.table.get? r.db = some (.database db))
    (henv : objects'.table.get? db.env = objects.table.get? db.env)
    (hstore : objects'.table.get? store = objects.table.get? store) :
    objects'.mergeOf store r = objects.mergeOf store r := by
  have hopened : objects'.ensureOpened db.env = objects.ensureOpened db.env := by
    unfold ensureOpened environment find
    rw [henv]
  have htarget : objects'.target store r = objects.target store r := by
    unfold target Objects.store find
    rw [database_eq_ok.2 hdb, database_eq_ok.2 hdb', hstore]
    show (objects'.ensureOpened db.env >>= _) = (objects.ensureOpened db.env >>= _)
    rw [hopened]
  unfold mergeOf
  rw [htarget]
  cases ht : objects.target store r with
  | error refusal => rfl
  | ok goal =>
    have hvisible : ∀ key, objects'.visible goal r.db key = objects.visible goal r.db key := by
      intro key
      unfold visible
      rw [database_eq_ok.2 hdb, database_eq_ok.2 hdb']
      obtain ⟨-, -, -, ⟨rfl, -⟩ | ⟨rfl, -⟩⟩ := target_eq_ok.1 ht
      · rfl
      · simp only [pending?, hstore]
    rw [database_eq_ok.2 hdb, database_eq_ok.2 hdb']
    simp only [bind, Except.bind, hvisible]

/-! ### What is left alone -/

/-- What an environment has is left alone, but for a row that is taken: the records and the merge
functions of its databases and the pending writes of its transactions are the same, nothing is new but
rows, and an upsert of its rows through its stores asks for the same merge. -/
structure Leaves (b : Handle) (row? : Option Handle) (objects objects' : Objects) : Prop where
  held : ∀ h, h ≤ objects.issued → objects'.held? b h = objects.held? b h ∨
    row? = some h ∧ objects'.held? b h = none
  fresh : ∀ h object, objects.issued < h → objects'.held? b h = some object → ∃ r, object = .row r
  merges : ∀ store object r, objects.table.get? store = some object → object.storeEnv? = some b →
    (∃ db : Database, objects.table.get? r.db = some (.database db) ∧ db.env = b) →
    objects'.mergeOf store r = objects.mergeOf store r

/-- The handle is that of a row, if it is live. -/
def IsRow (objects : Objects) (row : Handle) : Prop :=
  ∀ object, objects.table.get? row = some object → ∃ r, object = .row r

/-- The handle is that of a store of the environment, if it is live. -/
def IsStoreOf (objects : Objects) (env store : Handle) : Prop :=
  ∀ object, objects.table.get? store = some object → object.storeEnv? = some env

variable {row? : Option Handle}

/-- Where what the environment has is the same but for a row, the merges are the same too. -/
theorem leaves_of_held (hs : objects.Sound) (hrow : ∀ row, row? = some row → objects.IsRow row)
    (held : ∀ h, h ≤ objects.issued → objects'.held? b h = objects.held? b h ∨
      row? = some h ∧ objects'.held? b h = none)
    (fresh : ∀ h object, objects.issued < h → objects'.held? b h = some object →
      ∃ r, object = .row r) : Leaves b row? objects objects' where
  held := held
  fresh := fresh
  merges := by
    have hkept : ∀ h object, objects.table.get? h = some object →
        objects.owner? h object = some b → (∀ r, object ≠ .row r) →
        objects'.table.get? h = some object := by
      intro h object hget howner hnot
      rcases held h (hs.live h object hget).2 with hsame | ⟨htaken, -⟩
      · rw [held?_eq_some.2 ⟨hget, howner⟩, held?_eq_some] at hsame
        exact hsame.1
      · obtain ⟨r, hr⟩ := hrow h htaken object hget
        exact absurd hr (hnot r)
    rintro store object r hstore howner ⟨db, hdb, rfl⟩
    obtain ⟨henv, -⟩ := hs.sound _ _ hdb
    obtain ⟨env, henv⟩ := outline?_eq_environment henv
    refine mergeOf_congr hdb (hkept _ _ hdb rfl nofun) ?_ ?_
    · rw [henv, hkept _ _ henv rfl nofun]
    · rw [hstore, hkept _ _ hstore (owner?_of_storeEnv? howner)]
      rintro r rfl
      cases howner

theorem Leaves.refl (hs : objects.Sound) : Leaves b row? objects objects where
  held := fun _ _ => .inl rfl
  fresh := fun h object hlt hheld =>
    absurd (hs.live h object (held?_eq_some.1 hheld).1).2 (Nat.not_le.2 hlt)
  merges := fun _ _ _ _ _ _ => rfl

/-- Where what is touched is the row or has no part in what the environment has, that is left
alone. -/
theorem Alters.leaves (ha : Alters touched objects objects') (hs : objects.Sound)
    (hrow : ∀ row, row? = some row → objects.IsRow row)
    (htouched : ∀ h, touched h → objects.held? b h ≠ none →
      objects'.held? b h = objects.held? b h ∨ row? = some h ∧ objects'.held? b h = none) :
    Leaves b row? objects objects' := by
  refine leaves_of_held hs hrow (fun h _ => ?_) fun h object hlt hheld => ?_
  · by_cases ht : touched h
    · by_cases hnone : objects.held? b h = none
      · rw [hnone, ha.held?_eq_none hnone]
        exact .inl rfl
      · exact htouched h ht hnone
    · exact .inl (ha.held?_eq ht)
  · obtain ⟨old, hold, -⟩ := ha.owned h object (held?_eq_some.1 hheld).1
    exact absurd (hs.live h old hold).2 (Nat.not_le.2 hlt)

/-- A row that is new leaves everything else alone. -/
theorem Leaves.addRow (hs : objects.Sound) (hs' : objects'.Sound)
    (hrow : ∀ row, row? = some row → objects.IsRow row) (hissued : objects'.issued = objects.issued)
    (hl : Leaves b row? objects objects') (r : Row) :
    Leaves b row? objects (objects'.add (.row r)).2 := by
  have houtline : ∀ d, (objects'.add (.row r)).2.outline? d = objects'.outline? d := fun d => by
    by_cases hd : d = objects'.issued + 1
    · rw [hd]
      simp [outline?, hs'.fresh, Object.outline?]
    · simp [outline?, hd]
  have hheld : ∀ h, h ≠ objects'.issued + 1 →
      (objects'.add (.row r)).2.held? b h = objects'.held? b h := fun h hne => by
    unfold held?
    rw [get?_add, if_neg hne]
    simp only [owner?_congr houtline]
  refine leaves_of_held hs hrow (fun h hle => ?_) fun h object hlt hget => ?_
  · rw [hheld h (by omega)]
    exact hl.held h hle
  · by_cases hne : h = objects'.issued + 1
    · rw [held?_eq_some, get?_add, if_pos hne] at hget
      cases hget.1
      exact ⟨r, rfl⟩
    · rw [hheld h hne] at hget
      exact hl.fresh h object hlt hget

/-! ### Stores of another environment -/

/-- A store of one environment is not had by another. -/
theorem IsStoreOf.held?_eq_none (hstore : objects.IsStoreOf a store) (hab : a ≠ b) :
    objects.held? b store = none := by
  refine Objects.held?_eq_none.2 fun object hget howner => hab ?_
  rw [owner?_of_storeEnv? (hstore object hget), Option.some.injEq] at howner
  exact howner

theorem removed_held? : (objects.remove h).held? b h = none :=
  Objects.held?_eq_none.2 fun object hget => by
    rw [get?_remove, if_pos rfl] at hget
    cases hget

theorem leaves_removeRow (hs : objects.Sound) {row : Handle}
    (hrow : objects.table.get? row = some (.row r)) :
    Leaves b (some row) objects (objects.remove row) := by
  refine (alters_remove (outline?_of_get hrow)).leaves hs ?_ ?_
  · rintro _ ⟨⟩ object hget
    rw [hrow] at hget
    cases hget
    exact ⟨r, rfl⟩
  · rintro _ rfl -
    exact .inr ⟨rfl, removed_held?⟩

/-- A write through a store replaces the store and nothing else. -/
theorem alters_write {goal : Store} {key : Key} {record? : Option Record}
    (ht : objects.target store r = .ok goal)
    (hw : objects.write goal ⟨r.db, key⟩ record? = .ok objects') :
    Alters (· = store) objects objects' := by
  obtain ⟨db, hdb, -, ⟨rfl, hstore⟩ | ⟨rfl, tx, htx⟩⟩ := target_eq_ok.1 ht
  · obtain ⟨db', hdb', hw⟩ := bind_eq_ok.1 hw
    rw [database_eq_ok.2 hdb] at hdb'
    cases hdb'
    cases hw
    rw [hstore]
    exact alters_put hdb rfl rfl
  · obtain ⟨tx', htx', hw⟩ := bind_eq_ok.1 hw
    rw [transaction_eq_ok.2 htx] at htx'
    cases htx'
    cases hw
    exact alters_put htx rfl rfl

/-- A row that goes to a store is not under the handle of the store. -/
theorem ne_of_target {row : Handle} {goal : Store}
    (ht : (objects.remove row).target store r = .ok goal) : row ≠ store := by
  rintro rfl
  obtain ⟨db, hdb, -, ⟨-, hstore⟩ | ⟨-, tx, htx⟩⟩ := target_eq_ok.1 ht
  · rw [← hstore, get?_remove, if_pos rfl] at hdb
    cases hdb
  · rw [get?_remove, if_pos rfl] at htx
    cases htx

end Objects

variable {engine : Engine} {a b store row : Handle}

open Objects

/-- A write of a row through a store of another environment leaves everything but the row alone. -/
theorem leaves_write (hs : engine.objects.Sound) (hab : a ≠ b)
    (hstore : engine.objects.IsStoreOf a store) (functions : Hook → MergeFn) (kind : WriteKind) :
    Leaves b (some row) engine.objects
      (engine.step functions (kind.action store row)).2.objects := by
  cases hrow : engine.objects.row row with
  | error refusal =>
    rw [step_write_of_error functions hrow]
    exact .refl hs
  | ok r =>
    rw [row_eq_ok] at hrow
    rw [step_write functions hrow, attemptFlag_objects]
    cases hwritten : ((engine.objects.remove row).written functions store r kind).1 with
    | error refusal => exact leaves_removeRow hs hrow
    | ok objects' =>
      obtain ⟨goal, db, key, record?, hwriting, hw⟩ := written_eq_ok.1 hwritten
      have hremove : Alters (fun h => h = row ∨ h = store) engine.objects
          (engine.objects.remove row) := (alters_remove (outline?_of_get hrow)).mono fun _ => .inl
      have halters := alters_write hwriting.goes hw
      refine (hremove.trans (halters.mono fun _ => .inr)).leaves hs ?_ ?_
      · rintro _ ⟨⟩ object hget
        rw [hrow] at hget
        cases hget
        exact ⟨r, rfl⟩
      · rintro h (rfl | rfl) hheld
        · refine .inr ⟨rfl, ?_⟩
          show objects'.held? b h = none
          rw [halters.held?_eq (ne_of_target hwriting.goes), removed_held?]
        · exact absurd (hstore.held?_eq_none hab) hheld

/-- A lookup leaves everything but its row alone, and may make a row. -/
theorem leaves_lookup (hs : engine.objects.Sound) (store row : Handle) :
    Leaves b (some row) engine.objects (engine.lookup store row).2.objects := by
  cases hrow : engine.objects.row row with
  | error refusal =>
    unfold lookup consume
    rw [hrow]
    exact .refl hs
  | ok r =>
    have hrest := hs.removeRow hrow
    rw [row_eq_ok] at hrow
    have hleaves : Leaves b (some row) engine.objects (engine.objects.remove row) :=
      leaves_removeRow hs hrow
    rw [lookup_eq hrow]
    cases hfound : (engine.objects.remove row).lookupRow store r with
    | error refusal => exact hleaves
    | ok found =>
      obtain ⟨found?, objects'⟩ := found
      obtain ⟨goal, -, hfound⟩ := bind_eq_ok.1 hfound
      obtain ⟨db, -, hfound⟩ := bind_eq_ok.1 hfound
      obtain ⟨key, -, hfound⟩ := bind_eq_ok.1 hfound
      obtain ⟨record?, -, hfound⟩ := bind_eq_ok.1 hfound
      cases record? with
      | none =>
        cases hfound
        exact hleaves
      | some record =>
        cases hfound
        refine hleaves.addRow hs hrest ?_ rfl _
        rintro _ ⟨⟩ object hget
        rw [hrow] at hget
        cases hget
        exact ⟨r, rfl⟩

theorem destroy_objects (h : Handle) : (engine.destroy h).2.objects =
    (engine.objects.destroy h).toOption.getD engine.objects := attemptFlag_objects _

/-- Destroying a row leaves everything else alone. -/
theorem leaves_destroyRow (hs : engine.objects.Sound) (hrow : engine.objects.IsRow row) :
    Leaves b (some row) engine.objects (engine.destroy row).2.objects := by
  rw [destroy_objects]
  unfold Objects.destroy Objects.find
  cases hget : engine.objects.table.get? row with
  | none => exact .refl hs
  | some object =>
    obtain ⟨r, rfl⟩ := hrow object hget
    exact leaves_removeRow hs hget

/-- Giving up a transaction of another environment leaves everything alone. -/
theorem leaves_rollback (hs : engine.objects.Sound) (hab : a ≠ b)
    (hstore : engine.objects.IsStoreOf a store) :
    Leaves b none engine.objects (engine.destroy store).2.objects := by
  rw [destroy_objects]
  unfold Objects.destroy Objects.find
  cases hget : engine.objects.table.get? store with
  | none => exact .refl hs
  | some object =>
    have howner := hstore object hget
    cases object with
    | database db => exact .refl hs
    | transaction tx =>
      refine (alters_remove (outline?_of_get hget)).leaves hs nofun ?_
      rintro _ rfl hheld
      exact absurd (hstore.held?_eq_none hab) hheld
    | environment _ => cases howner
    | row _ => cases howner
    | cursor _ => cases howner

/-! ### Writes that are made one after the other -/

namespace Objects

variable {objects : Objects} {place : Place} {record? : Option Record} {d h : Handle} {db : Database}

/-- A write of what is there already changes nothing. -/
theorem writtenRecords_eq_self {records : Records} {key : Key}
    (hsame : records.get? key = record?) : writtenRecords records key record? = records := by
  refine Table.ext_get? fun key' => ?_
  rw [get?_writtenRecords]
  split
  · next heq => rw [heq, hsame]
  · rfl

/-- Whether a database is live. -/
def HasDatabase (objects : Objects) (d : Handle) : Prop :=
  ∃ db, objects.table.get? d = some (.database db)

theorem hasDatabase_put (hdb : objects.table.get? h = some (.database db)) (db' : Database) :
    (objects.put h (.database db')).HasDatabase d ↔ objects.HasDatabase d := by
  unfold HasDatabase
  rw [get?_put]
  split
  · next heq =>
    rw [heq, hdb]
    exact iff_of_true ⟨db', rfl⟩ ⟨db, rfl⟩
  · exact Iff.rfl

theorem alters_writeAll : ∀ (writes : List (Place × Option Record)) (objects : Objects),
    Alters objects.HasDatabase objects (writeAll writes objects).2
  | [], objects => .refl objects
  | (place, record?) :: writes, objects => by
    rw [writeAll]
    split
    · next objects' hwrite =>
      obtain ⟨db, hdb, -⟩ := bind_eq_ok.1 hwrite
      rw [database_eq_ok] at hdb
      rw [writeThrough_eq hdb, Except.ok.injEq] at hwrite
      subst hwrite
      have hfirst : Alters _ _ (objects.put place.db (.database { db with
          records := writtenRecords db.records place.key record? })) := alters_put hdb rfl rfl
      refine (hfirst.mono ?_).trans ((alters_writeAll writes _).mono fun d => ?_)
      · rintro _ rfl
        exact ⟨db, hdb⟩
      · exact (hasDatabase_put hdb _).1
    · exact .refl objects

/-- Writes leave a database alone if those of them that come to it write what it has. -/
theorem writeAll_get?_of_same : ∀ {writes : List (Place × Option Record)} {objects : Objects},
    objects.table.get? d = some (.database db) →
    (∀ made place record? rest, writes = made ++ (place, record?) :: rest →
      (∀ e ∈ made, objects.HasDatabase e.1.db) → place.db = d →
      db.records.get? place.key = record?) →
    (writeAll writes objects).2.table.get? d = some (.database db)
  | [], _, hdb, _ => hdb
  | (place, record?) :: writes, objects, hdb, hsame => by
    rw [writeAll]
    split
    · next objects' hwrite =>
      obtain ⟨own, hown, -⟩ := bind_eq_ok.1 hwrite
      rw [database_eq_ok] at hown
      rw [writeThrough_eq hown, Except.ok.injEq] at hwrite
      subst hwrite
      refine writeAll_get?_of_same ?_ fun made place' record' rest hwrites hmade hd => ?_
      · rw [get?_put]
        split
        · next heq =>
          subst heq
          rw [hdb, Option.some.injEq, Object.database.injEq] at hown
          subst hown
          rw [writtenRecords_eq_self (hsame [] _ _ _ rfl (List.forall_mem_nil _) rfl)]
        · exact hdb
      · refine hsame ((place, record?) :: made) place' record' rest (by rw [hwrites]; rfl) ?_ hd
        rw [List.forall_mem_cons]
        exact ⟨⟨own, hown⟩, fun e he => (hasDatabase_put hown _).1 (hmade e he)⟩
    · exact hdb

/-- Writes to other places leave a record alone. -/
theorem writeAll_record_of_notMem : ∀ {writes : List (Place × Option Record)} {objects : Objects}
    {db : Database}, place ∉ writes.map Prod.fst →
    objects.table.get? place.db = some (.database db) →
    ∃ db', (writeAll writes objects).2.table.get? place.db = some (.database db') ∧
      db'.records.get? place.key = db.records.get? place.key
  | [], _, db, _, hdb => ⟨db, hdb, rfl⟩
  | (place', record') :: writes, objects, db, hnot, hdb => by
    rw [List.map_cons, List.mem_cons, not_or] at hnot
    rw [writeAll]
    split
    · next objects' hwrite =>
      obtain ⟨own, hown, -⟩ := bind_eq_ok.1 hwrite
      rw [database_eq_ok] at hown
      rw [writeThrough_eq hown, Except.ok.injEq] at hwrite
      subst hwrite
      by_cases heq : place.db = place'.db
      · rw [← heq, hdb, Option.some.injEq, Object.database.injEq] at hown
        subst hown
        let written : Database := { db with
          records := writtenRecords db.records place'.key record' }
        have hthere : (objects.put place'.db (.database written)).table.get? place.db =
            some (.database written) := by rw [get?_put, if_pos heq]
        obtain ⟨db', hget, hrecord⟩ := writeAll_record_of_notMem hnot.2 hthere
        refine ⟨db', hget, hrecord.trans ?_⟩
        rw [get?_writtenRecords, if_neg]
        intro hkey
        exact hnot.1 (by cases place; cases place'; cases heq; cases hkey; rfl)
      · exact writeAll_record_of_notMem hnot.2 (by rw [get?_put, if_neg heq, hdb])
    · exact ⟨db, hdb, rfl⟩

/-- A write that is come to is made. -/
theorem writeAll_record {rest : List (Place × Option Record)} :
    ∀ {made : List (Place × Option Record)} {objects : Objects}, place ∉ rest.map Prod.fst →
    (∀ e ∈ made, objects.HasDatabase e.1.db) → objects.HasDatabase place.db →
    ∃ db', (writeAll (made ++ (place, record?) :: rest) objects).2.table.get? place.db =
      some (.database db') ∧ db'.records.get? place.key = record?
  | [], objects, hnot, _, ⟨db, hdb⟩ => by
    rw [List.nil_append, writeAll, writeThrough_eq hdb]
    let written : Database := { db with
      records := writtenRecords db.records place.key record? }
    have hthere : (objects.put place.db (.database written)).table.get? place.db =
        some (.database written) := by rw [get?_put, if_pos rfl]
    obtain ⟨db', hget, hrecord⟩ := writeAll_record_of_notMem hnot hthere
    refine ⟨db', hget, hrecord.trans ?_⟩
    rw [get?_writtenRecords, if_pos rfl]
  | e :: made, objects, hnot, hmade, hlands => by
    rw [List.forall_mem_cons] at hmade
    obtain ⟨⟨db, hdb⟩, hmade⟩ := hmade
    rw [List.cons_append, writeAll, writeThrough_eq hdb]
    exact writeAll_record hnot (fun e he => (hasDatabase_put hdb _).2 (hmade e he))
      ((hasDatabase_put hdb _).2 hlands)

end Objects

/-! ### Commits -/

/-- A commit is refused, or the transaction is gone and its writes are made. -/
theorem commit_objects (engine : Engine) (t : Handle) :
    ((engine.commit t).2.objects = engine.objects ∧
      ∀ tx, engine.objects.table.get? t = some (.transaction tx) →
        engine.objects.ensureOpened tx.env ≠ .ok ()) ∨
    ∃ tx, engine.objects.table.get? t = some (.transaction tx) ∧
      engine.objects.ensureOpened tx.env = .ok () ∧
      (engine.commit t).2.objects = (writeAll tx.writes.entries (engine.objects.remove t)).2 := by
  have hobjects : (engine.commit t).2.objects = (engine.objects.commit t).2 := by
    unfold commit
    split <;> next hresult => rw [hresult]
  rw [hobjects]
  unfold Objects.commit
  split
  · next refusal hchecked =>
    refine .inl ⟨rfl, fun tx htx hopen => ?_⟩
    rw [transaction_eq_ok.2 htx] at hchecked
    simp only [bind, Except.bind, hopen] at hchecked
    cases hchecked
  · next tx hchecked =>
    obtain ⟨tx', htx, hchecked⟩ := bind_eq_ok.1 hchecked
    obtain ⟨⟨⟩, hopen, hchecked⟩ := bind_eq_ok.1 hchecked
    obtain rfl : tx' = tx := Except.ok.inj hchecked
    exact .inr ⟨tx', transaction_eq_ok.1 htx, hopen, rfl⟩

/-- A commit makes a write that changes a record of the environment: the transaction is live and its
own environment opened, the databases of the writes before are live, and so is that of the write, which
is in the environment and has something else under the key. -/
inductive Objects.Crosses (objects : Objects) (b t : Handle) : Prop where
  | write {tx : Transaction} {made rest : List (Place × Option Record)} {place : Place}
    {record? : Option Record} {db : Database}
    (live : objects.table.get? t = some (.transaction tx))
    (opened : objects.ensureOpened tx.env = .ok ())
    (writes : tx.writes.entries = made ++ (place, record?) :: rest)
    (reached : ∀ e ∈ made, objects.HasDatabase e.1.db)
    (lands : objects.table.get? place.db = some (.database db))
    (owned : db.env = b)
    (differs : db.records.get? place.key ≠ record?)

theorem hasDatabase_removeTransaction {objects : Objects} {t d : Handle} {tx : Transaction}
    (htx : objects.table.get? t = some (.transaction tx)) :
    (objects.remove t).HasDatabase d ↔ objects.HasDatabase d := by
  unfold HasDatabase
  rw [get?_remove]
  split
  · next heq =>
    rw [heq, htx]
    exact iff_of_false (by rintro ⟨_, ⟨⟩⟩) (by rintro ⟨_, ⟨⟩⟩)
  · exact Iff.rfl

/-- A commit of another environment leaves alone what an environment has exactly if it makes no write
that changes a record there. -/
theorem leaves_commit_iff (hs : engine.objects.Sound) (hab : a ≠ b) {t : Handle}
    (hstore : engine.objects.IsStoreOf a t) :
    Leaves b none engine.objects (engine.commit t).2.objects ↔ ¬ engine.objects.Crosses b t := by
  rcases commit_objects engine t with ⟨hsame, hrefused⟩ | ⟨tx, htx, hopen, hcommit⟩
  · rw [hsame]
    refine iff_of_true (.refl hs) ?_
    rintro ⟨hlive, hopened, -⟩
    exact hrefused _ hlive hopened
  rw [hcommit]
  constructor
  · rintro hl ⟨hlive, -, hwrites, hreached, hlands, howned, hdiffers⟩
    cases htx.symm.trans hlive
    obtain ⟨db', hget, hrecord⟩ := writeAll_record (Table.notMem_of_entries_eq hwrites)
      (fun e he => (hasDatabase_removeTransaction htx).2 (hreached e he))
      ((hasDatabase_removeTransaction htx).2 ⟨_, hlands⟩)
    rw [← hwrites] at hget
    rcases hl.held _ (hs.live _ _ hlands).2 with hheld | ⟨⟨⟩, -⟩
    rw [held?_database.2 ⟨hlands, howned⟩, held?_database, hget, Option.some.injEq,
      Object.database.injEq] at hheld
    exact hdiffers (hheld.1 ▸ hrecord)
  · intro hnot
    have hremove : Alters (fun h => h = t ∨ engine.objects.HasDatabase h) engine.objects
        (engine.objects.remove t) := (alters_remove (outline?_of_get htx)).mono fun _ => .inl
    have hwrites := alters_writeAll tx.writes.entries (engine.objects.remove t)
    have halters := hremove.trans (hwrites.mono fun d hd =>
      .inr ((hasDatabase_removeTransaction htx).1 hd))
    refine halters.leaves hs nofun ?_
    rintro h (rfl | ⟨db, hdb⟩) hheld
    · exact absurd (hstore.held?_eq_none hab) hheld
    · have howned : db.env = b := by
        by_contra hne
        exact hheld (Objects.held?_eq_none.2 fun object hget howner => by
          rw [hdb] at hget
          cases hget
          exact hne (Option.some.inj howner))
      refine .inl ?_
      rw [held?_database.2 ⟨hdb, howned⟩, held?_database]
      refine ⟨writeAll_get?_of_same ?_ fun made place record? rest hentries hmade hd => ?_, howned⟩
      · rw [get?_remove, if_neg, hdb]
        rintro rfl
        rw [htx] at hdb
        cases hdb
      · subst hd
        by_contra hdiffers
        exact hnot ⟨htx, hopen, hentries,
          fun e he => (hasDatabase_removeTransaction htx).1 (hmade e he), hdb, howned, hdiffers⟩

end RowStore.Engine
