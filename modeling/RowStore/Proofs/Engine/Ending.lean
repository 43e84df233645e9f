/-
# What becomes of an environment

A handle stands for an object of one kind as long as the object lives, and for nothing afterwards. A
database, a cursor or a transaction stays one of its environment, a database keeps its fields, and a row
stays one of its database, with the cells that were set. What a call puts under a new handle it makes. So
an environment that is destroyed is gone for good, and with it all that it owned: an object is live only
while its environment is.

Key definitions: `Engine.Object.origin?`, `Engine.Object.Becomes`, `Engine.Objects.Evolves`,
`Engine.Objects.Steady`.
Key theorems: `Engine.Objects.Changes.evolves`, `Engine.steady_step`, `Engine.steady_run`,
`Engine.Objects.Sound.owned_eq_nil`, `Engine.gone_of_destroy`.
-/
import RowStore.Proofs.Engine.Titles

namespace RowStore.Engine

/-- What stands for another is of its kind. -/
theorem Object.Like.kind_eq : ∀ {object object' : Object}, object.Like object' →
    object.kind = object'.kind
  | .environment _, .environment _, _ => rfl
  | .database _, .database _, _ => rfl
  | .row _, .row _, _ => rfl
  | .cursor _, .cursor _, _ => rfl

/-- What an object was made as and the environment that it was made for. An environment is made for
none, and a row for a database. -/
def Object.origin? : Object → Option Title
  | .environment _ => none
  | .database db => some ⟨.database, db.env⟩
  | .row _ => none
  | .cursor c => some ⟨.cursor, c.env⟩
  | .transaction tx => some ⟨.transaction, tx.env⟩

theorem Object.Like.origin?_eq : ∀ {object object' : Object}, object.Like object' →
    object.origin? = object'.origin?
  | .environment _, .environment _, _ => rfl
  | .database _, .database _, hlike => by simp only [origin?, hlike.1]
  | .row _, .row _, _ => rfl
  | .cursor c, .cursor c', hlike => by
    have henv : c'.env = c.env := hlike
    simp only [origin?, henv]

/-- What an object can be later on: something of its kind and origin, a database with the same fields if
it is a database, and a row of the same database with no cell less if it is a row. -/
structure Object.Becomes (object object' : Object) : Prop where
  kind : object.kind = object'.kind
  origin : object.origin? = object'.origin?
  database : ∀ db', object' = .database db' →
    ∃ db, object = .database db ∧ db.env = db'.env ∧ db.fields = db'.fields
  row : ∀ r', object' = .row r' → ∃ r, object = .row r ∧ r.Grows r'

namespace Row.Grows

variable {r r' r'' : Row}

theorem refl (r : Row) : r.Grows r := ⟨rfl, fun _ hset => hset⟩

theorem trans (hg : r.Grows r') (hg' : r'.Grows r'') : r.Grows r'' :=
  ⟨hg'.db.trans hg.db, fun name hset => hg'.set name (hg.set name hset)⟩

end Row.Grows

namespace Object.Becomes

variable {object object' object'' : Object}

theorem refl (object : Object) : object.Becomes object :=
  ⟨rfl, rfl, fun db hdb => ⟨db, hdb, rfl, rfl⟩, fun r hr => ⟨r, hr, .refl r⟩⟩

theorem trans (hb : object.Becomes object') (hb' : object'.Becomes object'') :
    object.Becomes object'' where
  kind := hb.kind.trans hb'.kind
  origin := hb.origin.trans hb'.origin
  database db'' hdb'' := by
    obtain ⟨db', hdb', henv', hfields'⟩ := hb'.database db'' hdb''
    obtain ⟨db, hdb, henv, hfields⟩ := hb.database db' hdb'
    exact ⟨db, hdb, henv.trans henv', hfields.trans hfields'⟩
  row r'' hr'' := by
    obtain ⟨r', hr', hgrows'⟩ := hb'.row r'' hr''
    obtain ⟨r, hr, hgrows⟩ := hb.row r' hr'
    exact ⟨r, hr, hgrows.trans hgrows'⟩

theorem of_like (hlike : object.Like object') : object.Becomes object' := by
  refine ⟨hlike.kind_eq, hlike.origin?_eq, ?_, ?_⟩
  · rintro db' rfl
    cases object with
    | database db => exact ⟨db, rfl, hlike.1.symm, hlike.2.1.symm⟩
    | environment _ => cases hlike
    | row _ => cases hlike
    | cursor _ => cases hlike
    | transaction _ => cases hlike
  · rintro r' rfl
    cases object with
    | row r => exact ⟨r, rfl, hlike⟩
    | environment _ => cases hlike
    | database _ => cases hlike
    | cursor _ => cases hlike
    | transaction _ => cases hlike

theorem database_of_same {db db' : Database} (henv : db'.env = db.env)
    (hfields : db'.fields = db.fields) : (Object.database db).Becomes (.database db') := by
  refine ⟨rfl, by simp only [origin?, henv], ?_, nofun⟩
  rintro _ ⟨⟩
  exact ⟨db, rfl, henv.symm, hfields.symm⟩

theorem transaction_of_same {tx tx' : Transaction} (henv : tx'.env = tx.env) :
    (Object.transaction tx).Becomes (.transaction tx') :=
  ⟨rfl, by simp only [origin?, henv], nofun, nofun⟩

end Object.Becomes

namespace Objects

variable {objects objects' objects'' : Objects} {h e : Handle}

/-! ### One call -/

/-- What is live was live before, as what it could become, or has been made since. -/
structure Evolves (makes : Object → Prop) (objects objects' : Objects) : Prop where
  issued : objects.issued ≤ objects'.issued
  becomes : ∀ h object', objects'.table.get? h = some object' →
    (∃ object, objects.table.get? h = some object ∧ object.Becomes object') ∨
      (objects.issued < h ∧ ∃ object, makes object ∧ object.Becomes object')

section Evolves

variable {makes : Object → Prop}

theorem Evolves.refl (objects : Objects) : objects.Evolves makes objects :=
  ⟨Nat.le_refl _, fun _ object hget => .inl ⟨object, hget, .refl object⟩⟩

theorem Evolves.trans (he : objects.Evolves makes objects') (he' : objects'.Evolves makes objects'') :
    objects.Evolves makes objects'' where
  issued := Nat.le_trans he.issued he'.issued
  becomes h object'' hget'' := by
    rcases he'.becomes h object'' hget'' with ⟨object', hget', hbecomes'⟩ | ⟨hnew, hmade⟩
    · rcases he.becomes h object' hget' with ⟨object, hget, hbecomes⟩ | ⟨hnew, object, hmakes, hmade⟩
      · exact .inl ⟨object, hget, hbecomes.trans hbecomes'⟩
      · exact .inr ⟨hnew, object, hmakes, hmade.trans hbecomes'⟩
    · exact .inr ⟨Nat.lt_of_le_of_lt he.issued hnew, hmade⟩

theorem evolves_add {object : Object} (hmakes : makes object) :
    objects.Evolves makes (objects.add object).2 where
  issued := Nat.le_succ _
  becomes h object' hget := by
    rw [get?_add] at hget
    split at hget
    · next heq =>
      cases hget
      exact .inr ⟨heq ▸ Nat.lt_succ_self _, object, hmakes, .refl object⟩
    · exact .inl ⟨object', hget, .refl object'⟩

theorem evolves_put {old object : Object} (hold : objects.table.get? h = some old)
    (hbecomes : old.Becomes object) : objects.Evolves makes (objects.put h object) where
  issued := Nat.le_refl _
  becomes h' object' hget := by
    rw [get?_put] at hget
    split at hget
    · next heq =>
      cases hget
      exact .inl ⟨old, heq ▸ hold, hbecomes⟩
    · exact .inl ⟨object', hget, .refl object'⟩

theorem evolves_of_subset (hissued : objects'.issued = objects.issued)
    (hsub : ∀ h object, objects'.table.get? h = some object → objects.table.get? h = some object) :
    objects.Evolves makes objects' :=
  ⟨Nat.le_of_eq hissued.symm, fun h object hget => .inl ⟨object, hsub h object hget, .refl object⟩⟩

theorem evolves_remove (objects : Objects) (h : Handle) :
    objects.Evolves makes (objects.remove h) :=
  evolves_of_subset rfl fun h' object hget => by
    rw [get?_remove] at hget
    split at hget
    · cases hget
    · exact hget

theorem Moves.evolves {advances destroys : Handle → Prop}
    (hm : Moves advances destroys makes objects objects') : objects.Evolves makes objects' := by
  induction hm with
  | refl => exact .refl objects
  | add _ _ hmade ih => exact ih.trans (evolves_add hmade)
  | put _ hlive hlike _ ih => exact ih.trans (evolves_put hlive (.of_like hlike))
  | remove _ _ _ ih => exact ih.trans (evolves_remove _ _)
  | destroy _ _ ih =>
    exact ih.trans (evolves_of_subset rfl fun _ _ hget => (get?_filter.1 hget).1)

theorem evolves_writeThrough {place : Place} {record? : Option Record}
    (hw : objects.writeThrough place record? = .ok objects') : objects.Evolves makes objects' := by
  obtain ⟨db, hdb, hw⟩ := bind_eq_ok.1 hw
  cases hw
  exact evolves_put (database_eq_ok.1 hdb) (.database_of_same rfl rfl)

theorem evolves_write {target : Store} {place : Place} {record? : Option Record}
    (hw : objects.write target place record? = .ok objects') : objects.Evolves makes objects' := by
  cases target with
  | database d => exact evolves_writeThrough hw
  | transaction t =>
    obtain ⟨tx, htx, hw⟩ := bind_eq_ok.1 hw
    cases hw
    exact evolves_put (transaction_eq_ok.1 htx) (.transaction_of_same rfl)

theorem evolves_writeAll : ∀ (writes : List (Place × Option Record)) {objects : Objects},
    objects.Evolves makes (writeAll writes objects).2
  | [], objects => .refl objects
  | (place, record?) :: writes, objects => by
    rw [writeAll]
    split
    · next hw => exact (evolves_writeThrough hw).trans (evolves_writeAll writes)
    · exact .refl objects

end Evolves

/-- What a call puts under a new handle it makes; everything else comes from what was there. -/
theorem Changes.evolves {functions : Hook → MergeFn} {kind : AnswerKind} {action : Action kind}
    (hc : objects.Changes functions action objects') : objects.Evolves action.makes objects' := by
  cases hc with
  | moved hm => exact hm.evolves
  | written _ _ hmade => exact (evolves_remove _ _).trans (evolves_write hmade)
  | committed _ => exact (evolves_remove _ _).trans (evolves_writeAll _)

/-! ### What handles stand for -/

/-- A handle that was issued stands for no object, or for what the one it stood for can be later on. -/
structure Steady (objects objects' : Objects) : Prop where
  issued : objects.issued ≤ objects'.issued
  becomes : ∀ h, h ≤ objects.issued → ∀ object', objects'.table.get? h = some object' →
    ∃ object, objects.table.get? h = some object ∧ object.Becomes object'

theorem Evolves.steady {makes : Object → Prop} (he : objects.Evolves makes objects') :
    objects.Steady objects' where
  issued := he.issued
  becomes h hle object' hget' :=
    (he.becomes h object' hget').resolve_right fun ⟨hnew, _⟩ => Nat.not_lt_of_le hle hnew

namespace Steady

theorem refl (objects : Objects) : objects.Steady objects :=
  ⟨Nat.le_refl _, fun _ _ object hget => ⟨object, hget, .refl object⟩⟩

theorem trans (hs : objects.Steady objects') (hs' : objects'.Steady objects'') :
    objects.Steady objects'' where
  issued := Nat.le_trans hs.issued hs'.issued
  becomes h hle object'' hget'' := by
    obtain ⟨object', hget', hbecomes'⟩ := hs'.becomes h (Nat.le_trans hle hs.issued) object'' hget''
    obtain ⟨object, hget, hbecomes⟩ := hs.becomes h hle object' hget'
    exact ⟨object, hget, hbecomes.trans hbecomes'⟩

/-- What is live stands for something of the kind that there was. -/
theorem kind (hs : objects.Steady objects') (h : Handle) (hle : h ≤ objects.issued) (object' : Object)
    (hget' : objects'.table.get? h = some object') :
    ∃ object, objects.table.get? h = some object ∧ object.kind = object'.kind := by
  obtain ⟨object, hget, hbecomes⟩ := hs.becomes h hle object' hget'
  exact ⟨object, hget, hbecomes.kind⟩

/-- A database that is still live is of its environment and has its fields. -/
theorem database (hs : objects.Steady objects') {db : Database} (hle : h ≤ objects.issued)
    (hget : objects.table.get? h = some (.database db)) {object' : Object}
    (hget' : objects'.table.get? h = some object') :
    ∃ db', object' = .database db' ∧ db'.env = db.env ∧ db'.fields = db.fields := by
  obtain ⟨object, hobject, hkind, -, hdatabase, -⟩ := hs.becomes h hle object' hget'
  rw [hget] at hobject
  cases hobject
  cases object' with
  | database db' =>
    obtain ⟨own, hown, henv, hfields⟩ := hdatabase db' rfl
    cases hown
    exact ⟨db', rfl, henv.symm, hfields.symm⟩
  | environment _ => cases hkind
  | row _ => cases hkind
  | cursor _ => cases hkind
  | transaction _ => cases hkind

/-- A row that is still live is one of its database, with the cells that were set. -/
theorem row (hs : objects.Steady objects') (hle : h ≤ objects.issued) {r' : Row}
    (hget' : objects'.table.get? h = some (.row r')) :
    ∃ r, objects.table.get? h = some (.row r) ∧ r.Grows r' := by
  obtain ⟨object, hget, hbecomes⟩ := hs.becomes h hle _ hget'
  obtain ⟨r, rfl, hgrows⟩ := hbecomes.row r' rfl
  exact ⟨r, hget, hgrows⟩

/-- What is gone stays gone. -/
theorem gone (hs : objects.Steady objects') (hle : h ≤ objects.issued)
    (hgone : objects.table.get? h = none) : objects'.table.get? h = none := by
  cases hget' : objects'.table.get? h with
  | none => rfl
  | some object' =>
    obtain ⟨object, hget, -⟩ := hs.kind h hle object' hget'
    rw [hgone] at hget
    cases hget

end Steady

/-! ### Owners -/

/-- An environment that is not live owns nothing. -/
theorem Sound.owned_eq_nil (hs : objects.Sound) (hgone : objects.table.get? e = none) :
    objects.owned e = [] := by
  have henv : ∀ {env : Environment}, objects.table.get? e ≠ some (.environment env) := fun hget => by
    rw [hgone] at hget
    cases hget
  have hdatabase : ∀ {d : Handle}, objects.title? d ≠ some ⟨.database, e⟩ := fun {d} htitle => by
    obtain ⟨db, hdb, rfl⟩ := title?_eq_database.1 htitle
    obtain ⟨env, hlive⟩ := outline?_eq_environment (hs.sound d _ hdb).1
    exact henv hlive
  refine List.eq_nil_iff_forall_not_mem.2 fun ⟨h, kind⟩ hmem => ?_
  have htitle := mem_owned.1 hmem
  cases kind with
  | environment =>
    obtain ⟨rfl, env, hlive⟩ := title?_eq_environment.1 htitle
    exact henv hlive
  | database => exact hdatabase htitle
  | row =>
    obtain ⟨r, -, hdb⟩ := title?_eq_row.1 htitle
    exact hdatabase hdb
  | cursor =>
    obtain ⟨c, hc, rfl⟩ := title?_eq_cursor.1 htitle
    obtain ⟨env, hlive⟩ := outline?_eq_environment (hs.sound h _ hc)
    exact henv hlive
  | transaction =>
    obtain ⟨tx, htx, rfl⟩ := title?_eq_transaction.1 htitle
    obtain ⟨env, hlive⟩ := outline?_eq_environment (hs.sound h _ htx).1
    exact henv hlive

/-! ### Destruction -/

/-- What is destroyed is gone. -/
theorem get?_destroy (hd : objects.destroy h = .ok objects') : objects'.table.get? h = none := by
  obtain ⟨env, hget, rfl⟩ | ⟨object, -, -, rfl⟩ := destroy_eq_ok.1 hd
  · cases hfound : (objects.table.filter fun h' object =>
        objects.owner? h' object != some h).get? h with
    | none => rfl
    | some object =>
      obtain ⟨hlive, hkept⟩ := get?_filter.1 hfound
      rw [hget] at hlive
      cases hlive
      simp [owner?] at hkept
  · rw [get?_remove, if_pos rfl]

/-- What is left when something is destroyed was there before. -/
theorem get?_of_destroy {h' : Handle} {object : Object} (hd : objects.destroy h = .ok objects')
    (hget' : objects'.table.get? h' = some object) : objects.table.get? h' = some object := by
  obtain ⟨env, -, rfl⟩ | ⟨destroyed, -, -, rfl⟩ := destroy_eq_ok.1 hd
  · exact (get?_filter.1 hget').1
  · rw [get?_remove] at hget'
    split at hget'
    · cases hget'
    · exact hget'

/-- Only what is not live is refused to be destroyed, and databases. -/
theorem get?_of_destroy_error {refusal : Refusal} (hd : objects.destroy h = .error refusal)
    (hkind : ∀ object, objects.table.get? h = some object → object.kind = .environment) :
    objects.table.get? h = none := by
  cases hget : objects.table.get? h with
  | none => rfl
  | some object =>
    have henv := hkind object hget
    cases object <;> cases henv
    rw [destroy_eq_ok.2 (.inl ⟨_, hget, rfl⟩)] at hd
    cases hd

end Objects

/-- No call brings an object back or puts one of another kind in its place. -/
theorem steady_step {engine : Engine} (hs : engine.objects.Sound) (functions : Hook → MergeFn)
    {kind : AnswerKind} (action : Action kind) :
    engine.objects.Steady (engine.step functions action).2.objects :=
  (changes_step hs functions action).evolves.steady

/-- No run of calls does. -/
theorem steady_run {engine : Engine} (hr : engine.Reachable) : ∀ requests : List Request,
    engine.objects.Steady (engine.run requests).objects := by
  intro requests
  induction requests generalizing engine with
  | nil => exact .refl engine.objects
  | cons request requests ih =>
    have hfirst := steady_step hr.sound request.functions request.action
    exact hfirst.trans (ih (hr.step request.functions request.action))

/-- An environment that a client destroys is gone, also if this is refused. -/
theorem gone_of_destroy {engine : Engine} {e : Handle}
    (hkind : ∀ object, engine.objects.table.get? e = some object → object.kind = .environment) :
    (engine.destroy e).2.objects.table.get? e = none := by
  show (engine.attemptFlag (engine.objects.destroy e)).2.objects.table.get? e = none
  rw [attemptFlag_objects]
  cases hd : engine.objects.destroy e with
  | ok objects => exact Objects.get?_destroy hd
  | error refusal => exact Objects.get?_of_destroy_error hd hkind

end RowStore.Engine
