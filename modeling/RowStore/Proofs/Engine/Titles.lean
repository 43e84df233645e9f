/-
# What objects are, and whose

The title of a live object is its kind and the environment that owns it. Replacing an object by one of
its like changes no title; adding or removing an object gives or takes its own; destroying an
environment takes the titles of all that it owns. Objects keep to their environment if cursors scan
databases of their own environment and transactions, of opened environments, write to databases of their
own.

Key definitions: `Engine.Title`, `Engine.Objects.title?`, `Engine.Objects.owned`,
`Engine.Objects.Homely`, `Engine.Objects.Retitles`.
Key theorems: `Engine.Objects.retitles_put`, `Engine.Objects.retitles_add`,
`Engine.Objects.retitles_remove`, `Engine.Objects.retitles_close`.
-/
import RowStore.Proofs.Engine.Isolation

namespace RowStore.Engine

/-- The kinds of objects. -/
inductive Kind where
  | environment
  | database
  | row
  | cursor
  | transaction
  deriving DecidableEq, Repr

/-- The kind of an object. -/
def Object.kind : Object → Kind
  | .environment _ => .environment
  | .database _ => .database
  | .row _ => .row
  | .cursor _ => .cursor
  | .transaction _ => .transaction

/-- What an object is, and the environment that owns it. -/
structure Title where
  kind : Kind
  env : Handle
  deriving DecidableEq

namespace Objects

variable {objects objects' objects'' : Objects} {h e : Handle}

/-- The title of the live object of a handle. -/
def title? (objects : Objects) (h : Handle) : Option Title :=
  (objects.table.get? h).bind fun object => (objects.owner? h object).map (Title.mk object.kind)

theorem title?_of_get {object : Object} (hget : objects.table.get? h = some object) :
    objects.title? h = (objects.owner? h object).map (Title.mk object.kind) := by
  rw [title?, hget, Option.bind_some]

theorem title?_eq_some {title : Title} : objects.title? h = some title ↔
    ∃ object, objects.table.get? h = some object ∧ object.kind = title.kind ∧
      objects.owner? h object = some title.env := by
  obtain ⟨kind, env⟩ := title
  simp only [title?, Option.bind_eq_some_iff, Option.map_eq_some_iff, Title.mk.injEq]
  constructor
  · rintro ⟨object, hget, owner, howner, hkind, rfl⟩
    exact ⟨object, hget, hkind, howner⟩
  · rintro ⟨object, hget, hkind, howner⟩
    exact ⟨object, hget, env, howner, hkind, rfl⟩

/-- The title of a kind is that of an object of the kind. -/
theorem title?_eq_of_kind {α : Type} {kind : Kind} (make : α → Object)
    (hkind : ∀ object, object.kind = kind ↔ ∃ a, object = make a) :
    objects.title? h = some ⟨kind, e⟩ ↔
      ∃ a, objects.table.get? h = some (make a) ∧ objects.owner? h (make a) = some e := by
  rw [title?_eq_some]
  constructor
  · rintro ⟨object, hget, hobject, howner⟩
    obtain ⟨a, rfl⟩ := (hkind object).1 hobject
    exact ⟨a, hget, howner⟩
  · rintro ⟨a, hget, howner⟩
    exact ⟨make a, hget, (hkind _).2 ⟨a, rfl⟩, howner⟩

theorem title?_eq_environment : objects.title? h = some ⟨.environment, e⟩ ↔
    h = e ∧ ∃ env, objects.table.get? h = some (.environment env) := by
  rw [title?_eq_of_kind Object.environment fun object => by cases object <;> simp [Object.kind]]
  simp [owner?, and_comm]

theorem title?_eq_database : objects.title? h = some ⟨.database, e⟩ ↔
    ∃ db : Database, objects.table.get? h = some (.database db) ∧ db.env = e := by
  rw [title?_eq_of_kind Object.database fun object => by cases object <;> simp [Object.kind]]
  simp [owner?]

theorem title?_eq_cursor : objects.title? h = some ⟨.cursor, e⟩ ↔
    ∃ cursor : Cursor, objects.table.get? h = some (.cursor cursor) ∧ cursor.env = e := by
  rw [title?_eq_of_kind Object.cursor fun object => by cases object <;> simp [Object.kind]]
  simp [owner?]

theorem title?_eq_transaction : objects.title? h = some ⟨.transaction, e⟩ ↔
    ∃ tx : Transaction, objects.table.get? h = some (.transaction tx) ∧ tx.env = e := by
  rw [title?_eq_of_kind Object.transaction fun object => by cases object <;> simp [Object.kind]]
  simp [owner?]

/-- A row belongs to the environment of its database. -/
theorem owner?_row_eq_some {r : Row} : objects.owner? h (.row r) = some e ↔
    objects.title? r.db = some ⟨.database, e⟩ := by
  rw [title?_eq_database]
  simp only [owner?]
  constructor
  · intro howner
    split at howner
    · next db hget => exact ⟨db, hget, Option.some.inj howner⟩
    · cases howner
  · rintro ⟨db, hget, rfl⟩
    rw [hget]

theorem title?_eq_row : objects.title? h = some ⟨.row, e⟩ ↔
    ∃ r : Row, objects.table.get? h = some (.row r) ∧
      objects.title? r.db = some ⟨.database, e⟩ := by
  rw [title?_eq_of_kind Object.row fun object => by cases object <;> simp [Object.kind]]
  simp only [owner?_row_eq_some]

/-- Whatever is live has a title. -/
theorem Sound.title (hs : objects.Sound) {object : Object}
    (hget : objects.table.get? h = some object) : ∃ title, objects.title? h = some title := by
  suffices howner : ∃ e, objects.owner? h object = some e by
    obtain ⟨e, howner⟩ := howner
    exact ⟨⟨object.kind, e⟩, title?_eq_some.2 ⟨object, hget, rfl, howner⟩⟩
  cases object with
  | row r =>
    obtain ⟨env, name, fields, houtline, -⟩ := hs.sound h _ hget
    exact ⟨env, by rw [owner?_row, houtline]; rfl⟩
  | environment _ => exact ⟨_, rfl⟩
  | database _ => exact ⟨_, rfl⟩
  | cursor _ => exact ⟨_, rfl⟩
  | transaction _ => exact ⟨_, rfl⟩

theorem Sound.title?_eq_none (hs : objects.Sound) :
    objects.title? h = none ↔ objects.table.get? h = none := by
  constructor
  · intro hnone
    cases hget : objects.table.get? h with
    | none => rfl
    | some object =>
      obtain ⟨title, htitle⟩ := hs.title hget
      rw [hnone] at htitle
      cases htitle
  · intro hnone
    rw [title?, hnone, Option.bind_none]

/-- The handles of the live objects that an environment owns, and what they are. -/
def owned (objects : Objects) (e : Handle) : List (Handle × Kind) :=
  objects.table.entries.filterMap fun entry =>
    if objects.owner? entry.1 entry.2 = some e then some (entry.1, entry.2.kind) else none

theorem mem_owned {kind : Kind} : (h, kind) ∈ objects.owned e ↔ objects.title? h = some ⟨kind, e⟩ := by
  rw [owned, List.mem_filterMap, title?_eq_some]
  constructor
  · rintro ⟨⟨h', object⟩, hm, hentry⟩
    split at hentry
    · next howner =>
      cases hentry
      exact ⟨object, Table.get?_eq_some_iff.2 hm, rfl, howner⟩
    · cases hentry
  · rintro ⟨object, hget, rfl, howner⟩
    exact ⟨(h, object), Table.get?_eq_some_iff.1 hget, if_pos howner⟩

theorem nodup_owned (objects : Objects) (e : Handle) : (objects.owned e).Nodup := by
  rw [List.Nodup, owned, List.pairwise_filterMap]
  refine objects.table.sorted.imp fun {entry entry'} hlt pair hpair pair' hpair' heq => ?_
  have hfst : ∀ {entry : Handle × Object} {pair : Handle × Kind},
      (if objects.owner? entry.1 entry.2 = some e then some (entry.1, entry.2.kind) else none) =
        some pair → pair.1 = entry.1 := fun h => by
    split at h
    · cases h
      rfl
    · cases h
  rw [← hfst hpair, ← hfst hpair', heq] at hlt
  simp [Std.ReflCmp.compare_self] at hlt

end Objects

/-! ### Objects that keep to their environment -/

/-- An object keeps to its environment: a cursor scans a database of its own, and a transaction, whose
environment is opened, writes to databases of its own. -/
def Object.HomelyIn (objects : Objects) : Object → Prop
  | .cursor c => ∀ seek, c.progress = .scanning seek →
      objects.title? seek.db = some ⟨.database, c.env⟩
  | .transaction tx => objects.ensureOpened tx.env = .ok () ∧
      ∀ place record?, tx.writes.get? place = some record? →
        objects.title? place.db = some ⟨.database, tx.env⟩
  | _ => True

/-- All objects keep to their environments. -/
def Objects.Homely (objects : Objects) : Prop :=
  ∀ h object, objects.table.get? h = some object → object.HomelyIn objects

/-- What objects of an environment rely on is kept: its databases, and that it is opened. -/
structure Objects.Hosts (e : Handle) (objects objects' : Objects) : Prop where
  database : ∀ d, objects.title? d = some ⟨.database, e⟩ → objects'.title? d = some ⟨.database, e⟩
  opened : objects.ensureOpened e = .ok () → objects'.ensureOpened e = .ok ()

theorem Object.HomelyIn.mono {objects objects' : Objects} {object : Object}
    (ho : object.HomelyIn objects) (h : Handle)
    (hosts : ∀ e, objects.owner? h object = some e → objects.Hosts e objects') :
    object.HomelyIn objects' := by
  cases object with
  | cursor c => exact fun seek hseek => (hosts c.env rfl).database _ (ho seek hseek)
  | transaction tx =>
    exact ⟨(hosts tx.env rfl).opened ho.1, fun place record? hwrite =>
      (hosts tx.env rfl).database _ (ho.2 place record? hwrite)⟩
  | environment _ => trivial
  | database _ => trivial
  | row _ => trivial

/-- The titles that there are afterwards, and that objects keep to their environments if they did. -/
structure Objects.Retitles (issued : Nat) (titles : Handle → Option Title)
    (objects objects' : Objects) : Prop where
  issued : objects'.issued = issued
  titles : objects'.title? = titles
  homely : objects.Homely → objects'.Homely

namespace Objects

variable {objects objects' objects'' : Objects} {h e : Handle}

theorem Retitles.refl (objects : Objects) :
    objects.Retitles objects.issued objects.title? objects := ⟨rfl, rfl, id⟩

theorem Retitles.trans {issued issued' : Nat} {titles titles' : Handle → Option Title}
    (hr : objects.Retitles issued titles objects') (hr' : objects'.Retitles issued' titles' objects'') :
    objects.Retitles issued' titles' objects'' :=
  ⟨hr'.issued, hr'.titles, fun hh => hr'.homely (hr.homely hh)⟩

/-! ### The changes of a table -/

/-- An object that can take the place of another: it is of the kind, the outline and the owner, and
opened if the other was. -/
structure Succeeds (objects : Objects) (h : Handle) (old object : Object) : Prop where
  kind : object.kind = old.kind
  outline : object.outline? = old.outline?
  owner : objects.owner? h object = objects.owner? h old
  opened : ∀ env, old = .environment env → env.opened = true →
    ∃ env', object = .environment env' ∧ env'.opened = true

/-- Replacing an object changes no title. -/
theorem retitles_put {old object : Object} (hold : objects.table.get? h = some old)
    (hsucceeds : objects.Succeeds h old object) (hhome : objects.Homely → object.HomelyIn objects) :
    objects.Retitles objects.issued objects.title? (objects.put h object) := by
  have htitles : (objects.put h object).title? = objects.title? := by
    funext h'
    by_cases heq : h' = h
    · subst heq
      rw [title?_of_get hold, title?_of_get ((get?_put ..).trans (if_pos rfl)),
        owner?_congr (outline?_put hold hsucceeds.outline), hsucceeds.owner, hsucceeds.kind]
    · simp only [title?, get?_put, if_neg heq, owner?_congr (outline?_put hold hsucceeds.outline)]
  have hosts : ∀ e, objects.Hosts e (objects.put h object) := fun e => by
    refine ⟨fun d hd => by rw [htitles, hd], fun hopen => ?_⟩
    obtain ⟨env, henv, hopened⟩ := ensureOpened_eq_ok.1 hopen
    rw [ensureOpened_eq_ok]
    by_cases heq : e = h
    · subst heq
      rw [hold, Option.some.injEq] at henv
      obtain ⟨env', hobject, hopened'⟩ := hsucceeds.opened env henv hopened
      exact ⟨env', by rw [get?_put, if_pos rfl, hobject], hopened'⟩
    · exact ⟨env, by rw [get?_put, if_neg heq, henv], hopened⟩
  refine ⟨rfl, htitles, fun hh h' object' hget => ?_⟩
  rw [get?_put] at hget
  split at hget
  · cases hget
    exact (hhome hh).mono h fun e _ => hosts e
  · exact (hh h' object' hget).mono h' fun e _ => hosts e

/-- Removing an object that no other relies on takes its title. -/
theorem retitles_remove (hnone : objects.outline? h = none) :
    objects.Retitles objects.issued (Function.update objects.title? h none) (objects.remove h) := by
  have hsame := (alters_remove hnone).outline
  have htitles : (objects.remove h).title? = Function.update objects.title? h none := by
    funext h'
    by_cases heq : h' = h
    · subst heq
      rw [Function.update_self, title?, get?_remove, if_pos rfl, Option.bind_none]
    · rw [Function.update_of_ne heq]
      simp only [title?, get?_remove, if_neg heq, owner?_congr hsame]
  have hosts : ∀ e, objects.Hosts e (objects.remove h) := fun e => by
    constructor
    · intro d hd
      obtain ⟨db, hdb, -⟩ := title?_eq_database.1 hd
      rw [htitles, Function.update_of_ne, hd]
      rintro rfl
      rw [outline?_of_database hdb] at hnone
      cases hnone
    · intro hopen
      obtain ⟨env, henv, hopened⟩ := ensureOpened_eq_ok.1 hopen
      refine ensureOpened_eq_ok.2 ⟨env, ?_, hopened⟩
      rw [get?_remove, if_neg, henv]
      rintro rfl
      rw [outline?_of_get henv] at hnone
      cases hnone
  refine ⟨rfl, htitles, fun hh h' object' hget => ?_⟩
  rw [get?_remove] at hget
  split at hget
  · cases hget
  · exact (hh h' object' hget).mono h' fun e _ => hosts e

theorem retitles_removeRow {row : Handle} {r : Row} (hrow : objects.table.get? row = some (.row r)) :
    objects.Retitles objects.issued (Function.update objects.title? row none)
      (objects.remove row) := retitles_remove (outline?_of_get hrow)

/-- The owner of an object is found when the object has been added. -/
theorem owner?_add (hs : objects.Sound) {object other : Object}
    (ho : objects.owner? h object = some e) : (objects.add other).2.owner? h object = some e := by
  cases object with
  | row r =>
    rw [owner?_row] at ho ⊢
    obtain ⟨outline, houtline, henv⟩ := Option.bind_eq_some_iff.1 ho
    rw [hs.outline (keeps_add _) houtline, Option.bind_some, henv]
  | environment _ => exact ho
  | database _ => exact ho
  | cursor _ => exact ho
  | transaction _ => exact ho

/-- What is live keeps its title when an object is added. -/
theorem title?_add (hs : objects.Sound) {object : Object} (hne : h ≠ objects.issued + 1) :
    (objects.add object).2.title? h = objects.title? h := by
  have hget : (objects.add object).2.table.get? h = objects.table.get? h := by
    rw [get?_add, if_neg hne]
  cases htitle : objects.title? h with
  | none =>
    rw [hs.title?_eq_none] at htitle
    rw [title?, hget, htitle, Option.bind_none]
  | some title =>
    obtain ⟨other, hlive, hkind, ho⟩ := title?_eq_some.1 htitle
    exact title?_eq_some.2 ⟨other, hget.trans hlive, hkind, owner?_add hs ho⟩

theorem hosts_add (hs : objects.Sound) (object : Object) (e : Handle) :
    objects.Hosts e (objects.add object).2 where
  database d hd := by
    rw [title?_add hs, hd]
    rintro rfl
    rw [hs.title?_eq_none.2 hs.fresh] at hd
    cases hd
  opened hopen := by
    obtain ⟨env, henv, hopened⟩ := ensureOpened_eq_ok.1 hopen
    exact ensureOpened_eq_ok.2 ⟨env, hs.get?_add henv object, hopened⟩

/-- An object that is added has its title under the next handle. -/
theorem retitles_add (hs : objects.Sound) (object : Object)
    (howner : objects.owner? (objects.issued + 1) object = some e)
    (hhome : objects.Homely → object.HomelyIn objects) :
    objects.Retitles (objects.issued + 1)
      (Function.update objects.title? (objects.issued + 1) (some ⟨object.kind, e⟩))
      (objects.add object).2 := by
  have hnew : (objects.add object).2.table.get? (objects.issued + 1) = some object := by
    rw [get?_add, if_pos rfl]
  have htitles : (objects.add object).2.title? =
      Function.update objects.title? (objects.issued + 1) (some ⟨object.kind, e⟩) := by
    funext h
    by_cases heq : h = objects.issued + 1
    · subst heq
      rw [Function.update_self, title?_of_get hnew, owner?_add hs howner]
      rfl
    · rw [Function.update_of_ne heq, title?_add hs heq]
  refine ⟨rfl, htitles, fun hh h other hget => ?_⟩
  rw [get?_add] at hget
  split at hget
  · cases hget
    exact (hhome hh).mono (objects.issued + 1) fun e _ => hosts_add hs object e
  · exact (hh h other hget).mono h fun e _ => hosts_add hs object e

/-! ### What an environment leaves behind -/

/-- What is left are the objects that the environment does not own. -/
def Sheds (objects : Objects) (e : Handle) (rest : Objects) : Prop :=
  ∀ h object, rest.table.get? h = some object ↔
    objects.table.get? h = some object ∧ objects.owner? h object ≠ some e

section Sheds

variable {rest : Objects} {e' : Handle}

theorem Sheds.title?_database (hl : objects.Sheds e rest) (hne : e' ≠ e) {d : Handle}
    (hd : objects.title? d = some ⟨.database, e'⟩) : rest.title? d = some ⟨.database, e'⟩ := by
  obtain ⟨db, hdb, rfl⟩ := title?_eq_database.1 hd
  exact title?_eq_database.2 ⟨db, (hl d _).2 ⟨hdb, fun h => hne (Option.some.inj h)⟩, rfl⟩

theorem Sheds.owner? (hl : objects.Sheds e rest) (hne : e' ≠ e) {object : Object}
    (ho : objects.owner? h object = some e') : rest.owner? h object = some e' := by
  cases object with
  | row r => exact owner?_row_eq_some.2 (hl.title?_database hne (owner?_row_eq_some.1 ho))
  | environment _ => exact ho
  | database _ => exact ho
  | cursor _ => exact ho
  | transaction _ => exact ho

theorem Sheds.hosts (hl : objects.Sheds e rest) (hne : e' ≠ e) : objects.Hosts e' rest where
  database _ := hl.title?_database hne
  opened hopen := by
    obtain ⟨env, henv, hopened⟩ := ensureOpened_eq_ok.1 hopen
    exact ensureOpened_eq_ok.2 ⟨env, (hl _ _).2 ⟨henv, fun h => hne (Option.some.inj h)⟩, hopened⟩

theorem Sheds.titles (hs : objects.Sound) (hl : objects.Sheds e rest) :
    rest.title? = fun h => (objects.title? h).filter (·.env != e) := by
  funext h
  cases htitle : objects.title? h with
  | none =>
    rw [Option.filter_none, title?, Option.bind_eq_none_iff]
    intro object hobject
    rw [hs.title?_eq_none, ((hl _ _).1 hobject).1] at htitle
    cases htitle
  | some title =>
    obtain ⟨object, hobject, hkind, ho⟩ := title?_eq_some.1 htitle
    by_cases heq : title.env = e
    · rw [Option.filter_some, if_neg (by simp [heq]), title?, Option.bind_eq_none_iff]
      intro other hother
      obtain ⟨hother, hne⟩ := (hl _ _).1 hother
      rw [hobject, Option.some.injEq] at hother
      exact absurd (heq ▸ hother ▸ ho) hne
    · have hne : objects.owner? h object ≠ some e := fun h => heq (Option.some.inj (ho.symm.trans h))
      rw [Option.filter_some, if_pos (by simpa using heq)]
      exact title?_eq_some.2 ⟨object, (hl _ _).2 ⟨hobject, hne⟩, hkind, hl.owner? heq ho⟩

end Sheds

/-- Destroying an environment takes the titles of all that it owns. -/
theorem retitles_close (hs : objects.Sound) (e : Handle) :
    objects.Retitles objects.issued (fun h => (objects.title? h).filter (·.env != e))
      { objects with
        table := objects.table.filter fun h' object => objects.owner? h' object != some e } := by
  have hl : objects.Sheds e { objects with
      table := objects.table.filter fun h' object => objects.owner? h' object != some e } :=
    fun h object => by rw [get?_filter, bne_iff_ne]
  refine ⟨rfl, hl.titles hs, fun hh h object hobject => ?_⟩
  obtain ⟨hobject, hne⟩ := (hl _ _).1 hobject
  exact (hh h object hobject).mono h fun e' ho => hl.hosts fun heq => hne (heq ▸ ho)

/-! ### Objects that are replaced by others of their like -/

theorem retitles_putEnvironment {env env' : Environment}
    (henv : objects.table.get? h = some (.environment env))
    (hopened : env.opened = true → env'.opened = true) :
    objects.Retitles objects.issued objects.title? (objects.put h (.environment env')) := by
  refine retitles_put henv ⟨rfl, rfl, rfl, ?_⟩ fun _ => trivial
  rintro _ ⟨⟩ h
  exact ⟨env', rfl, hopened h⟩

theorem retitles_putDatabase {db db' : Database} (hdb : objects.table.get? h = some (.database db))
    (hsame : db'.env = db.env ∧ db'.name = db.name ∧ db'.fields = db.fields) :
    objects.Retitles objects.issued objects.title? (objects.put h (.database db')) := by
  obtain ⟨henv, hname, hfields⟩ := hsame
  refine retitles_put hdb ⟨rfl, ?_, ?_, nofun⟩ fun _ => trivial
  · simp [Object.outline?, henv, hname, hfields]
  · simp [owner?, henv]

theorem retitles_putRow {r r' : Row} (hrow : objects.table.get? h = some (.row r))
    (hdb : r'.db = r.db) :
    objects.Retitles objects.issued objects.title? (objects.put h (.row r')) :=
  retitles_put hrow ⟨rfl, rfl, by rw [owner?_row, owner?_row, hdb], nofun⟩ fun _ => trivial

theorem retitles_putCursor {c c' : Cursor} (hcursor : objects.table.get? h = some (.cursor c))
    (henv : c'.env = c.env)
    (hscan : objects.Homely → ∀ seek, c'.progress = .scanning seek →
      objects.title? seek.db = some ⟨.database, c'.env⟩) :
    objects.Retitles objects.issued objects.title? (objects.put h (.cursor c')) :=
  retitles_put hcursor ⟨rfl, rfl, by simp [owner?, henv], nofun⟩ hscan

/-- A write of a transaction to a database of its environment. -/
theorem retitles_putTransaction {tx : Transaction}
    (htx : objects.table.get? h = some (.transaction tx)) {place : Place} {record? : Option Record}
    (hplace : objects.title? place.db = some ⟨.database, tx.env⟩) :
    objects.Retitles objects.issued objects.title? (objects.put h
      (.transaction { tx with writes := tx.writes.insert place record? })) := by
  refine retitles_put htx ⟨rfl, rfl, rfl, nofun⟩ fun hh =>
    ⟨(hh h _ htx).1, fun place' record' hget => ?_⟩
  rw [Table.get?_insert] at hget
  split at hget
  · next heq =>
    rw [heq]
    exact hplace
  · exact (hh h _ htx).2 place' record' hget

end Objects

end RowStore.Engine
