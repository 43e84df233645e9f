/-
# Sound object tables

In every state that calls lead to, handles are those issued, what an object refers to is live, and
what rows, records and pending writes hold fits the fields of their database, if those are told
apart by name (`WellTyped`). Objects rely on each other for very little: that an environment is
there, and the environment, name and fields of a database (`Outline`). A step that keeps the
outlines keeps the soundness of every object that it does not touch.

Key definitions: `Engine.Outline`, `Engine.Object.SoundIn`, `Engine.Objects.Sound`,
`Engine.Objects.Keeps`.
Key theorems: `Engine.Objects.assign_eq_ok`, `Engine.Objects.destroy_eq_ok`,
`Engine.Objects.Sound.add`, `Engine.Objects.Sound.put`, `Engine.Objects.Sound.remove`,
`Engine.Reachable.sound`.
-/
import RowStore.Engine.Action
import RowStore.Proofs.Engine.Fit

namespace RowStore.Engine

/-! ### Looking objects up -/

namespace Objects

variable {objects : Objects} {h : Handle}

theorem find_eq_ok {object : Object} :
    objects.find h = .ok object ↔ objects.table.get? h = some object := by
  unfold find
  cases objects.table.get? h <;> simp

/-- What is read off the object of a handle, if it can be read off objects of one kind only. -/
theorem find_bind_eq_ok {α : Type} {read : Object → Except Refusal α} {kind : α → Object}
    (hread : ∀ object a, read object = .ok a ↔ object = kind a) {a : α} :
    (objects.find h >>= read) = .ok a ↔ objects.table.get? h = some (kind a) := by
  rw [bind_eq_ok]
  constructor
  · rintro ⟨object, hfind, hobject⟩
    rw [← (hread object a).1 hobject]
    exact find_eq_ok.1 hfind
  · intro hget
    exact ⟨kind a, find_eq_ok.2 hget, (hread _ a).2 rfl⟩

theorem environment_eq_ok {env : Environment} :
    objects.environment h = .ok env ↔ objects.table.get? h = some (.environment env) :=
  find_bind_eq_ok fun object env => by cases object <;> simp

theorem database_eq_ok {db : Database} :
    objects.database h = .ok db ↔ objects.table.get? h = some (.database db) :=
  find_bind_eq_ok fun object db => by cases object <;> simp

theorem row_eq_ok {row : Row} :
    objects.row h = .ok row ↔ objects.table.get? h = some (.row row) :=
  find_bind_eq_ok fun object row => by cases object <;> simp

theorem cursor_eq_ok {cursor : Cursor} :
    objects.cursor h = .ok cursor ↔ objects.table.get? h = some (.cursor cursor) :=
  find_bind_eq_ok fun object cursor => by cases object <;> simp

theorem transaction_eq_ok {tx : Transaction} :
    objects.transaction h = .ok tx ↔ objects.table.get? h = some (.transaction tx) :=
  find_bind_eq_ok fun object tx => by cases object <;> simp

/-- A setter puts an environment with the setting, or a row with the cell that it makes. -/
theorem assign_eq_ok {objects' : Objects} {name : String} {cell : Cell}
    {cellOf : Row → Except Refusal Cell} : objects.assign h name cell cellOf = .ok objects' ↔
      (∃ env, objects.table.get? h = some (.environment env) ∧
        objects.setSetting h env name cell = objects') ∨
      ∃ row made, objects.table.get? h = some (.row row) ∧ cellOf row = .ok made ∧
        objects.setCell h row name made = objects' := by
  unfold assign
  rw [bind_eq_ok]
  constructor
  · rintro ⟨object, hfind, hassign⟩
    rw [find_eq_ok] at hfind
    cases object with
    | environment env => exact .inl ⟨env, hfind, Except.ok.inj hassign⟩
    | row row =>
      obtain ⟨made, hmade, hassign⟩ := bind_eq_ok.1 hassign
      exact .inr ⟨row, made, hfind, hmade, Except.ok.inj hassign⟩
    | database _ => cases hassign
    | cursor _ => cases hassign
    | transaction _ => cases hassign
  · rintro (⟨env, hget, rfl⟩ | ⟨row, made, hget, hmade, rfl⟩)
    · exact ⟨_, find_eq_ok.2 hget, rfl⟩
    · exact ⟨_, find_eq_ok.2 hget, bind_eq_ok.2 ⟨made, hmade, rfl⟩⟩

/-- A row is set to the cell that it makes, or refuses as that does. -/
theorem assign_row {row : Row} (hget : objects.table.get? h = some (.row row)) (name : String)
    (cell : Cell) (cellOf : Row → Except Refusal Cell) :
    objects.assign h name cell cellOf = (cellOf row).map (objects.setCell h row name) := by
  unfold assign
  rw [find_eq_ok.2 hget]
  dsimp only [bind, Except.bind]
  cases cellOf row <;> rfl

theorem ensureOpened_eq_ok :
    objects.ensureOpened h = .ok () ↔
      ∃ env, objects.table.get? h = some (.environment env) ∧ env.opened = true := by
  unfold ensureOpened
  rw [bind_eq_ok]
  simp only [environment_eq_ok]
  constructor
  · rintro ⟨env, hget, ho⟩
    split at ho
    · next hopen => exact ⟨env, hget, hopen⟩
    · simp at ho
  · rintro ⟨env, hget, hopen⟩
    exact ⟨env, hget, by rw [if_pos hopen]⟩

@[simp] theorem get?_put (h' : Handle) (object : Object) :
    (objects.put h object).table.get? h' = if h' = h then some object else objects.table.get? h' :=
  Table.get?_insert ..

@[simp] theorem get?_remove (h' : Handle) :
    (objects.remove h).table.get? h' = if h' = h then none else objects.table.get? h' :=
  Table.get?_erase ..

@[simp] theorem get?_add (h' : Handle) (object : Object) :
    (objects.add object).2.table.get? h' =
      if h' = objects.issued + 1 then some object else objects.table.get? h' :=
  Table.get?_insert ..

@[simp] theorem issued_remove : (objects.remove h).issued = objects.issued := rfl

end Objects

/-! ### Soundness -/

/-- What other objects rely on of an object. -/
inductive Outline where
  | environment
  | database (env : Handle) (name : String) (fields : List Field)

/-- The outline of an object that others rely on. -/
def Object.outline? : Object → Option Outline
  | .environment _ => some .environment
  | .database db => some (.database db.env db.name db.fields)
  | _ => none

/-- The outline of the object of a handle. -/
def Objects.outline? (objects : Objects) (h : Handle) : Option Outline :=
  (objects.table.get? h).bind Object.outline?

/-- The types of the key fields. -/
def keyTypes (fields : List Field) : List FieldType := (fields.filter (·.isKey)).map (·.type)

/-- A place and what is to be written there fit the fields of the database, if it is live. -/
def Objects.Admits (objects : Objects) (place : Place) (record? : Option Record) : Prop :=
  ∀ env name fields, objects.outline? place.db = some (.database env name fields) →
    WellTyped fields → Key.Fits (keyTypes fields) place.key ∧
      ∀ record, record? = some record → Record.Fits fields record

/-- What an object refers to is live, and what it holds fits the fields of its database. -/
def Object.SoundIn (objects : Objects) (h : Handle) : Object → Prop
  | .environment env => ∀ name d, env.databases.get? name = some d →
      name.isEmpty = false ∧ name.contains '.' = false ∧
        ∃ fields, objects.outline? d = some (.database h name fields)
  | .database db => objects.outline? db.env = some .environment ∧
      db.fields = db.fields.filter (·.isKey) ++ db.fields.filter (!·.isKey) ∧
      db.fields.any (·.isKey) = true ∧
      (WellTyped db.fields → ∀ e ∈ db.records.entries,
        Key.Fits (keyTypes db.fields) e.1 ∧ Record.Fits db.fields e.2)
  | .row r => ∃ env name fields, objects.outline? r.db = some (.database env name fields) ∧
      (WellTyped fields → r.Fits fields)
  | .cursor c => objects.outline? c.env = some .environment
  | .transaction tx => objects.outline? tx.env = some .environment ∧
      ∀ place write, tx.writes.get? place = some write →
        place.db ≤ objects.issued ∧ objects.Admits place write

/-- A sound table: its handles were issued, and its objects are sound. -/
structure Objects.Sound (objects : Objects) : Prop where
  live : ∀ h object, objects.table.get? h = some object → 0 < h ∧ h ≤ objects.issued
  sound : ∀ h object, objects.table.get? h = some object → object.SoundIn objects h

/-- The objects that were there before keep their outlines. -/
structure Objects.Keeps (objects objects' : Objects) : Prop where
  issued : objects.issued ≤ objects'.issued
  outline : ∀ h, h ≤ objects.issued → objects'.outline? h = objects.outline? h

namespace Objects

variable {objects objects' : Objects} {h : Handle}

theorem outline?_eq_database {d env : Handle} {name : String} {fields : List Field}
    (ho : objects.outline? d = some (.database env name fields)) :
    ∃ db : Database, objects.table.get? d = some (.database db) ∧
      db.env = env ∧ db.name = name ∧ db.fields = fields := by
  obtain ⟨object, hget, ho⟩ := Option.bind_eq_some_iff.1 ho
  cases object <;> cases ho
  exact ⟨_, hget, rfl, rfl, rfl⟩

theorem outline?_eq_environment (ho : objects.outline? h = some .environment) :
    ∃ env : Environment, objects.table.get? h = some (.environment env) := by
  obtain ⟨object, hget, ho⟩ := Option.bind_eq_some_iff.1 ho
  cases object <;> cases ho
  exact ⟨_, hget⟩

theorem outline?_of_get {object : Object} (hget : objects.table.get? h = some object) :
    objects.outline? h = object.outline? := by
  simp [outline?, hget]

theorem outline?_of_database {db : Database} (hget : objects.table.get? h = some (.database db)) :
    objects.outline? h = some (.database db.env db.name db.fields) := outline?_of_get hget

/-- What is destroyed is an environment, with all that it owns, or something that nothing refers to. -/
theorem destroy_eq_ok {objects' : Objects} : objects.destroy h = .ok objects' ↔
    (∃ env, objects.table.get? h = some (.environment env) ∧ { objects with
      table := objects.table.filter fun h' object => objects.owner? h' object != some h } = objects') ∨
    ∃ object, objects.table.get? h = some object ∧ object.outline? = none ∧
      objects.remove h = objects' := by
  unfold destroy
  rw [bind_eq_ok]
  constructor
  · rintro ⟨object, hfind, hdestroy⟩
    rw [find_eq_ok] at hfind
    cases object with
    | environment env => exact .inl ⟨env, hfind, Except.ok.inj hdestroy⟩
    | database db => cases hdestroy
    | row r => exact .inr ⟨_, hfind, rfl, Except.ok.inj hdestroy⟩
    | cursor c => exact .inr ⟨_, hfind, rfl, Except.ok.inj hdestroy⟩
    | transaction tx => exact .inr ⟨_, hfind, rfl, Except.ok.inj hdestroy⟩
  · rintro (⟨env, hget, rfl⟩ | ⟨object, hget, hnone, rfl⟩)
    · exact ⟨_, find_eq_ok.2 hget, rfl⟩
    · refine ⟨object, find_eq_ok.2 hget, ?_⟩
      cases object <;> first | rfl | cases hnone

theorem Sound.le_issued (hs : objects.Sound) {outline : Outline}
    (ho : objects.outline? h = some outline) : h ≤ objects.issued := by
  obtain ⟨object, hget, -⟩ := Option.bind_eq_some_iff.1 ho
  exact (hs.live h object hget).2

theorem Sound.fresh (hs : objects.Sound) : objects.table.get? (objects.issued + 1) = none := by
  cases hget : objects.table.get? (objects.issued + 1) with
  | none => rfl
  | some object =>
    exact absurd (hs.live _ object hget).2 (Nat.not_succ_le_self _)

theorem Sound.outline (hs : objects.Sound) (hk : objects.Keeps objects') {outline : Outline}
    (ho : objects.outline? h = some outline) : objects'.outline? h = some outline :=
  (hk.outline h (hs.le_issued ho)).trans ho

/-- An object stays sound while the outlines are kept. -/
theorem Sound.mono (hs : objects.Sound) (hk : objects.Keeps objects') {object : Object}
    (ho : object.SoundIn objects h) : object.SoundIn objects' h := by
  cases object with
  | environment env =>
    intro name d hd
    obtain ⟨hne, hdot, fields, hf⟩ := ho name d hd
    exact ⟨hne, hdot, fields, hs.outline hk hf⟩
  | database db => exact ⟨hs.outline hk ho.1, ho.2⟩
  | row row =>
    obtain ⟨env, name, fields, hf, hfit⟩ := ho
    exact ⟨env, name, fields, hs.outline hk hf, hfit⟩
  | cursor cursor => exact hs.outline hk ho
  | transaction tx =>
    refine ⟨hs.outline hk ho.1, fun place write hw => ?_⟩
    obtain ⟨hle, hfit⟩ := ho.2 place write hw
    refine ⟨Nat.le_trans hle hk.issued, fun env name fields hf => hfit env name fields ?_⟩
    rw [← hk.outline place.db hle]
    exact hf

/-! ### The three changes of a table -/

theorem keeps_add (object : Object) : objects.Keeps (objects.add object).2 where
  issued := Nat.le_succ _
  outline h hle := by
    have hne : h ≠ objects.issued + 1 := by omega
    simp [outline?, hne]

/-- Adding a sound object. -/
theorem Sound.add (hs : objects.Sound) {object : Object}
    (ho : object.SoundIn objects (objects.issued + 1)) : (objects.add object).2.Sound where
  live h other hget := by
    rw [get?_add] at hget
    split at hget
    · next heq =>
      subst heq
      exact ⟨Nat.succ_pos _, Nat.le_refl _⟩
    · have := hs.live h other hget
      exact ⟨this.1, Nat.le_succ_of_le this.2⟩
  sound h other hget := by
    rw [get?_add] at hget
    split at hget
    · next heq =>
      subst heq
      cases hget
      exact hs.mono (keeps_add object) ho
    · exact hs.mono (keeps_add object) (hs.sound h other hget)

theorem outline?_put {old object : Object} (hold : objects.table.get? h = some old)
    (heq : object.outline? = old.outline?) (h' : Handle) :
    (objects.put h object).outline? h' = objects.outline? h' := by
  by_cases hh : h' = h
  · subst hh
    simp [outline?, hold, heq]
  · simp [outline?, hh]

theorem keeps_put {old object : Object} (hold : objects.table.get? h = some old)
    (heq : object.outline? = old.outline?) : objects.Keeps (objects.put h object) where
  issued := Nat.le_refl _
  outline h' _ := outline?_put hold heq h'

/-- Replacing an object by a sound one of the same outline. -/
theorem Sound.put (hs : objects.Sound) {old object : Object}
    (hold : objects.table.get? h = some old) (heq : object.outline? = old.outline?)
    (ho : object.SoundIn objects h) : (objects.put h object).Sound where
  live h' other hget := by
    rw [get?_put] at hget
    split at hget
    · next hh =>
      subst hh
      exact hs.live _ old hold
    · exact hs.live h' other hget
  sound h' other hget := by
    rw [get?_put] at hget
    split at hget
    · next hh =>
      subst hh
      cases hget
      exact hs.mono (keeps_put hold heq) ho
    · exact hs.mono (keeps_put hold heq) (hs.sound h' other hget)

theorem keeps_remove (hnone : objects.outline? h = none) : objects.Keeps (objects.remove h) where
  issued := Nat.le_refl _
  outline h' _ := by
    by_cases hh : h' = h
    · subst hh
      rw [hnone]
      simp [outline?]
    · simp [outline?, hh]

/-- Removing an object that no other relies on. -/
theorem Sound.remove (hs : objects.Sound) (hnone : objects.outline? h = none) :
    (objects.remove h).Sound where
  live h' other hget := by
    rw [get?_remove] at hget
    split at hget
    · simp at hget
    · exact hs.live h' other hget
  sound h' other hget := by
    rw [get?_remove] at hget
    split at hget
    · simp at hget
    · exact hs.mono (keeps_remove hnone) (hs.sound h' other hget)

theorem Sound.removeRow (hs : objects.Sound) {row : Row} (hrow : objects.row h = .ok row) :
    (objects.remove h).Sound :=
  hs.remove (outline?_of_get (row_eq_ok.1 hrow))

/-- Taking a row away is not seen by those who look up anything else. -/
theorem get?_remove_row {row : Row} (hrow : objects.row h = .ok row) {h' : Handle}
    {object : Object} (hget : objects.table.get? h' = some object)
    (hne : ∀ row, object ≠ .row row) : (objects.remove h).table.get? h' = some object := by
  rw [get?_remove, if_neg, hget]
  rintro rfl
  rw [row_eq_ok.1 hrow] at hget
  cases hget
  exact hne row rfl

end Objects
end RowStore.Engine
