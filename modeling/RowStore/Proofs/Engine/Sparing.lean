/-
# What calls leave alone

A cursor stays as it is until a fetch advances it, and a database stays under its handle, with its
environment and fields and, while nothing is stored, its records, unless they or their environment are
destroyed.

Key definitions: `Engine.Action.Stores`, `Engine.Database.Stays`, `Engine.Objects.Spares`.
Key theorems: `Engine.Objects.Moves.spares`, `Engine.spares_step`.
-/
import RowStore.Proofs.Engine.Changes

namespace RowStore.Engine

open Client (WriteKind)

/-- Whether a call writes records, or writes them into a transaction. -/
def Action.Stores : Action kind → Prop
  | .put .. => True
  | .upsert .. => True
  | .delete .. => True
  | .commit _ => True
  | _ => False

/-- A database stays in its environment, with its fields and, unless something is stored, its
records. -/
structure Database.Stays (stores : Prop) (db db' : Database) : Prop where
  env : db'.env = db.env
  fields : db'.fields = db.fields
  records : ¬ stores → db'.records = db.records

variable {stores : Prop}

theorem Database.Stays.refl (db : Database) : db.Stays stores db := ⟨rfl, rfl, fun _ => rfl⟩

theorem Database.Stays.trans {db db' db'' : Database} (h : db.Stays stores db')
    (h' : db'.Stays stores db'') : db.Stays stores db'' where
  env := h'.env.trans h.env
  fields := h'.fields.trans h.fields
  records hno := (h'.records hno).trans (h.records hno)

namespace Objects

variable {objects objects' : Objects} {h : Handle} {advances destroys : Handle → Prop}

/-- What happens to cursors and databases if only these cursors are advanced and only these objects are
destroyed, with what they own. -/
structure Spares (advances destroys : Handle → Prop) (stores : Prop) (objects objects' : Objects) :
    Prop where
  issued : objects.issued ≤ objects'.issued
  cursor : ∀ h c, h ≤ objects.issued → objects.table.get? h = some (.cursor c) →
    ¬ advances h → ¬ destroys h → ¬ destroys c.env → objects'.table.get? h = some (.cursor c)
  database : ∀ d db, d ≤ objects.issued → objects.table.get? d = some (.database db) →
    ¬ destroys db.env →
      ∃ db', objects'.table.get? d = some (.database db') ∧ db.Stays stores db'

theorem Spares.refl (objects : Objects) : Spares advances destroys stores objects objects where
  issued := Nat.le_refl _
  cursor := fun _ _ _ hget _ _ _ => hget
  database := fun _ db _ hget _ => ⟨db, hget, .refl db⟩

theorem Spares.trans {objects'' : Objects} (hs : Spares advances destroys stores objects objects')
    (hs' : Spares advances destroys stores objects' objects'') :
    Spares advances destroys stores objects objects'' where
  issued := Nat.le_trans hs.issued hs'.issued
  cursor := fun h c hle hget ha hd henv =>
    hs'.cursor h c (Nat.le_trans hle hs.issued) (hs.cursor h c hle hget ha hd henv) ha hd henv
  database := by
    intro d db hle hget henv
    obtain ⟨db', hget', hstays⟩ := hs.database d db hle hget henv
    obtain ⟨db'', hget'', hstays'⟩ := hs'.database d db' (Nat.le_trans hle hs.issued) hget'
      (by rwa [hstays.env])
    exact ⟨db'', hget'', hstays.trans hstays'⟩

theorem spares_add (object : Object) :
    Spares advances destroys stores objects (objects.add object).2 where
  issued := Nat.le_succ _
  cursor := fun h c hle hget _ _ _ => by
    rw [get?_add, if_neg (Nat.ne_of_lt (Nat.lt_succ_of_le hle)), hget]
  database := fun d db hle hget _ => by
    refine ⟨db, ?_, .refl db⟩
    rw [get?_add, if_neg (Nat.ne_of_lt (Nat.lt_succ_of_le hle)), hget]

/-- An object is replaced: a cursor if it is advanced, a database by one that it stays. -/
theorem spares_put {old object : Object} (hold : objects.table.get? h = some old)
    (hcursor : ∀ c, old = .cursor c → advances h)
    (hdatabase : ∀ db, old = .database db →
      ∃ db', object = .database db' ∧ db.Stays stores db') :
    Spares advances destroys stores objects (objects.put h object) where
  issued := Nat.le_refl _
  cursor := by
    intro h' c _ hget ha _ _
    rw [get?_put, if_neg, hget]
    rintro rfl
    rw [hold] at hget
    cases hget
    exact ha (hcursor c rfl)
  database := by
    intro d db _ hget _
    rw [get?_put]
    split
    · next heq =>
      subst heq
      rw [hold] at hget
      cases hget
      obtain ⟨db', rfl, hstays⟩ := hdatabase db rfl
      exact ⟨db', rfl, hstays⟩
    · exact ⟨db, hget, .refl db⟩

/-- An object is removed that is no database, a cursor if it is destroyed. -/
theorem spares_remove {object : Object} (hlive : objects.table.get? h = some object)
    (hcursor : ∀ c, object = .cursor c → destroys h) (hdatabase : ∀ db, object ≠ .database db) :
    Spares advances destroys stores objects (objects.remove h) where
  issued := Nat.le_refl _
  cursor := by
    intro h' c _ hget _ hd _
    rw [get?_remove, if_neg, hget]
    rintro rfl
    rw [hlive] at hget
    cases hget
    exact hd (hcursor c rfl)
  database := by
    intro d db _ hget _
    refine ⟨db, ?_, .refl db⟩
    rw [get?_remove, if_neg, hget]
    rintro rfl
    rw [hlive] at hget
    cases hget
    exact hdatabase db rfl

/-- An environment is destroyed, with what it owns. -/
theorem spares_destroy (hdestroyed : destroys h) :
    Spares advances destroys stores objects { objects with
      table := objects.table.filter fun h' object => objects.owner? h' object != some h } where
  issued := Nat.le_refl _
  cursor := by
    intro h' c _ hget _ _ henv
    refine get?_filter.2 ⟨hget, ?_⟩
    rw [bne_iff_ne]
    rintro ⟨⟩
    exact henv hdestroyed
  database := by
    intro d db _ hget henv
    refine ⟨db, get?_filter.2 ⟨hget, ?_⟩, .refl db⟩
    rw [bne_iff_ne]
    rintro ⟨⟩
    exact henv hdestroyed

/-- Objects that move store nothing. -/
theorem Moves.spares {makes : Object → Prop} (hm : Moves advances destroys makes objects objects') :
    Spares advances destroys stores objects objects' := by
  induction hm with
  | refl => exact .refl objects
  | add _ _ _ ih => exact ih.trans (spares_add _)
  | @put _ _ old object _ hlive hlike hadvanced ih =>
    refine ih.trans (spares_put hlive hadvanced ?_)
    rintro db rfl
    cases object with
    | database db' => exact ⟨db', rfl, hlike.1, hlike.2.1, fun _ => hlike.2.2⟩
    | environment _ => cases hlike
    | row _ => cases hlike
    | cursor _ => cases hlike
    | transaction _ => cases hlike
  | @remove _ _ object _ hlive hloose ih =>
    refine ih.trans (spares_remove hlive ?_ ?_)
    · rintro c rfl
      exact hloose
    · rintro db rfl
      exact hloose
  | destroy _ hdestroyed ih => exact ih.trans (spares_destroy hdestroyed)

theorem spares_writeThrough {place : Place} {record? : Option Record} (hstores : stores)
    (hw : objects.writeThrough place record? = .ok objects') :
    Spares advances destroys stores objects objects' := by
  obtain ⟨db, hdb, hw⟩ := bind_eq_ok.1 hw
  cases hw
  refine spares_put (database_eq_ok.1 hdb) nofun ?_
  rintro db' ⟨⟩
  exact ⟨_, rfl, rfl, rfl, fun hno => absurd hstores hno⟩

theorem spares_write {target : Store} {place : Place} {record? : Option Record} (hstores : stores)
    (hw : objects.write target place record? = .ok objects') :
    Spares advances destroys stores objects objects' := by
  cases target with
  | database d => exact spares_writeThrough hstores hw
  | transaction t =>
    obtain ⟨tx, htx, hw⟩ := bind_eq_ok.1 hw
    cases hw
    exact spares_put (transaction_eq_ok.1 htx) nofun nofun

theorem spares_writeAll (hstores : stores) : ∀ (writes : List (Place × Option Record))
    {objects : Objects},
    Spares advances destroys stores objects (writeAll writes objects).2
  | [], objects => .refl objects
  | (place, record?) :: writes, objects => by
    rw [writeAll]
    split
    · next hw => exact (spares_writeThrough hstores hw).trans (spares_writeAll hstores writes)
    · exact .refl objects

theorem Changes.spares {functions : Hook → MergeFn} {kind : AnswerKind} {action : Action kind}
    (hc : objects.Changes functions action objects') :
    Spares action.advances action.destroys action.Stores objects objects' := by
  cases hc with
  | moved hm => exact hm.spares
  | @written kind _ _ _ _ _ _ _ _ htaken _ hmade =>
    have hstores (store row) : (kind.action store row).Stores := by cases kind <;> exact trivial
    exact (spares_remove htaken nofun nofun).trans (spares_write (hstores _ _) hmade)
  | committed hpending =>
    exact (spares_remove hpending nofun nofun).trans (spares_writeAll trivial _)

end Objects

/-- Only the cursors that a call advances, what it destroys and what is owned by that change, and the
records of databases only if it stores something. -/
theorem spares_step {engine : Engine} (hs : engine.objects.Sound) (functions : Hook → MergeFn)
    {kind : AnswerKind} (action : Action kind) :
    Objects.Spares action.advances action.destroys action.Stores engine.objects
      (engine.step functions action).2.objects :=
  (changes_step hs functions action).spares

end RowStore.Engine
