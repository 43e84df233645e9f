/-
# Cells that fit their fields

A cell fits a field if it is of the field's kind and, being a word, is already cut to the declared
width. What the primitives put into rows, records and keys fits, provided that the field names of
the database are told apart: no name twice, and no name of a pseudo-field, under which a row holds
bytes whatever the field says. The parts of a key are of the right kinds in any case.

Key definitions: `Cell.Fits`, `KeyPart.Fits`, `Record.Fits`, `Key.Fits`, `Key.OfKinds`,
`Engine.Row.Fits`, `WellTyped`, `WellNamed`.
Key theorems: `Cell.fits_word_iff`, `KeyPart.fits_int_iff`, `Engine.Database.recordOf_fits`,
`Engine.Database.keyOf_fits`, `Engine.Database.rowOf_fits`, `Engine.Database.decode_fits`.
-/
import Mathlib
import RowStore.Engine.Fields

namespace RowStore

/-- The number of words of a width. -/
def Width.size (width : Width) : Nat := 2 ^ (8 * width.bytes)

theorem FieldType.toNat_truncate (width : Width) (reversed : Bool) (w : UInt64) :
    ((FieldType.int width reversed).truncate w).toNat = w.toNat % width.size := by
  have hw : w.toNat < 2 ^ 64 := w.toNat_lt
  rcases width with _ | _ | _ | _
  · exact UInt64.toNat_mod w 0x100
  · exact UInt64.toNat_mod w 0x10000
  · exact UInt64.toNat_mod w 0x100000000
  · exact (Nat.mod_eq_of_lt hw).symm

theorem FieldType.truncate_truncate (type : FieldType) (w : UInt64) :
    type.truncate (type.truncate w) = type.truncate w := by
  rcases type with ⟨width, reversed⟩ | _
  · apply UInt64.toNat_inj.1
    simp only [toNat_truncate, Nat.mod_mod]
  · rfl

/-- A word is cut to a width if it is below the size of the width. -/
theorem FieldType.truncate_eq_self_iff {width : Width} {reversed : Bool} {w : UInt64} :
    (FieldType.int width reversed).truncate w = w ↔ w.toNat < width.size := by
  rw [← UInt64.toNat_inj, toNat_truncate]
  exact Nat.mod_eq_iff_lt (Nat.two_pow_pos _).ne'

/-- The cell is of the kind of the type, and a word is cut to its width. -/
def Cell.Fits (type : FieldType) : Cell → Prop
  | .word w => type.isString = false ∧ type.truncate w = w
  | .bytes _ => type.isString = true

/-- The part is of the kind that the type makes, and a word is cut to its width. -/
def KeyPart.Fits (type : FieldType) : KeyPart → Prop
  | .up w => type.isString = false ∧ type.isReversed = false ∧ type.truncate w = w
  | .down w => type.isString = false ∧ type.isReversed = true ∧ type.truncate w = w
  | .bytes _ => type.isString = true

/-- The words that fit an integer field are those below the size of its width. -/
theorem Cell.fits_word_iff {width : Width} {reversed : Bool} {w : UInt64} :
    Cell.Fits (.int width reversed) (.word w) ↔ w.toNat < width.size :=
  (and_iff_right rfl).trans FieldType.truncate_eq_self_iff

/-- A key part of an integer field is marked with the direction of the field, and its words are those
below the size of the width. -/
theorem KeyPart.fits_int_iff {width : Width} {reversed : Bool} {part : KeyPart} :
    part.Fits (.int width reversed) ↔
      ∃ w : UInt64, part = (if reversed then .down w else .up w) ∧ w.toNat < width.size := by
  have hcut : ∀ w : UInt64, w.toNat < width.size ↔ (FieldType.int width reversed).truncate w = w :=
    fun _ => FieldType.truncate_eq_self_iff.symm
  simp only [hcut]
  cases part <;> cases reversed <;> simp [Fits, FieldType.isString, FieldType.isReversed]

/-- The part is of the kind that the type makes, whatever its value. -/
def KeyPart.OfKind (type : FieldType) : KeyPart → Prop
  | .up _ => type.isString = false ∧ type.isReversed = false
  | .down _ => type.isString = false ∧ type.isReversed = true
  | .bytes _ => type.isString = true

/-- A part of the right kind for each type. -/
def Key.OfKinds (types : List FieldType) (key : Key) : Prop :=
  List.Forall₂ KeyPart.OfKind types key

/-- A whole key of fields of the given types. -/
def Key.Fits : List FieldType → Key → Prop
  | [], [] => True
  | type :: types, part :: key => part.Fits type ∧ Key.Fits types key
  | _, _ => False

/-- One cell for each field, and each fits. -/
def Record.Fits (fields : List Field) (record : Record) : Prop :=
  List.Forall₂ (fun field cell => Cell.Fits field.type cell) fields record

/-- The cells of a row that stand under field names fit. -/
def Engine.Row.Fits (fields : List Field) (row : Engine.Row) : Prop :=
  ∀ field ∈ fields, ∀ cell, row.cells.get? field.name = some cell → cell.Fits field.type

/-- No two fields share a name, and a field with the name of a pseudo-field holds byte strings. -/
structure WellTyped (fields : List Field) : Prop where
  nodup : (fields.map (·.name)).Nodup
  pseudo : ∀ field ∈ fields, Engine.isPseudoField field.name = true → field.type.isString = true

/-- No two fields share a name, and none has the name of a pseudo-field. -/
structure WellNamed (fields : List Field) : Prop where
  nodup : (fields.map (·.name)).Nodup
  proper : ∀ field ∈ fields, Engine.isPseudoField field.name = false

theorem WellNamed.wellTyped {fields : List Field} (hw : WellNamed fields) : WellTyped fields where
  nodup := hw.nodup
  pseudo := fun field hm hp => by
    rw [hw.proper field hm] at hp
    cases hp

theorem Cell.unset_fits (type : FieldType) : (Cell.unset type).Fits type := by
  rcases type with ⟨width, reversed⟩ | _
  · refine ⟨rfl, ?_⟩
    rcases width with _ | _ | _ | _ <;> rfl
  · rfl

theorem Cell.decode?_fits {type : FieldType} {image : Bytes} {cell : Cell}
    (h : Cell.decode? type image = some cell) : cell.Fits type := by
  rcases type with ⟨width, reversed⟩ | _
  · obtain ⟨w, -, rfl⟩ := Option.map_eq_some_iff.1 h
    exact ⟨rfl, FieldType.truncate_truncate _ _⟩
  · cases h
    rfl

theorem KeyPart.ofCell?_fits {type : FieldType} {cell : Cell} {part : KeyPart}
    (hc : cell.Fits type) (h : KeyPart.ofCell? type cell = some part) : part.Fits type := by
  rcases type with ⟨width, _ | _⟩ | _ <;> rcases cell with w | b <;> cases h
  · exact ⟨rfl, rfl, hc.2⟩
  · exact ⟨rfl, rfl, hc.2⟩
  · rfl

theorem KeyPart.ofCell?_ofKind {type : FieldType} {cell : Cell} {part : KeyPart}
    (h : KeyPart.ofCell? type cell = some part) : part.OfKind type := by
  rcases type with ⟨width, _ | _⟩ | _ <;> rcases cell with w | b <;> cases h
  · exact ⟨rfl, rfl⟩
  · exact ⟨rfl, rfl⟩
  · rfl

/-- A cell that fits makes a part of a key. -/
theorem KeyPart.exists_ofCell? {type : FieldType} {cell : Cell} (h : cell.Fits type) :
    ∃ part, KeyPart.ofCell? type cell = some part := by
  rcases type with ⟨width, _ | _⟩ | _ <;> rcases cell with w | b
  · exact ⟨_, rfl⟩
  · cases h
  · exact ⟨_, rfl⟩
  · cases h
  · cases h.1
  · exact ⟨_, rfl⟩

theorem KeyPart.Fits.ofKind {type : FieldType} {part : KeyPart} (h : part.Fits type) :
    part.OfKind type := by
  cases part with
  | up w => exact ⟨h.1, h.2.1⟩
  | down w => exact ⟨h.1, h.2.1⟩
  | bytes b => exact h

theorem Key.Fits.ofKinds : ∀ {types : List FieldType} {key : Key}, Key.Fits types key →
    Key.OfKinds types key
  | [], [], _ => .nil
  | _ :: _, _ :: _, h => .cons h.1.ofKind h.2.ofKinds
  | [], _ :: _, h => h.elim
  | _ :: _, [], h => h.elim

/-- A record has a word in an integer field, cut to the width. -/
theorem Record.Fits.getElem?_word {fields : List Field} {record : Record} {i : Nat} {field : Field}
    {width : Width} {reversed : Bool} (hfits : Record.Fits fields record)
    (hfield : fields[i]? = some field) (htype : field.type = .int width reversed) :
    ∃ w, record[i]? = some (.word w) ∧ field.type.truncate w = w := by
  obtain ⟨hi, rfl⟩ := List.getElem?_eq_some_iff.1 hfield
  have hir : i < record.length := hfits.length_eq ▸ hi
  have hcell : Cell.Fits fields[i].type record[i] := hfits.get hi hir
  cases hword : record[i] with
  | word w =>
    rw [hword] at hcell
    exact ⟨w, List.getElem?_eq_some_iff.2 ⟨hir, hword⟩, hcell.2⟩
  | bytes b =>
    rw [hword, htype] at hcell
    cases hcell

/-- A whole key has a part that fits for each field. -/
theorem Key.Fits.getElem?_part : ∀ {types : List FieldType} {key : Key} {i : Nat} {type : FieldType},
    Key.Fits types key → types[i]? = some type → ∃ part, key[i]? = some part ∧ part.Fits type
  | _ :: _, part :: _, 0, _, h, htype => ⟨part, rfl, Option.some.inj htype ▸ h.1⟩
  | _ :: _, _ :: _, _ + 1, _, h, htype => by
    rw [List.getElem?_cons_succ] at htype ⊢
    exact Key.Fits.getElem?_part h.2 htype
  | [], _, _, _, _, htype => nomatch htype
  | _ :: _, [], _, _, h, _ => h.elim

/-- A sequence of two checks passes if both do. -/
theorem bind_eq_ok {ε α β : Type} {x : Except ε α} {f : α → Except ε β} {b : β} :
    (x >>= f) = .ok b ↔ ∃ a, x = .ok a ∧ f a = .ok b := by
  cases x with
  | error e =>
    constructor
    · intro h
      cases h
    · rintro ⟨a, h, -⟩
      simp at h
  | ok a =>
    constructor
    · exact fun h => ⟨a, rfl, h⟩
    · rintro ⟨a', h, hf⟩
      cases h
      exact hf

/-- A list passes a check that can fail exactly if each element does, with its own result. -/
theorem mapM_eq_ok_iff {ε α β : Type} {f : α → Except ε β} : ∀ {as : List α} {bs : List β},
    as.mapM f = .ok bs ↔ List.Forall₂ (fun a b => f a = .ok b) as bs
  | [], bs => by simp [pure, Except.pure, eq_comm]
  | a :: as, bs => by
    rw [List.mapM_cons]
    cases ha : f a with
    | error e =>
      constructor
      · intro h
        cases h
      · rintro ⟨⟩
        next h _ =>
          rw [ha] at h
          simp at h
    | ok b =>
      show (as.mapM f >>= fun bs => pure (b :: bs)) = _ ↔ _
      cases has : as.mapM f with
      | error e =>
        constructor
        · intro h
          simp at h
        · rintro ⟨⟩
          next _ h =>
            rw [← mapM_eq_ok_iff, has] at h
            simp at h
      | ok rest =>
        show Except.ok (b :: rest) = _ ↔ _
        constructor
        · intro h
          cases h
          exact .cons ha (mapM_eq_ok_iff.1 has)
        · rintro ⟨⟩
          next h hrest =>
            rw [ha] at h
            rw [← mapM_eq_ok_iff, has] at hrest
            cases h
            cases hrest
            rfl

namespace Table

variable {κ : Type} {α : Type} [Ord κ] [Std.TransOrd κ] [Std.LawfulEqOrd κ] [DecidableEq κ]

/-- Insertions under other keys do not count. -/
theorem get?_foldl_insert (k : κ) : ∀ (entries : List (κ × α)) (t : Table κ α),
    (entries.map (·.1)).Nodup →
    (entries.foldl (fun t e => t.insert e.1 e.2) t).get? k =
      ((entries.find? fun e => e.1 == k).map (·.2)).or (t.get? k)
  | [], t, _ => by simp
  | (k', a) :: entries, t, h => by
    rw [List.map_cons, List.nodup_cons] at h
    rw [List.foldl_cons, get?_foldl_insert k entries _ h.2, get?_insert]
    by_cases hk : k = k'
    · subst hk
      have hnone : entries.find? (fun e => e.1 == k) = none := by
        rw [List.find?_eq_none]
        intro e he hek
        have : e.1 = k := by simpa using hek
        exact h.1 (List.mem_map.2 ⟨e, he, this⟩)
      simp [hnone]
    · have hne : (k' == k) = false := by simpa using fun h => hk h.symm
      simp [hk, hne]

/-- A table of entries with distinct keys holds each of them. -/
theorem get?_ofList (k : κ) {entries : List (κ × α)} (h : (entries.map (·.1)).Nodup) :
    (ofList entries).get? k = (entries.find? fun e => e.1 == k).map (·.2) := by
  unfold ofList
  rw [get?_foldl_insert k entries _ h]
  simp

end Table

namespace Engine

variable {db : Database} {row : Row}

/-- The fields of a name are one field. -/
theorem field_eq_of_name {fields : List Field} (h : (fields.map (·.name)).Nodup) {f g : Field}
    (hf : f ∈ fields) (hg : g ∈ fields) (hn : f.name = g.name) : f = g :=
  List.inj_on_of_nodup_map h hf hg hn

theorem Database.field_eq_ok {name : String} {field : Field} (h : db.field name = .ok field) :
    field ∈ db.fields ∧ field.name = name := by
  unfold Database.field at h
  split at h
  · next found hfind =>
    cases h
    refine ⟨List.mem_of_find?_eq_some hfind, ?_⟩
    simpa using List.find?_some hfind
  · simp at h

/-- The field of a name among fields with distinct names. -/
theorem find?_eq_of_mem {fields : List Field} (hn : (fields.map (·.name)).Nodup) {field : Field}
    (hm : field ∈ fields) : fields.find? (·.name == field.name) = some field := by
  cases hfind : fields.find? (·.name == field.name) with
  | none =>
    rw [List.find?_eq_none] at hfind
    simpa using hfind field hm
  | some found =>
    have hname : found.name = field.name := by simpa using List.find?_some hfind
    rw [field_eq_of_name hn (List.mem_of_find?_eq_some hfind) hm hname]

theorem Database.field_of_mem (hn : (db.fields.map (·.name)).Nodup) {field : Field}
    (hm : field ∈ db.fields) :
    db.field field.name = .ok field := by
  unfold Database.field
  rw [find?_eq_of_mem hn hm]

theorem Database.recordOf_fits (h : row.Fits db.fields) :
    Record.Fits db.fields (db.recordOf row) := by
  unfold Record.Fits Database.recordOf
  rw [List.forall₂_map_right_iff, List.forall₂_same]
  intro field hm
  cases hc : row.cells.get? field.name with
  | none => exact Cell.unset_fits _
  | some cell => exact h field hm cell hc

/-- The parts of a key are those of the key cells. -/
theorem Database.keyOf_eq_ok_iff {key : Key} : db.keyOf row = .ok key ↔
    List.Forall₂ (fun field part =>
      (row.cells.get? field.name).bind (KeyPart.ofCell? field.type) = some part)
      db.keyFields key := by
  unfold Database.keyOf
  rw [mapM_eq_ok_iff]
  constructor <;> intro h <;> refine h.imp fun field part hp => ?_
  · split at hp
    · next found hfound =>
      cases hp
      exact hfound
    · simp at hp
  · rw [hp]

theorem Key.fits_of_forall₂ : ∀ {fields : List Field} {key : Key},
    List.Forall₂ (fun field part => KeyPart.Fits field.type part) fields key →
    Key.Fits (fields.map (·.type)) key
  | [], [], _ => trivial
  | _ :: _, _ :: _, .cons h hs => ⟨h, Key.fits_of_forall₂ hs⟩

theorem Database.keyOf_ofKinds {key : Key} (hk : db.keyOf row = .ok key) :
    Key.OfKinds (db.keyFields.map (·.type)) key := by
  rw [Database.keyOf_eq_ok_iff] at hk
  unfold Key.OfKinds
  rw [List.forall₂_map_left_iff]
  refine hk.imp fun field part hpart => ?_
  obtain ⟨cell, -, hpart⟩ := Option.bind_eq_some_iff.1 hpart
  exact KeyPart.ofCell?_ofKind hpart

theorem Database.keyOf_fits {key : Key} (h : row.Fits db.fields) (hk : db.keyOf row = .ok key) :
    Key.Fits (db.keyFields.map (·.type)) key := by
  rw [Database.keyOf_eq_ok_iff] at hk
  refine Key.fits_of_forall₂ ?_
  refine (List.forall₂_iff_get.2 ⟨hk.length_eq, fun i hi hi' => ?_⟩)
  have hpart := hk.get hi hi'
  obtain ⟨cell, hc, hp⟩ := Option.bind_eq_some_iff.1 hpart
  have hm : db.keyFields.get ⟨i, hi⟩ ∈ db.fields := List.mem_of_mem_filter (List.get_mem _ _)
  exact KeyPart.ofCell?_fits (h _ hm cell hc) hp

/-- The names of the entries of a record are the field names. -/
theorem map_fst_zip {fields : List Field} {record : Record} (h : record.length = fields.length) :
    ((fields.zip record).map fun e => (e.1.name, e.2)).map (·.1) = fields.map (·.name) := by
  rw [List.map_map]
  have : (Prod.fst ∘ fun e : Field × Cell => (e.1.name, e.2)) =
      (fun f : Field => f.name) ∘ Prod.fst := rfl
  rw [this, ← List.map_map, List.map_fst_zip (by omega)]

/-- The row of a record holds the cells of the record, each under the name of its field. -/
theorem Database.rowOf_get? {record : Record} {h : Handle} (hn : (db.fields.map (·.name)).Nodup)
    (hl : record.length = db.fields.length) (name : String) :
    (db.rowOf h record).cells.get? name =
      ((db.fields.zip record).find? fun e => e.1.name == name).map (·.2) := by
  unfold Database.rowOf
  rw [Table.get?_ofList name (by rw [map_fst_zip hl]; exact hn), List.find?_map]
  simp [Function.comp_def]

theorem Database.rowOf_fits {record : Record} {h : Handle} (hn : (db.fields.map (·.name)).Nodup)
    (hr : Record.Fits db.fields record) : (db.rowOf h record).Fits db.fields := by
  intro field hm cell hc
  rw [Database.rowOf_get? hn hr.length_eq.symm] at hc
  obtain ⟨⟨found, c⟩, hfind, rfl⟩ := Option.map_eq_some_iff.1 hc
  have hz := List.mem_of_find?_eq_some hfind
  have hname : found.name = field.name := by simpa using List.find?_some hfind
  have hf : found ∈ db.fields := (List.of_mem_zip hz).1
  rw [← field_eq_of_name hn hf hm hname]
  exact List.forall₂_zip hr hz

theorem Database.decode_fits {images : Images} {record : Record}
    (hl : images.length = db.fields.length) (h : db.decode images = .ok record) :
    Record.Fits db.fields record := by
  unfold Database.decode at h
  rw [mapM_eq_ok_iff] at h
  have hlen : record.length = db.fields.length := by
    rw [← h.length_eq, List.length_zip]
    omega
  refine List.forall₂_iff_get.2 ⟨hlen.symm, fun i hi hi' => ?_⟩
  have hz : i < (db.fields.zip images).length := by
    rw [List.length_zip]
    omega
  have hcell := h.get hz hi'
  simp only [List.get_eq_getElem, List.getElem_zip] at hcell ⊢
  split at hcell
  · next cell hd =>
    cases hcell
    exact Cell.decode?_fits hd
  · simp at hcell

/-- Setting a field of a row to a cell that fits keeps the row fitting. -/
theorem Row.Fits.insert {fields : List Field} (hn : (fields.map (·.name)).Nodup)
    (h : row.Fits fields) {field : Field} {cell : Cell} (hm : field ∈ fields)
    (hc : cell.Fits field.type) :
    Row.Fits fields { row with cells := row.cells.insert field.name cell } := by
  intro f hf c hget
  rw [Table.get?_insert] at hget
  split at hget
  · next heq =>
    cases hget
    rw [field_eq_of_name hn hf hm heq]
    exact hc
  · exact h f hf c hget

/-- A row keeps fitting with bytes in a pseudo-field. -/
theorem Row.Fits.insert_pseudo {fields : List Field} (hw : WellTyped fields)
    (h : row.Fits fields) {name : String} (hp : isPseudoField name = true) (bytes : Bytes) :
    Row.Fits fields { row with cells := row.cells.insert name (.bytes bytes) } := by
  intro f hf c hget
  rw [Table.get?_insert] at hget
  split at hget
  · next heq =>
    cases hget
    exact hw.pseudo f hf (heq ▸ hp)
  · exact h f hf c hget

end Engine
end RowStore
