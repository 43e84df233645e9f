/-
# Merges that add up

A merge function adds up a field if it stores the integer that is there plus the one that comes, and the
other images as they came. Both integers pass through images of the declared width, and so does the sum
on its way back into a record. So an upsert stores the record that came with the sum, cut to the width,
in the field, and records that are merged under one key one after the other leave the last of them, with
the sum of all.

Key definitions: `MergeFn.AddsUp`, `Record.addTo`, `Record.merged`.
Key theorems: `Engine.Database.settle_of_addsUp`, `Record.merged_append_singleton`.
-/
import RowStore.Proofs.Engine.Keyed
import RowStore.Proofs.Engine.Points

namespace RowStore

/-- Whatever is stored, the function accepts what comes, with the sum of the two integers in field `i`
and the other images as they came. The integer stored is 0 if nothing is. -/
def MergeFn.AddsUp (f : MergeFn) (i : Nat) : Prop :=
  ∀ (existing : Option Images) (incoming : Images) (a b : UInt64),
    existing.elim (some 0) (·.uint? i) = some a → incoming.uint? i = some b →
      (f.run existing incoming incoming).rejection = none ∧
        (f.run existing incoming incoming).result = incoming.setUInt i (a + b)

/-- The program with one act that adds adds up. -/
theorem MergeFn.addsUp_ofActs_add (i : Nat) : (MergeFn.ofActs [.add i]).AddsUp i := by
  intro existing incoming a b ha hb
  have hstored : (existing.bind (·.uint? i)).getD 0 = a := by
    cases existing with
    | none => exact Option.some.inj ha
    | some images => exact congrArg (Option.getD · 0) (show images.uint? i = some a from ha)
  refine ⟨rfl, ?_⟩
  show incoming.setUInt i ((existing.bind (·.uint? i)).getD 0 + (incoming.uint? i).getD 0) = _
  rw [hstored, hb, Option.getD_some]

/-! ### Records -/

namespace Record

variable {type : FieldType} {i : Nat} {record : Record} {records : List Record}

/-- The word in field `i`, 0 if there is none. -/
def wordAt (i : Nat) (record : Record) : UInt64 :=
  match record[i]? with
  | some (.word w) => w
  | _ => 0

/-- A record that comes, with the word that is stored added in field `i`. -/
def addTo (type : FieldType) (i : Nat) (stored? : Option Record) (incoming : Record) : Record :=
  incoming.set i (.word (type.truncate (stored?.elim 0 (wordAt i) + wordAt i incoming)))

/-- What is stored of records that come one after the other. -/
def merged (type : FieldType) (i : Nat) (records : List Record) : Option Record :=
  records.foldl (fun stored? incoming => some (addTo type i stored? incoming)) none

theorem wordAt_of_getElem? {w : UInt64} (h : record[i]? = some (.word w)) : wordAt i record = w := by
  unfold wordAt
  rw [h]

theorem wordAt_set (hi : i < record.length) (w : UInt64) :
    wordAt i (record.set i (.word w)) = w :=
  wordAt_of_getElem? (List.getElem?_set_self hi)

/-- What is stored has the sum of the words in the field. -/
theorem wordAt_merged (h : ∀ record ∈ records, i < record.length) :
    (merged type i records).elim 0 (wordAt i) = type.truncate (records.map (wordAt i)).sum := by
  induction records using List.reverseRecOn with
  | nil => rcases type with ⟨_ | _ | _ | _, reversed⟩ | _ <;> rfl
  | append_singleton records record ih =>
    have ih := ih fun r hm => h r (List.mem_append_left _ hm)
    have hi := h record (List.mem_append_right _ (List.mem_singleton_self _))
    unfold merged at ih ⊢
    rw [List.foldl_append, List.foldl_cons, List.foldl_nil, Option.elim_some, addTo, wordAt_set hi, ih,
      FieldType.truncate_truncate_add, List.map_append, List.sum_append]
    simp

/-- What is stored is the last record, with the sum of the words in the field. -/
theorem merged_append_singleton (h : ∀ record ∈ records, i < record.length) (last : Record) :
    merged type i (records ++ [last]) = some (last.set i
      (.word (type.truncate ((records ++ [last]).map (wordAt i)).sum))) := by
  have hsum : (records.foldl _ none).elim 0 (wordAt i) = type.truncate _ := wordAt_merged h
  unfold merged
  rw [List.foldl_append, List.foldl_cons, List.foldl_nil, addTo, hsum,
    FieldType.truncate_truncate_add, List.map_append, List.sum_append]
  simp

end Record

/-! ### Upserts -/

/-- Replacing a cell by one that fits keeps a record fitting. -/
theorem Record.Fits.set {fields : List Field} {record : Record} {i : Nat} {field : Field}
    {cell : Cell} (hfits : Record.Fits fields record) (hfield : fields[i]? = some field)
    (hcell : cell.Fits field.type) : Record.Fits fields (record.set i cell) := by
  obtain ⟨hi, rfl⟩ := List.getElem?_eq_some_iff.1 hfield
  refine List.forall₂_iff_get.2 ⟨hfits.length_eq.trans List.length_set.symm, fun j hj hj' => ?_⟩
  rw [List.get_eq_getElem, List.get_eq_getElem, List.getElem_set]
  split
  · next heq =>
    subst heq
    exact hcell
  · exact hfits.get hj (hfits.length_eq ▸ hj)

namespace Engine.Database

variable {db : Database} {i : Nat} {record : Record} {field : Field} {width : Width} {reversed : Bool}

theorem encode_eq_zipWith (db : Database) (record : Record) :
    db.encode record = List.zipWith (fun field cell => cell.encode field.type) db.fields record :=
  List.map_zip_eq_zipWith ..

theorem getElem?_encode {cell : Cell} (hfield : db.fields[i]? = some field)
    (hcell : record[i]? = some cell) : (db.encode record)[i]? = some (cell.encode field.type) := by
  rw [encode_eq_zipWith, List.getElem?_zipWith, hfield, hcell]

/-- The images of a record with a cell replaced. -/
theorem encode_set (hfield : db.fields[i]? = some field) (cell : Cell) :
    db.encode (record.set i cell) = (db.encode record).set i (cell.encode field.type) := by
  obtain ⟨hi, rfl⟩ := List.getElem?_eq_some_iff.1 hfield
  rw [encode_eq_zipWith, encode_eq_zipWith]
  refine List.ext_getElem (by simp) fun j hj hj' => ?_
  rw [List.getElem_zipWith, List.getElem_set, List.getElem_set]
  split
  · next heq =>
    subst heq
    rfl
  · rw [List.getElem_zipWith]

/-- The image of an integer field reads as the word in the record. -/
theorem uint?_encode (hfits : Record.Fits db.fields record) (hfield : db.fields[i]? = some field)
    (htype : field.type = .int width reversed) :
    (db.encode record).uint? i = some (Record.wordAt i record) := by
  obtain ⟨w, hword, hcut⟩ := hfits.getElem?_word hfield htype
  rw [Images.uint?, Images.bytes?, getElem?_encode hfield hword, Option.bind_some,
    Record.wordAt_of_getElem? hword]
  rw [htype] at hcut ⊢
  exact (Bytes.word?_ofWord width reversed w).trans (congrArg some hcut)

/-- Writing an integer to the images of a record makes them those of the record with the integer, cut to
the width. -/
theorem setUInt_encode (hfits : Record.Fits db.fields record)
    (hfield : db.fields[i]? = some field) (htype : field.type = .int width reversed) (w : UInt64) :
    (db.encode record).setUInt i w = db.encode (record.set i (.word (field.type.truncate w))) := by
  obtain ⟨v, hword, -⟩ := hfits.getElem?_word hfield htype
  -- The image that is replaced has the declared width, and so has the new one.
  have hlike : Images.wordLike ((Cell.word v).encode field.type) w = (Cell.word w).encode field.type := by
    have hwidth : min 8 (max 1 width.bytes) = width.bytes := by cases width <;> rfl
    rw [htype]
    show Bytes.ofWord (min 8 (max 1 (Bytes.ofWord width.bytes v).length)) w = Bytes.ofWord width.bytes w
    rw [Bytes.length_ofWord, hwidth]
  rw [Images.setUInt, List.modify_eq_set_getElem?, getElem?_encode hfield hword, encode_set hfield,
    Cell.encode_truncate, ← hlike]
  rfl

/-- An upsert into a database whose merge function adds up a field asks for the record of the row, with
the word that is visible under its key added. -/
theorem settle_of_addsUp {functions : Hook → MergeFn} {visible : Key → Option Record} {r : Row}
    {hook : Hook} (hhook : db.hook? = some hook) (hadds : (functions hook).AddsUp i)
    (hfield : db.fields[i]? = some field) (htype : field.type = .int width reversed)
    (hfits : r.Fits db.fields) {key : Key} (hkey : db.keyOf r = .ok key)
    (hvisible : ∀ record, visible key = some record → Record.Fits db.fields record) :
    (db.settle functions visible r .upsert).1 =
      .ok (key, some (Record.addTo field.type i (visible key) (db.recordOf r))) := by
  have hincoming : Record.Fits db.fields (db.recordOf r) := recordOf_fits hfits
  have hexisting : ((visible key).map db.encode).elim (some 0) (·.uint? i) =
      some ((visible key).elim 0 (Record.wordAt i)) := by
    cases hsome : visible key with
    | none => rfl
    | some record => exact uint?_encode (hvisible record hsome) hfield htype
  obtain ⟨haccepts, hresult⟩ := hadds _ _ _ _ hexisting (uint?_encode hincoming hfield htype)
  have hset : Record.Fits db.fields (Record.addTo field.type i (visible key) (db.recordOf r)) :=
    hincoming.set hfield ⟨by rw [htype]; rfl, FieldType.truncate_truncate _ _⟩
  unfold settle
  rw [hhook, hkey]
  dsimp only
  unfold accept
  rw [haccepts, hresult, setUInt_encode hincoming hfield htype]
  show Except.map _ (db.decode (db.encode (Record.addTo _ _ _ _))) = _
  rw [decode_encode hset]
  rfl

end Engine.Database
end RowStore
