/-
# What a cursor finds

A cursor that was opened reaches the records that do not lie before the seed of the criteria and whose
leading key starts with the leading bytes, in the order of the scan. It finds those that its
predicates pass, up to the first that it stops at.

Key definitions: `CriteriaSet.seek`, `CriteriaSet.reached`.
Key theorems: `Client.Cursor.Opened.drains`, `CriteriaSet.Compiled.passes_eq`,
`Schema.WellFormed.leading_cell`.
-/
import RowStore.Proofs.Client.Draining
import RowStore.Proofs.Scan.Start

namespace RowStore

namespace ScanOrder

@[simp] theorem isDescending_inclusive (order : ScanOrder) :
    order.inclusive.isDescending = order.isDescending := by cases order <;> rfl

@[simp] theorem isExclusive_inclusive (order : ScanOrder) :
    order.inclusive.isExclusive = false := by cases order <;> rfl

theorem arrange_inclusive (order : ScanOrder) (records : Records) :
    order.inclusive.arrange records = order.arrange records := by
  unfold arrange
  rw [isDescending_inclusive]

end ScanOrder

/-! ### The leading field -/

namespace Schema

variable {schema : Schema} {field : Field} {key : Key} {record : Record}

theorem keys_of_leading (hleading : schema.leading? = some field) :
    ∃ rest, schema.keys = field :: rest := List.head?_eq_some_iff.1 hleading

theorem mem_of_leading (hleading : schema.leading? = some field) : field ∈ schema.fields :=
  List.mem_append_left _ (List.mem_of_mem_head? hleading)

/-- The leading cell of a record makes the leading part of its key. -/
theorem WellFormed.leading_cell (hw : schema.WellFormed) (hleading : schema.leading? = some field)
    (hfit : Record.Fits schema.fields record) (hkeyed : Record.Keyed schema.fields key record) :
    ∃ cell part rest, record.head? = some cell ∧ key = part :: rest ∧
      KeyPart.ofCell? field.type cell = some part ∧ cell.Fits field.type ∧
      Record.find? schema.fields record field.name = some (field, cell) := by
  obtain ⟨_ | ⟨field', keys⟩, values⟩ := schema
  · cases hleading
  · obtain rfl : field' = field := Option.some.inj hleading
    have hkey : field'.isKey = true := hw.keys _ List.mem_cons_self
    cases hfit with
    | cons hcell hrest =>
      next cell cells =>
      unfold Record.Keyed at hkeyed
      rw [Schema.fields, List.cons_append, List.zip_cons_cons,
        List.filter_cons_of_pos (by simpa using hkey)] at hkeyed
      cases hkeyed with
      | cons hpart hkeys =>
        refine ⟨cell, _, _, rfl, rfl, hpart, hcell, ?_⟩
        unfold Record.find?
        rw [Schema.fields, List.cons_append, List.zip_cons_cons, List.find?_cons_of_pos (by simp)]

/-- The field that has the name of the leading field is the leading field. -/
theorem WellFormed.eq_leading (hw : schema.WellFormed) (hm : field ∈ schema.fields)
    (hl : ((schema.leading?.map (·.name)) == some field.name) = true) :
    schema.leading? = some field := by
  rw [beq_iff_eq, Option.map_eq_some_iff] at hl
  obtain ⟨field', hleading, hname⟩ := hl
  rw [hleading, Engine.field_eq_of_name hw.distinct (mem_of_leading hleading) hm hname]

end Schema

/-! ### What is reached -/

namespace CriteriaSet

variable {criteria : CriteriaSet} {schema : Schema} {predicates predicates' : List Predicate}

/-- The scan that the criteria ask for over the database of a handle. -/
def seek (criteria : CriteriaSet) (schema : Schema) (d : Handle) : Seek where
  db := d
  order := criteria.order.inclusive
  keyTypes := schema.keys.map (·.type)
  seed := criteria.startKey schema.keys
  startsWith? := criteria.startsWith?
  last? := none

/-- Whether a scan reaches a key: it does not lie before the seed, and it has the leading bytes. -/
def reaches (criteria : CriteriaSet) (schema : Schema) (key : Key) : Bool :=
  !key.isBefore criteria.order.isDescending (criteria.startKey schema.keys) &&
    criteria.startsWith?.all (·.isPrefixOf key.leadingBytes)

/-- The records that a scan reaches, in its order. -/
def reached (criteria : CriteriaSet) (schema : Schema) (records : Records) : List (Key × Record) :=
  (criteria.order.arrange records).filter fun e => criteria.reaches schema e.1

theorem mem_reached {records : Records} {e : Key × Record} :
    e ∈ criteria.reached schema records ↔
      e ∈ records.entries ∧ criteria.reaches schema e.1 = true := by
  rw [reached, List.mem_filter, ScanOrder.mem_arrange]

/-- A scan comes to the records that it reaches one after the other. -/
theorem pairwise_reached (criteria : CriteriaSet) (schema : Schema) (records : Records) (d : Handle) :
    (criteria.reached schema records).Pairwise fun a b =>
      (criteria.seek schema d).precedes a.1 b.1 = true := by
  have harrange : (criteria.order.inclusive.arrange records).Pairwise fun a b =>
      (criteria.seek schema d).precedes a.1 b.1 = true := Seek.pairwise_arrange
  rw [ScanOrder.arrange_inclusive] at harrange
  exact harrange.filter _

/-- Where a scan comes to one key before another, it comes to the leading cell of the one no later
than to that of the other. -/
theorem precedes_of_seek {d : Handle} {type : FieldType} {x y : Cell} {p q : KeyPart} {a b : Key}
    (hx : KeyPart.ofCell? type x = some p) (hy : KeyPart.ofCell? type y = some q)
    (h : (criteria.seek schema d).precedes (p :: a) (q :: b) = true) :
    x.Precedes (type.descends criteria.order) y := by
  unfold Seek.precedes at h
  rw [show (criteria.seek schema d).order = criteria.order.inclusive from rfl,
    ScanOrder.isDescending_inclusive] at h
  rw [Cell.precedes_iff hx hy]
  cases hd : criteria.order.isDescending with
  | false =>
    simp only [hd, Bool.false_eq_true, if_false, beq_iff_eq, compare_cons] at h ⊢
    intro hgt
    rw [hgt] at h
    simp at h
  | true =>
    simp only [hd, if_true, beq_iff_eq, compare_cons] at h ⊢
    intro hgt
    rw [hgt] at h
    simp at h

/-- Without a bound that the scan of the leading field starts from there is no seed. -/
theorem startKey_eq_nil {field : Field} (hleading : schema.leading? = some field)
    (hnone : criteria.startBound? field = none) : criteria.startKey schema.keys = [] := by
  obtain ⟨rest, hkeys⟩ := Schema.keys_of_leading hleading
  rw [hkeys, startKey_cons, hnone]
  rfl

/-- Leading bytes are asked for of a string, and then nothing else of the seed. -/
theorem Compiled.startKey_eq_nil (hc : criteria.Compiled schema predicates)
    (h : criteria.startsWith?.isSome = true) :
    (∃ field, schema.leading? = some field ∧ field.type = .string) ∧
      criteria.startKey schema.keys = [] := by
  obtain ⟨bytes, hbytes⟩ := Option.isSome_iff_exists.1 h
  obtain ⟨field, predicate, hleading, hnone, hstart, -⟩ := hc.start bytes hbytes
  refine ⟨⟨field, hleading, (Predicate.startingWith_eq_ok hstart).1⟩,
    CriteriaSet.startKey_eq_nil hleading ?_⟩
  unfold startBound?
  rw [hnone]
  rfl

/-- The scan that compiled criteria ask for is at its start. -/
theorem Compiled.fresh (hc : criteria.Compiled schema predicates) (d : Handle) :
    (criteria.seek schema d).Fresh where
  last := rfl
  inclusive := ScanOrder.isExclusive_inclusive _
  length := by
    show (criteria.startKey schema.keys).length ≤ (schema.keys.map (·.type)).length
    rw [List.length_map]
    exact criteria.length_startKey_le schema.keys
  leading h := by
    obtain ⟨⟨field, hleading, htype⟩, hnil⟩ := hc.startKey_eq_nil h
    refine ⟨hnil, ?_⟩
    show (schema.keys.map (·.type)).head? = some .string
    rw [List.head?_map, show schema.keys.head? = some field from hleading, Option.map_some, htype]

/-- What is left to the scan at its start is what it reaches. -/
theorem Compiled.remaining_seek (hc : criteria.Compiled schema predicates) (d : Handle)
    {records : Records}
    (hfit : ∀ e ∈ records.entries, Key.Fits (schema.keys.map (·.type)) e.1) :
    (criteria.seek schema d).remaining records = criteria.reached schema records := by
  rw [Seek.remaining_of_fresh (hc.fresh d) fun e he => (hfit e he).ofKinds]
  show (criteria.order.inclusive.arrange records).filter _ = _
  rw [ScanOrder.arrange_inclusive]
  refine List.filter_congr fun e _ => ?_
  unfold Seek.admits reaches
  show (!e.1.isBefore criteria.order.inclusive.isDescending _ && _) = _
  rw [ScanOrder.isDescending_inclusive]
  rfl

/-! ### What passes -/

/-- A predicate is on a field of the schema. -/
theorem Compiled.field_of_mem (hc : criteria.Compiled schema predicates) {predicate : Predicate}
    (hm : predicate ∈ predicates) : ∃ field ∈ schema.fields, predicate.field = field.name := by
  rcases hc.only predicate hm with ⟨bytes, field, -, hleading, hstart⟩ |
    ⟨field, hfield, criterion, -, hcompile⟩
  · exact ⟨field, Schema.mem_of_leading hleading, (Predicate.startingWith_eq_ok hstart).2.1⟩
  · exact ⟨field, hfield, (Predicate.places_of_compile hcompile).1⟩

theorem Compiled.passes_mono (hc : criteria.Compiled schema predicates)
    (hc' : criteria.Compiled schema predicates') {fields : List Field} {record : Record}
    (h : passes predicates fields record = true) : passes predicates' fields record = true := by
  rw [passes_iff] at h ⊢
  intro predicate hm
  rcases hc'.only predicate hm with ⟨bytes, field, hbytes, hleading, hstart⟩ |
    ⟨field, hfield, criterion, hget, hcompile⟩
  · obtain ⟨field', predicate', hleading', -, hstart', hm'⟩ := hc.start bytes hbytes
    obtain rfl : field' = field := Option.some.inj (hleading'.symm.trans hleading)
    obtain rfl : predicate' = predicate := Except.ok.inj (hstart'.symm.trans hstart)
    exact h _ hm'
  · obtain ⟨predicate', hcompile', hall | hm'⟩ := hc.field field hfield criterion hget
    · obtain rfl : predicate' = predicate := Except.ok.inj (hcompile'.symm.trans hcompile)
      exact Predicate.judgeRecord_all hall fields record
    · obtain rfl : predicate' = predicate := Except.ok.inj (hcompile'.symm.trans hcompile)
      exact h _ hm'

/-- Whatever the criteria compile to passes the same records. -/
theorem Compiled.passes_eq (hc : criteria.Compiled schema predicates)
    (hc' : criteria.Compiled schema predicates') (fields : List Field) (record : Record) :
    passes predicates fields record = passes predicates' fields record := by
  rw [Bool.eq_iff_iff]
  exact ⟨hc.passes_mono hc', hc'.passes_mono hc⟩

end CriteriaSet

namespace Client

open Engine (Objects)

variable {db : Database} {stored : Engine.Database} {criteria : CriteriaSet} {cursor : Cursor}
  {world : World}

/-- The types of the key fields of a database in the hands of clients. -/
theorem Database.Ready.keyTypes_eq (hr : db.Ready world stored) :
    Engine.keyTypes stored.fields = db.schema.keys.map (·.type) := by
  rw [Engine.keyTypes, hr.fields, hr.wellFormed.filter_isKey]

/-- The leading cell of a record of the database makes the leading part of its key. -/
theorem Database.Ready.leading_cell (hr : db.Ready world stored) {field : Field}
    (hleading : db.schema.leading? = some field) {e : Key × Record}
    (he : e ∈ stored.records.entries) : ∃ cell part rest, e.2.head? = some cell ∧
      e.1 = part :: rest ∧ KeyPart.ofCell? field.type cell = some part ∧ cell.Fits field.type ∧
      Record.find? stored.fields e.2 field.name = some (field, cell) := by
  have hfit := (hr.fits he).2
  have hkeyed := hr.keyed e he
  rw [hr.fields] at hfit hkeyed ⊢
  exact hr.wellFormed.leading_cell hleading hfit hkeyed

/-- The predicate on the leading bytes passes the records whose leading key starts with them. -/
theorem Database.Ready.judge_start (hr : db.Ready world stored) {field : Field}
    (hleading : db.schema.leading? = some field) {bytes : Bytes} {order : ScanOrder}
    {predicate : Predicate} (hstart : Predicate.startingWith field bytes order = .ok predicate)
    {e : Key × Record} (he : e ∈ stored.records.entries) :
    predicate.judgeRecord stored.fields e.2 = .pass ↔
      bytes.isPrefixOf e.1.leadingBytes = true := by
  obtain ⟨htype, hname, hpass⟩ := Predicate.startingWith_eq_ok hstart
  obtain ⟨cell, part, rest, -, hkey, hpart, -, hfind⟩ := hr.leading_cell hleading he
  rw [← hname] at hfind
  rw [Predicate.judgeRecord_of_find? hfind, htype, hkey]
  rw [htype] at hpart
  cases cell with
  | word w => cases hpart
  | bytes b =>
    cases hpart
    exact hpass b

namespace Cursor

/-- An opened cursor is at the start of the scan that its criteria ask for. -/
theorem Opened.scans (hr : db.Ready world stored) (ho : cursor.Opened db criteria world) :
    cursor.Scans db stored (criteria.seek db.schema db.handle) world where
  ready := hr
  env := ho.env
  unfinished := ho.unfinished
  predicates predicate hm := by
    rw [hr.fields]
    exact ho.compiled.field_of_mem hm
  inclusive := by
    show (criteria.order.inclusive.isExclusive && _) = false
    rw [ScanOrder.isExclusive_inclusive, Bool.false_and]
  target := rfl
  source := by
    obtain ⟨handle, r, hseed, hrow, hseedRow⟩ := ho.seed
    refine ⟨⟨db.env, handle⟩, r, _, ?_, hrow, ho.unstarted, .inr ⟨rfl, ?_⟩⟩
    · unfold takeRow
      rw [ho.current]
      exact hseed
    · intro objects hdb hopen
      exact hseedRow.seek_eq hdb hopen hr.fields hr.wellFormed fun h =>
        (ho.compiled.startKey_eq_nil h).1

/-- An opened cursor finds the records that it reaches, sifted by its verdicts. -/
theorem Opened.drains (hr : db.Ready world stored) (ho : cursor.Opened db criteria world) :
    cursor.Drains world ((sift (cursor.verdict stored.fields)
      (criteria.reached db.schema stored.records)).map fun e => stored.rowOf db.handle e.2) := by
  refine drains_of_scans (ho.scans hr) ?_
  unfold finds
  rw [ho.compiled.remaining_seek db.handle fun e he => by
    rw [← hr.keyTypes_eq]
    exact (hr.fits he).1]

theorem verdict_eq_pass {fields : List Field} {e : Key × Record} :
    cursor.verdict fields e = .pass ↔ passes cursor.predicates fields e.2 = true := by
  rw [verdict, judgeAll_eq_pass]
  exact and_iff_right rfl

theorem verdict_eq_stop {fields : List Field} {e : Key × Record} :
    cursor.verdict fields e = .stop ↔ cursor.termination = .early ∧
      ∃ predicate ∈ cursor.predicates, predicate.judgeRecord fields e.2 = .stop :=
  judgeAll_eq_stop nofun

/-- Where nothing that passes lies behind a stop, all that passes is found. -/
theorem sift_verdict_eq_filter {fields : List Field} {l : List (Key × Record)}
    (h : l.Pairwise fun a b => cursor.verdict fields a = .stop →
      passes cursor.predicates fields b.2 = false) :
    sift (cursor.verdict fields) l = l.filter fun e => passes cursor.predicates fields e.2 := by
  rw [sift_eq_filter (h.imp fun {a b} hab hstop hpass => ?_)]
  · refine List.filter_congr fun e _ => ?_
    rw [Bool.eq_iff_iff, beq_iff_eq, verdict_eq_pass]
  · rw [verdict_eq_pass, hab hstop] at hpass
    simp at hpass

end Cursor
end Client
end RowStore
