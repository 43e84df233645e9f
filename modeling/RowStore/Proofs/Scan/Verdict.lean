/-
# Verdicts on records

A cursor judges a record by the cells that its predicates read, each as the kind its test asks for.
All predicates together pass a record if each does. Under early termination they stop at a record
that one of them stops at. A scan that sifts records by their verdicts keeps those that pass, up to
the first that it stops at; if no record behind one of the latter passes, it keeps all that pass.

Key definitions: `Predicate.judgeRecord`, `judgeAll`, `passes`, `sift`.
Key theorems: `judgeAll_eq_pass`, `judgeAll_eq_stop`, `sift_eq_filter`, `mem_front_of_mem_sift`.
-/
import RowStore.Proofs.Engine.Fit
import RowStore.Scan.Predicate

namespace RowStore

/-- The field of a name and the cell that a record holds in it. -/
def Record.find? (fields : List Field) (record : Record) (name : String) : Option (Field × Cell) :=
  (fields.zip record).find? fun e => e.1.name == name

/-- The entries of a record are found under the names of their fields. -/
theorem Record.find?_of_mem_zip {fields : List Field} {record : Record}
    (hn : (fields.map (·.name)).Nodup) (hl : record.length = fields.length) {e : Field × Cell}
    (he : e ∈ fields.zip record) : Record.find? fields record e.1.name = some e := by
  cases hfind : Record.find? fields record e.1.name with
  | none =>
    unfold Record.find? at hfind
    rw [List.find?_eq_none] at hfind
    exact absurd (beq_self_eq_true _) (hfind e he)
  | some e' =>
    have hname : e'.1.name = e.1.name := by simpa using List.find?_some hfind
    have hnames : ((fields.zip record).map fun e => e.1.name).Nodup := by
      have hfst := Engine.map_fst_zip hl
      rw [List.map_map] at hfst
      rw [← hfst] at hn
      exact hn
    rw [List.inj_on_of_nodup_map hnames (List.mem_of_find?_eq_some hfind) he hname]

namespace Engine.Database

variable {db : Database} {record : Record}

/-- The row of a record holds the cell in a position under the name of the field there. -/
theorem rowOf_get?_of_getElem? (hn : (db.fields.map (·.name)).Nodup)
    (hl : record.length = db.fields.length) {i : Nat} {field : Field} {cell : Cell}
    (hfield : db.fields[i]? = some field) (hcell : record[i]? = some cell) (d : Handle) :
    (db.rowOf d record).cells.get? field.name = some cell := by
  have hzip : (field, cell) ∈ db.fields.zip record :=
    List.mem_of_getElem? (List.getElem?_zip_eq_some.2 ⟨hfield, hcell⟩)
  have hfind := Record.find?_of_mem_zip hn hl hzip
  rw [rowOf_get? hn hl]
  exact congrArg (Option.map (·.2)) hfind

/-- The row of a record makes the record. -/
theorem recordOf_rowOf (hn : (db.fields.map (·.name)).Nodup)
    (hl : record.length = db.fields.length) (d : Handle) :
    db.recordOf (db.rowOf d record) = record := by
  have hlength : (db.recordOf (db.rowOf d record)).length = record.length :=
    (List.length_map _).trans hl.symm
  refine List.ext_getElem hlength fun i hi hi' => ?_
  have hfield : i < db.fields.length := hl ▸ hi'
  have hcell := rowOf_get?_of_getElem? hn hl (List.getElem?_eq_getElem hfield)
    (List.getElem?_eq_getElem hi') d
  refine (List.getElem_map _).trans ?_
  rw [hcell, Option.getD_some]

end Engine.Database

/-- Where a cell of a field of the given type lies, read as the kind that the test asks for. -/
def Test.place? (type : FieldType) : Test → Cell → Option Side
  | .all, _ => some .within
  | .signed interval, .word w => some (interval.locate w.toInt64)
  | .unsigned interval, .word w => some (interval.locate w)
  | .bytes interval, cell => some (interval.locate (cell.encode type))
  | _, .bytes _ => none

namespace Predicate

/-- The verdict on a cell of a field of the given type. -/
def judgeCell (predicate : Predicate) (type : FieldType) (cell : Cell) : Verdict :=
  predicate.judge (predicate.test.place? type cell)

/-- The verdict on a record. What is checked for nothing is not read. -/
def judgeRecord (predicate : Predicate) (fields : List Field) (record : Record) : Verdict :=
  if predicate.test = .all then .pass
  else
    match Record.find? fields record predicate.field with
    | some (field, cell) => predicate.judgeCell field.type cell
    | none => .skip

theorem judgeRecord_all {predicate : Predicate} (h : predicate.test = .all) (fields : List Field)
    (record : Record) : predicate.judgeRecord fields record = .pass := by
  rw [judgeRecord, if_pos h]

theorem judgeRecord_of_find? {predicate : Predicate} {fields : List Field} {record : Record}
    {field : Field} {cell : Cell}
    (h : Record.find? fields record predicate.field = some (field, cell)) :
    predicate.judgeRecord fields record = predicate.judgeCell field.type cell := by
  unfold judgeRecord
  split
  · next hall =>
    unfold judgeCell
    rw [hall]
    rfl
  · rw [h]

theorem judge_eq_pass {predicate : Predicate} {side? : Option Side} :
    predicate.judge side? = .pass ↔ side? = some .within := by
  rcases side? with _ | _ | _ | _ <;> unfold judge <;>
    cases predicate.leading <;> cases predicate.descending <;> simp

theorem judge_eq_stop {predicate : Predicate} {side? : Option Side} :
    predicate.judge side? = .stop ↔ predicate.leading = true ∧
      side? = some (if predicate.descending then .below else .above) := by
  rcases side? with _ | _ | _ | _ <;> unfold judge <;>
    cases predicate.leading <;> cases predicate.descending <;> simp

end Predicate

/-! ### All predicates together -/

section All

variable {termination : Termination} {fields : List Field} {record : Record}

/-- The verdict of predicates on a record, given that of the predicates before. -/
def judgeAll (termination : Termination) (fields : List Field) (record : Record) :
    Verdict → List Predicate → Verdict
  | verdict, [] => verdict
  | verdict, predicate :: rest =>
    match predicate.judgeRecord fields record with
    | .pass => judgeAll termination fields record verdict rest
    | .skip => judgeAll termination fields record .skip rest
    | .stop =>
      if termination = .early then .stop else judgeAll termination fields record .skip rest

/-- Whether every predicate passes a record. -/
def passes (predicates : List Predicate) (fields : List Field) (record : Record) : Bool :=
  predicates.all fun predicate => predicate.judgeRecord fields record == .pass

theorem passes_iff {predicates : List Predicate} : passes predicates fields record = true ↔
    ∀ predicate ∈ predicates, predicate.judgeRecord fields record = .pass := by
  simp [passes]

theorem judgeAll_eq_pass : ∀ {verdict : Verdict} {predicates : List Predicate},
    judgeAll termination fields record verdict predicates = .pass ↔
      verdict = .pass ∧ passes predicates fields record = true
  | verdict, [] => by simp [judgeAll, passes]
  | verdict, predicate :: rest => by
    rw [judgeAll, passes, List.all_cons, Bool.and_eq_true, beq_iff_eq]
    cases hp : predicate.judgeRecord fields record with
    | pass => simp [judgeAll_eq_pass, passes]
    | skip => simp [judgeAll_eq_pass]
    | stop =>
      dsimp only
      split
      · simp
      · simp [judgeAll_eq_pass]

theorem judgeAll_eq_stop : ∀ {verdict : Verdict} {predicates : List Predicate}, verdict ≠ .stop →
    (judgeAll termination fields record verdict predicates = .stop ↔ termination = .early ∧
      ∃ predicate ∈ predicates, predicate.judgeRecord fields record = .stop)
  | verdict, [], h => by simp [judgeAll, h]
  | verdict, predicate :: rest, h => by
    rw [judgeAll]
    cases hp : predicate.judgeRecord fields record with
    | pass => simp [judgeAll_eq_stop h, hp]
    | skip => simp [judgeAll_eq_stop (nofun : Verdict.skip ≠ .stop), hp]
    | stop =>
      dsimp only
      split
      · next he => simp [he, hp]
      · next he => simp [judgeAll_eq_stop (nofun : Verdict.skip ≠ .stop), he]

end All

/-! ### Sifting -/

section Sift

variable {α : Type} {verdict : α → Verdict}

/-- What passes, up to the first that the scan stops at. -/
def sift (verdict : α → Verdict) : List α → List α
  | [] => []
  | a :: rest =>
    match verdict a with
    | .pass => a :: sift verdict rest
    | .skip => sift verdict rest
    | .stop => []

/-- If nothing passes behind a stop, all that passes is kept. -/
theorem sift_eq_filter : ∀ {l : List α},
    l.Pairwise (fun a b => verdict a = .stop → verdict b ≠ .pass) →
    sift verdict l = l.filter fun a => verdict a == .pass
  | [], _ => rfl
  | a :: rest, h => by
    rw [List.pairwise_cons] at h
    rw [sift]
    cases ha : verdict a with
    | pass => rw [List.filter_cons_of_pos (by simp [ha]), sift_eq_filter h.2]
    | skip => rw [List.filter_cons_of_neg (by simp [ha]), sift_eq_filter h.2]
    | stop =>
      rw [List.filter_cons_of_neg (by simp [ha]), eq_comm, List.filter_eq_nil_iff]
      intro b hb
      simpa using h.1 b hb ha

/-- What is kept passes, and is kept in order. -/
theorem sift_sublist : ∀ l : List α,
    (sift verdict l).Sublist (l.filter fun a => verdict a == .pass)
  | [] => .slnil
  | a :: rest => by
    rw [sift]
    cases ha : verdict a with
    | pass =>
      rw [List.filter_cons_of_pos (by simp [ha])]
      exact (sift_sublist rest).cons_cons a
    | skip =>
      rw [List.filter_cons_of_neg (by simp [ha])]
      exact sift_sublist rest
    | stop => exact List.nil_sublist _

/-- Nothing is kept from behind a stop. -/
theorem mem_front_of_mem_sift {a b : α} (ha : verdict a = .stop) {behind : List α} :
    ∀ {front : List α}, b ∈ sift verdict (front ++ a :: behind) → b ∈ front
  | [], h => by
    rw [List.nil_append, sift, ha] at h
    simp at h
  | c :: front, h => by
    rw [List.cons_append, sift] at h
    cases hc : verdict c with
    | pass =>
      simp only [hc, List.mem_cons] at h
      rcases h with rfl | h
      · exact List.mem_cons_self
      · exact List.mem_cons_of_mem c (mem_front_of_mem_sift ha h)
    | skip =>
      simp only [hc] at h
      exact List.mem_cons_of_mem c (mem_front_of_mem_sift ha h)
    | stop =>
      simp only [hc] at h
      simp at h

end Sift
end RowStore
