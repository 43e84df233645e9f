/-
# Cursors find what matches

Where the values asked for can stand in their fields, and the words that are compared with signed
bounds can stand in a signed integer, the predicates of a cursor pass exactly the records whose
constrained fields match, the scan starts before none of them, and it stops before none of them
either. So a cursor finds exactly the rows that match, each once, in the order of the scan.

Key definitions: `CriteriaSet.Matches`, `CriteriaSet.Comparable`.
Key theorems: `CriteriaSet.Comparable.passes_iff_matches`, `Client.drains_matching`.
-/
import RowStore.Proofs.Client.Stopping

namespace RowStore

namespace CriteriaSet

variable {criteria : CriteriaSet} {schema : Schema} {records : Records} {predicates : List Predicate}

/-- Every constrained field of the record matches. -/
def Matches (criteria : CriteriaSet) (schema : Schema) (record : Record) : Prop :=
  ∀ e ∈ schema.fields.zip record, ∀ criterion, criteria.get? e.1.name = some criterion →
    criterion.Matches e.1.type criteria.order ((schema.leading?.map (·.name)) == some e.1.name) e.2

instance (criteria : CriteriaSet) (schema : Schema) (record : Record) :
    Decidable (criteria.Matches schema record) :=
  inferInstanceAs (Decidable (∀ e ∈ schema.fields.zip record, ∀ criterion ∈ criteria.get? e.1.name,
    criterion.Matches e.1.type criteria.order ((schema.leading?.map (·.name)) == some e.1.name) e.2))

/-- The values asked for can stand in their fields; where the bounds on a field of eight bytes are
all signed, the words stored there can stand in a signed integer. -/
structure Comparable (criteria : CriteriaSet) (schema : Schema) (records : Records) : Prop where
  inRange : ∀ field ∈ schema.fields, ∀ criterion, criteria.get? field.name = some criterion →
    ∀ value, criterion.bounds.1 = some value ∨ criterion.bounds.2 = some value →
      value.InRange field.type
  signed : ∀ r ∈ records.entries, ∀ e ∈ schema.fields.zip r.2, ∀ criterion reversed w,
    criteria.get? e.1.name = some criterion → criterion.hasSignedBounds = true →
      e.1.type = .int .eight reversed → e.2 = .word w → w.toNat ≤ Value.greatestInt

theorem fits_of_mem_zip {fields : List Field} {record : Record} (h : Record.Fits fields record)
    {e : Field × Cell} (he : e ∈ fields.zip record) : e.2.Fits e.1.type := by
  induction h with
  | nil => cases he
  | cons hcell _ ih =>
    rw [List.zip_cons_cons] at he
    rcases List.mem_cons.1 he with rfl | he
    · exact hcell
    · exact ih he

/-- The predicates of comparable criteria pass the records that match. -/
theorem Comparable.passes_iff_matches (h : criteria.Comparable schema records)
    (hw : schema.WellFormed) (hc : criteria.Compiled schema predicates)
    (hstart : criteria.startsWith? = none) {r : Key × Record} (hr : r ∈ records.entries)
    (hfit : Record.Fits schema.fields r.2) :
    passes predicates schema.fields r.2 = true ↔ criteria.Matches schema r.2 := by
  have hjudge : ∀ e ∈ schema.fields.zip r.2, ∀ criterion predicate,
      criteria.get? e.1.name = some criterion → Predicate.compile e.1 criterion criteria.order
        ((schema.leading?.map (·.name)) == some e.1.name) = .ok predicate →
      (predicate.judgeRecord schema.fields r.2 = .pass ↔ criterion.Matches e.1.type criteria.order
        ((schema.leading?.map (·.name)) == some e.1.name) e.2) := by
    intro e he criterion predicate hget hcompile
    have hm := (List.of_mem_zip he).1
    obtain ⟨hname, -, -, hplaces⟩ := Predicate.places_of_compile hcompile
    have hfind := Record.find?_of_mem_zip hw.distinct hfit.length_eq.symm he
    rw [← hname] at hfind
    rw [Predicate.judgeRecord_of_find? hfind]
    refine hplaces.judgeCell_eq_pass_iff (fits_of_mem_zip hfit he) (h.inRange e.1 hm criterion hget)
      fun reversed w htype hcell hbounds => ?_
    exact h.signed r hr e he criterion reversed w hget hbounds htype hcell
  rw [passes_iff]
  constructor
  · intro hpass e he criterion hget
    obtain ⟨predicate, hcompile, hkept⟩ := hc.field e.1 (List.of_mem_zip he).1 criterion hget
    rw [← hjudge e he criterion predicate hget hcompile]
    exact hkept.elim (fun hall => Predicate.judgeRecord_all hall _ _) (hpass predicate)
  · intro hmatches predicate hm
    rcases hc.only predicate hm with ⟨bytes, field, hbytes, -⟩ |
      ⟨field, hfield, criterion, hget, hcompile⟩
    · rw [hstart] at hbytes
      simp at hbytes
    · obtain ⟨i, hi, rfl⟩ := List.getElem_of_mem hfield
      have hi' : i < r.2.length := hfit.length_eq ▸ hi
      have he : (schema.fields[i], r.2[i]) ∈ schema.fields.zip r.2 := by
        rw [List.mem_iff_getElem]
        exact ⟨i, by rw [List.length_zip]; omega, by rw [List.getElem_zip]⟩
      rw [hjudge _ he criterion predicate hget hcompile]
      exact hmatches _ he criterion hget

/-- The key fields among the entries of a record. -/
theorem map_fst_filter_isKey (hw : schema.WellFormed) {record : Record}
    (hl : record.length = schema.fields.length) :
    ((schema.fields.zip record).filter (·.1.isKey)).map (·.1) = schema.keys := by
  rw [show (fun e : Field × Cell => e.1.isKey) = (fun f : Field => f.isKey) ∘ Prod.fst from rfl,
    ← List.filter_map, List.map_fst_zip (by omega), hw.filter_isKey]

/-- A scan reaches what matches comparable criteria. -/
theorem Comparable.reaches_of_matches (h : criteria.Comparable schema records)
    (hw : schema.WellFormed) (hstart : criteria.startsWith? = none) {r : Key × Record}
    (hfit : Record.Fits schema.fields r.2) (hkeyed : Record.Keyed schema.fields r.1 r.2)
    (hm : criteria.Matches schema r.2) : criteria.reaches schema r.1 = true := by
  unfold reaches
  rw [hstart, Option.all_none, Bool.and_true, Bool.not_eq_true']
  rw [← map_fst_filter_isKey hw hfit.length_eq.symm]
  refine not_isBefore hkeyed fun e he value hvalue => ?_
  have hzip := List.mem_of_mem_filter he
  obtain ⟨criterion, hget, hseed⟩ := Option.bind_eq_some_iff.1 hvalue
  refine (hm e hzip criterion hget).precedes (fits_of_mem_zip hfit hzip) hseed ?_
  refine h.inRange e.1 (List.of_mem_zip hzip).1 criterion hget value ?_
  unfold Criterion.seed at hseed
  split at hseed
  · exact .inr hseed
  · exact .inl hseed

/-- Comparable criteria split no records. -/
theorem Comparable.not_splits (h : criteria.Comparable schema records) {a b : Key × Record}
    (ha : a ∈ records.entries) (hb : b ∈ records.entries) : ¬ criteria.Splits schema a.2 b.2 := by
  rintro ⟨field, criterion, bound, reversed, v, w, hleading, htype, hget, hfar, hv, hw, -, hfirst,
    hother⟩
  have hbounds : criterion.hasSignedBounds = true := by
    unfold Criterion.farBound? at hfar
    split at hfar
    · rfl
    · rfl
    · simp at hfar
  have hle : ∀ r ∈ records.entries, ∀ u, r.2.head? = some (.word u) →
      u.toNat ≤ Value.greatestInt := by
    intro r hr u hu
    refine h.signed r hr (field, .word u) ?_ criterion reversed u hget hbounds htype rfl
    obtain ⟨rest, hkeys⟩ := Schema.keys_of_leading hleading
    obtain ⟨cells, hcells⟩ := List.head?_eq_some_iff.1 hu
    rw [Schema.fields, hkeys, hcells]
    exact List.mem_cons_self
  have hvle := hle a ha v hv
  have hwle := hle b hb w hw
  have hmax : Value.greatestInt = 2 ^ 63 - 1 := rfl
  unfold inFirstHalf at hfirst hother
  rw [decide_eq_true (by omega)] at hfirst hother
  rw [hfirst] at hother
  simp at hother

end CriteriaSet

namespace Client

open Cursor

/-- A cursor over comparable criteria without leading bytes finds the rows that match, each once, in
the order of the scan. -/
theorem drains_matching {db : Database} {stored : Engine.Database} {criteria : CriteriaSet}
    {cursor : Cursor} {before after : World} (hr : db.Ready before stored)
    (hstart : criteria.startsWith? = none)
    (hc : criteria.Comparable db.schema stored.records)
    (hopen : (db.openCursor criteria).run before = (.ok cursor, after)) :
    cursor.Drains after (((criteria.order.arrange stored.records).filter fun e =>
      criteria.Matches db.schema e.2).map fun e => stored.rowOf db.handle e.2) := by
  obtain ⟨hready, hopened⟩ := db.opened_of_openCursor hr hopen
  have hsift : sift (cursor.verdict stored.fields) (criteria.reached db.schema stored.records) =
      (criteria.reached db.schema stored.records).filter fun e =>
        passes cursor.predicates stored.fields e.2 := sift_verdict_eq_filter <|
      (criteria.pairwise_reached db.schema stored.records db.handle).imp_of_mem
        fun {a b} ha hb hab hstop => by
          by_contra hpass
          rw [Bool.not_eq_false] at hpass
          have hb' := (CriteriaSet.mem_reached.1 hb).1
          exact hc.not_splits (CriteriaSet.mem_reached.1 ha).1 hb'
            (hopened.splits_of_stop hready ha hb' hab hstop hpass)
  have hfilter : (criteria.reached db.schema stored.records).filter
        (fun e => passes cursor.predicates stored.fields e.2) =
      (criteria.order.arrange stored.records).filter fun e => criteria.Matches db.schema e.2 := by
    rw [CriteriaSet.reached, List.filter_filter]
    refine List.filter_congr fun e he => ?_
    have hmem := ScanOrder.mem_arrange.1 he
    have hfit := (hready.fits hmem).2
    have hkeyed := hready.keyed e hmem
    rw [hready.fields] at hfit hkeyed ⊢
    have hpasses := hc.passes_iff_matches hready.wellFormed hopened.compiled hstart hmem hfit
    rw [Bool.eq_iff_iff, Bool.and_eq_true, hpasses, decide_eq_true_iff]
    exact and_iff_left_of_imp (hc.reaches_of_matches hready.wellFormed hstart hfit hkeyed)
  rw [← hfilter, ← hsift]
  exact hopened.drains hready

namespace Numbers

/-- The numbers above 3 and up to 10. -/
def aboveThree : CriteriaSet where
  fields := [("number", .between (some (.uint 3)) (some (.uint 10)))]
  order? := some .gt

theorem comparable_aboveThree : aboveThree.Comparable schema stored.records where
  inRange field hm criterion hget value hv width reversed number htype hn := by
    obtain rfl := List.mem_singleton.1 hm
    cases hget
    cases htype
    rcases hv with hv | hv <;> cases hv <;> cases hn <;> decide
  signed r _ e he criterion reversed w hget hbounds _ _ := by
    obtain hfield := List.mem_singleton.1 (List.of_mem_zip he).1
    rw [hfield] at hget
    cases hget
    cases hbounds

/-- Above 3 and up to 10 there is one number. -/
theorem drains_aboveThree : ∃ cursor after,
    (database.openCursor aboveThree).run world = (.ok cursor, after) ∧
      cursor.Drains after [stored.rowOf database.handle [.word 10]] :=
  ⟨_, _, rfl, drains_matching ready rfl comparable_aboveThree rfl⟩

end Numbers

end Client
end RowStore
