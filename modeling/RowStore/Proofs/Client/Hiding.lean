/-
# Rows that the seed hides

A scan starts at the seed, whose parts are the bounds cut to the width of their fields, a negative one
taken for the unsigned number of the same bits. The predicates check the bounds as they are. A cursor with
exhaustive termination finds all that its predicates pass but what lies before the seed, so the seed
hides a row exactly if one that passes lies there.

Key theorems: `Engine.Database.rowOf_injective`, `Client.finds_all_iff`.
-/
import RowStore.Proofs.Client.Stopping

namespace RowStore

/-- Records of one database whose rows are the same are the same. -/
theorem Engine.Database.rowOf_injective {db : Engine.Database} (hn : (db.fields.map (·.name)).Nodup)
    {d : Handle} {a b : Record} (ha : a.length = db.fields.length)
    (hb : b.length = db.fields.length) (h : db.rowOf d a = db.rowOf d b) : a = b := by
  rw [← Engine.Database.recordOf_rowOf hn ha d, h, Engine.Database.recordOf_rowOf hn hb d]

/-- The key of a record is that of its key columns. -/
theorem Record.Keyed.eq {fields : List Field} {a b : Key} {record : Record}
    (ha : Record.Keyed fields a record) (hb : Record.Keyed fields b record) : a = b := by
  unfold Record.Keyed at ha hb
  generalize (fields.zip record).filter _ = entries at ha hb
  induction ha generalizing b with
  | nil =>
    cases hb
    rfl
  | cons hpart _ ih =>
    cases hb with
    | cons hpart' hrest =>
      rw [Option.some.inj (hpart.symm.trans hpart'), ih hrest]

namespace Client

open Cursor

variable {db : Database} {stored : Engine.Database} {world : World}

/-- Records of a database in the hands of clients whose rows are the same are the same. -/
theorem Database.Ready.eq_of_rowOf (hr : db.Ready world stored) {a b : Key × Record}
    (ha : a ∈ stored.records.entries) (hb : b ∈ stored.records.entries)
    (h : stored.rowOf db.handle a.2 = stored.rowOf db.handle b.2) : a = b := by
  have hn : (stored.fields.map (·.name)).Nodup := hr.fields ▸ hr.wellFormed.distinct
  have hrecord : a.2 = b.2 := Engine.Database.rowOf_injective hn (hr.fits ha).2.length_eq.symm
    (hr.fits hb).2.length_eq.symm h
  have hkey := hr.keyed b hb
  rw [← hrecord] at hkey
  exact Prod.ext ((hr.keyed a ha).eq hkey) hrecord

/-- What the predicates of a cursor pass is reached, unless it lies before the seed. -/
theorem Cursor.Opened.reaches_of_passes {criteria : CriteriaSet} {cursor : Cursor}
    (hr : db.Ready world stored) (ho : cursor.Opened db criteria world) {e : Key × Record}
    (he : e ∈ stored.records.entries)
    (hpass : passes cursor.predicates stored.fields e.2 = true) :
    criteria.reaches db.schema e.1 =
      !e.1.isBefore criteria.order.isDescending (criteria.startKey db.schema.keys) := by
  have hstart : criteria.startsWith?.all (·.isPrefixOf e.1.leadingBytes) = true := by
    cases hbytes : criteria.startsWith? with
    | none => rfl
    | some bytes =>
      obtain ⟨field, predicate, hleading, -, hstart, hm⟩ := ho.compiled.start bytes hbytes
      exact (hr.judge_start hleading hstart he).1 (passes_iff.1 hpass predicate hm)
  unfold CriteriaSet.reaches
  rw [hstart, Bool.and_true]

/-- A cursor with exhaustive termination finds every row that its predicates pass exactly if none of
these lies before the seed. -/
theorem finds_all_iff (criteria : CriteriaSet) {cursor : Cursor} {before after : World}
    (hr : db.Ready before stored)
    (hopen : (db.openCursor { criteria with termination? := some .exhaustive }).run before =
      (.ok cursor, after)) :
    ∃ rows, cursor.Drains after rows ∧
      ((∀ e ∈ stored.records.entries, passes cursor.predicates stored.fields e.2 = true →
          stored.rowOf db.handle e.2 ∈ rows) ↔
        ∀ e ∈ stored.records.entries, passes cursor.predicates stored.fields e.2 = true →
          e.1.isBefore criteria.order.isDescending (criteria.startKey db.schema.keys) = false) := by
  obtain ⟨hready, hopened⟩ := db.opened_of_openCursor hr hopen
  refine ⟨_, hopened.drains_exhaustive hready hopened.termination, ?_⟩
  refine forall_congr' fun e => forall_congr' fun he => forall_congr' fun hpass => ?_
  have hreaches : criteria.reaches db.schema e.1 =
      !e.1.isBefore criteria.order.isDescending (criteria.startKey db.schema.keys) :=
    hopened.reaches_of_passes hready he hpass
  rw [List.mem_map]
  constructor
  · rintro ⟨e', hfound, hrow⟩
    obtain ⟨hreached, -⟩ := List.mem_filter.1 hfound
    obtain ⟨he', hreaches'⟩ := CriteriaSet.mem_reached.1 hreached
    obtain rfl : e' = e := hready.eq_of_rowOf he' he hrow
    exact (Bool.not_eq_eq_eq_not.1 (hreaches.symm.trans hreaches'))
  · intro hnot
    refine ⟨e, List.mem_filter.2 ⟨CriteriaSet.mem_reached.2 ⟨he, ?_⟩, hpass⟩, rfl⟩
    exact hreaches.trans (congrArg not hnot)

end Client

namespace Client.Numbers

/-- The numbers from -5 to 5. -/
def aroundZero : CriteriaSet where
  fields := [("number", .between (some (.int (-5))) (some (.int 5)))]

/-- A scan from -5 starts behind 3, which lies in the range. -/
theorem hides_three : ∃ cursor after rows,
    (database.openCursor { aroundZero with termination? := some .exhaustive }).run world =
        (.ok cursor, after) ∧
      cursor.Drains after rows ∧ ∃ e ∈ stored.records.entries,
        passes cursor.predicates stored.fields e.2 = true ∧
          stored.rowOf database.handle e.2 ∉ rows := by
  obtain ⟨rows, hdrains, hall⟩ := finds_all_iff aroundZero ready rfl
  refine ⟨_, _, rows, rfl, hdrains, ?_⟩
  by_contra hnone
  have hthree := hall.1 (fun e he hpass => by_contra fun hnot => hnone ⟨e, he, hpass, hnot⟩)
    ([.up 3], [.word 3]) (.head _) (by decide)
  revert hthree
  decide

end Client.Numbers
end RowStore
