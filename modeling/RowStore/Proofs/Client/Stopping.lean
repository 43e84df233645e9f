/-
# Cursors that stop early

A cursor with early termination ends its scan at a record past the range of the leading key. It loses
no record by that, but for one case: the leading key is an integer of eight bytes, the only bound
on it is a signed one at the far end of the scan, a record lies past the bound in the half of the words that
the scan comes to first, and one that passes lies in the other. Then the scan ends before it comes to
the second.

Key definitions: `CriteriaSet.Splits`.
Key theorems: `Client.Cursor.Opened.splits_of_stop`, `Client.early_eq_exhaustive_iff`.
-/
import RowStore.Proofs.Client.Finding

namespace RowStore

/-- The only bound on the leading key, an integer of eight bytes, is a signed one at the far end of the
scan; the leading word of the first record lies past it in the half scanned first, that of the second
lies in the other half. -/
def CriteriaSet.Splits (criteria : CriteriaSet) (schema : Schema) (a b : Record) : Prop :=
  ∃ field criterion bound reversed v w, schema.leading? = some field ∧
    field.type = .int .eight reversed ∧ criteria.get? field.name = some criterion ∧
    criterion.farBound? (field.type.descends criteria.order) = some bound ∧
    a.head? = some (.word v) ∧ b.head? = some (.word w) ∧
    isPast (field.type.descends criteria.order) bound v = true ∧
    inFirstHalf (field.type.descends criteria.order) v = true ∧
    inFirstHalf (field.type.descends criteria.order) w = false

namespace Client

namespace Cursor

variable {db : Database} {stored : Engine.Database} {criteria : CriteriaSet} {cursor : Cursor}
  {world : World}

/-- A cursor stops at a record that it reaches because of the criterion on the leading field. -/
theorem Opened.stop_of_leading (hr : db.Ready world stored) (ho : cursor.Opened db criteria world)
    {e : Key × Record} (he : e ∈ criteria.reached db.schema stored.records)
    (hstop : cursor.verdict stored.fields e = .stop) :
    ∃ field criterion predicate, db.schema.leading? = some field ∧
      criteria.get? field.name = some criterion ∧ predicate ∈ cursor.predicates ∧
      predicate.field = field.name ∧ predicate.descending = field.type.descends criteria.order ∧
      predicate.Places field criterion criteria.order true ∧
      predicate.judgeRecord stored.fields e.2 = .stop := by
  obtain ⟨-, predicate, hm, hstop⟩ := verdict_eq_stop.1 hstop
  rcases ho.compiled.only predicate hm with ⟨bytes, field, hbytes, hleading, hstart⟩ |
    ⟨field, hfield, criterion, hget, hcompile⟩
  · -- The predicate on the leading bytes passes what is reached.
    exfalso
    obtain ⟨hmem, hreaches⟩ := CriteriaSet.mem_reached.1 he
    unfold CriteriaSet.reaches at hreaches
    rw [hbytes, Bool.and_eq_true] at hreaches
    rw [(hr.judge_start hleading hstart hmem).2 hreaches.2] at hstop
    simp at hstop
  · obtain ⟨hname, hl, hd, hplaces⟩ := Predicate.places_of_compile hcompile
    have htrue : predicate.leading = true := by
      unfold Predicate.judgeRecord at hstop
      split at hstop
      · simp at hstop
      · split at hstop
        · exact (Predicate.judge_eq_stop.1 hstop).1
        · simp at hstop
    rw [hl] at htrue
    rw [htrue] at hplaces
    exact ⟨field, criterion, predicate, hr.wellFormed.eq_leading hfield htrue, hget, hm, hname, hd,
      hplaces, hstop⟩

/-- A cursor that stops at a record comes to none that passes behind it, unless the two are split. -/
theorem Opened.splits_of_stop (hr : db.Ready world stored) (ho : cursor.Opened db criteria world)
    {a b : Key × Record} (ha : a ∈ criteria.reached db.schema stored.records)
    (hb : b ∈ stored.records.entries)
    (hab : (criteria.seek db.schema db.handle).precedes a.1 b.1 = true)
    (hstop : cursor.verdict stored.fields a = .stop)
    (hpass : passes cursor.predicates stored.fields b.2 = true) :
    criteria.Splits db.schema a.2 b.2 := by
  obtain ⟨field, criterion, predicate, hleading, hget, hm, hname, hd, hplaces, hstop⟩ :=
    ho.stop_of_leading hr ha hstop
  obtain ⟨hstored, hreaches⟩ := CriteriaSet.mem_reached.1 ha
  obtain ⟨x, p, as, hx, hakey, hxpart, hxfits, hxfind⟩ := hr.leading_cell hleading hstored
  obtain ⟨y, q, bs, hy, hbkey, hypart, hyfits, hyfind⟩ := hr.leading_cell hleading hb
  rw [← hname] at hxfind hyfind
  have hpass := passes_iff.1 hpass predicate hm
  rw [Predicate.judgeRecord_of_find? hxfind] at hstop
  rw [Predicate.judgeRecord_of_find? hyfind] at hpass
  rw [hakey, hbkey] at hab
  have hxy := CriteriaSet.precedes_of_seek hxpart hypart hab
  obtain ⟨reversed, v, w, htype, rfl, rfl, hv, hw⟩ :=
    hplaces.halves_of_stop_pass hd hxfits hyfits hxy hstop hpass
  have hstart : ∀ value start, criterion.seed (field.type.descends criteria.order) = some value →
      value.cellIn field.type = .word start →
      (Cell.word start).Precedes (field.type.descends criteria.order) (.word v) := by
    intro value start hseed hcell
    obtain ⟨keys, hkeys⟩ := Schema.keys_of_leading hleading
    have hbound : criteria.startBound? field = some value := by
      unfold CriteriaSet.startBound?
      rw [hget]
      exact hseed
    have hnot : Key.isBefore (p :: as) criteria.order.isDescending
        (criteria.startKey (field :: keys)) = false := by
      unfold CriteriaSet.reaches at hreaches
      rw [hkeys, hakey, Bool.and_eq_true, Bool.not_eq_true'] at hreaches
      exact hreaches.1
    obtain ⟨part, hpart⟩ : ∃ part, KeyPart.ofCell? field.type (.word start) = some part := by
      rw [htype]
      cases reversed <;> exact ⟨_, rfl⟩
    rw [← hcell]
    exact CriteriaSet.precedes_of_not_isBefore hxpart hnot hbound (hcell ▸ hpart)
  obtain ⟨bound, hfar, hpast⟩ := hplaces.farBound_of_halves hd htype hv hw hstart hstop hpass
  exact ⟨field, criterion, bound, reversed, v, w, hleading, htype, hget, hfar, hx, hy, hpast, hv, hw⟩

/-- A cursor with early termination stops at the first of two records that are split. -/
theorem Opened.stop_of_splits (hr : db.Ready world stored) (ho : cursor.Opened db criteria world)
    (hearly : cursor.termination = .early) {a b : Key × Record} (ha : a ∈ stored.records.entries)
    (h : criteria.Splits db.schema a.2 b.2) : cursor.verdict stored.fields a = .stop := by
  obtain ⟨field, criterion, bound, reversed, v, w, hleading, htype, hget, hfar, hv, -, hpast, -⟩ := h
  obtain ⟨predicate, hcompile, hkept⟩ :=
    ho.compiled.field field (Schema.mem_of_leading hleading) criterion hget
  obtain ⟨hname, hl, hd, hplaces⟩ := Predicate.places_of_compile hcompile
  have hflag : ((db.schema.leading?.map (·.name)) == some field.name) = true := by
    rw [hleading]
    exact beq_self_eq_true _
  rw [hflag] at hl hplaces
  have hstop := hplaces.stop_of_isPast hl hd hfar (by rw [htype]; rfl) hpast
  have hm : predicate ∈ cursor.predicates := by
    refine hkept.resolve_left fun hall => ?_
    unfold Predicate.judgeCell at hstop
    rw [hall] at hstop
    cases hstop
  obtain ⟨x, p, as, hx, -, -, -, hfind⟩ := hr.leading_cell hleading ha
  obtain rfl : x = .word v := Option.some.inj (hx.symm.trans hv)
  rw [← hname] at hfind
  exact verdict_eq_stop.2 ⟨hearly, predicate, hm, (Predicate.judgeRecord_of_find? hfind).trans hstop⟩

/-- Where two records are split, the scan reaches all, and comes to the first one first. -/
theorem Opened.behind_of_splits (hr : db.Ready world stored) (ho : cursor.Opened db criteria world)
    {a b : Key × Record} (ha : a ∈ stored.records.entries) (hb : b ∈ stored.records.entries)
    (h : criteria.Splits db.schema a.2 b.2) : ∃ front behind,
      criteria.reached db.schema stored.records = front ++ a :: behind ∧ b ∈ behind := by
  obtain ⟨field, criterion, bound, reversed, v, w, hleading, -, hget, hfar, hv, hw, -, hfirst,
    hother⟩ := h
  have hreaches : ∀ key, criteria.reaches db.schema key = true := by
    intro key
    have hbound : criteria.startBound? field = none := by
      unfold CriteriaSet.startBound? Criterion.seed
      rw [hget, Option.bind_some, Criterion.bounds_of_farBound hfar]
      cases field.type.descends criteria.order <;> rfl
    have hstart : criteria.startsWith? = none := by
      cases hbytes : criteria.startsWith? with
      | none => rfl
      | some bytes =>
        obtain ⟨field', -, hleading', hnone, -⟩ := ho.compiled.start bytes hbytes
        obtain rfl : field' = field := Option.some.inj (hleading'.symm.trans hleading)
        rw [hget] at hnone
        simp at hnone
    unfold CriteriaSet.reaches
    rw [CriteriaSet.startKey_eq_nil hleading hbound, CriteriaSet.isBefore_nil, hstart]
    rfl
  obtain ⟨front, behind, hsplit⟩ :=
    List.append_of_mem (CriteriaSet.mem_reached.2 ⟨ha, hreaches a.1⟩)
  refine ⟨front, behind, hsplit, ?_⟩
  have hmem := CriteriaSet.mem_reached.2 ⟨hb, hreaches b.1⟩
  have hpairwise := criteria.pairwise_reached db.schema stored.records db.handle
  rw [hsplit] at hmem hpairwise
  obtain ⟨x, p, as, hx, hakey, hxpart, -⟩ := hr.leading_cell hleading ha
  obtain ⟨y, q, bs, hy, hbkey, hypart, -⟩ := hr.leading_cell hleading hb
  obtain rfl : x = .word v := Option.some.inj (hx.symm.trans hv)
  obtain rfl : y = .word w := Option.some.inj (hy.symm.trans hw)
  rcases List.mem_append.1 hmem with hfront | hrest
  · have hba := (List.pairwise_append.1 hpairwise).2.2 b hfront a List.mem_cons_self
    rw [hakey, hbkey] at hba
    exact absurd (CriteriaSet.precedes_of_seek hypart hxpart hba) (not_precedes_of_halves hfirst hother)
  · rcases List.mem_cons.1 hrest with rfl | hbehind
    · obtain rfl : v = w := by
        rw [hv] at hw
        cases hw
        rfl
      rw [hfirst] at hother
      simp at hother
    · exact hbehind

/-- A cursor with exhaustive termination finds all that it reaches and that its predicates pass. -/
theorem Opened.drains_exhaustive (hr : db.Ready world stored) (ho : cursor.Opened db criteria world)
    (hx : cursor.termination = .exhaustive) :
    cursor.Drains world (((criteria.reached db.schema stored.records).filter fun e =>
      passes cursor.predicates stored.fields e.2).map fun e => stored.rowOf db.handle e.2) := by
  rw [← sift_verdict_eq_filter (List.pairwise_of_forall fun a b hstop => ?_)]
  · exact ho.drains hr
  · have hearly := (verdict_eq_stop.1 hstop).1
    rw [hx] at hearly
    simp at hearly

end Cursor

open Cursor

/-- Early termination loses no row, unless two records are split, and the second passes. -/
theorem early_eq_exhaustive_iff {db : Database} {stored : Engine.Database}
    (criteria : CriteriaSet) {early exhaustive : Cursor} {before before' after after' : World}
    (hr : db.Ready before stored) (hr' : db.Ready before' stored)
    (he : (db.openCursor { criteria with termination? := some .early }).run before =
      (.ok early, after))
    (hx : (db.openCursor { criteria with termination? := some .exhaustive }).run before' =
      (.ok exhaustive, after')) :
    ∃ rows rows', early.Drains after rows ∧ exhaustive.Drains after' rows' ∧
      (rows = rows' ↔ ¬ ∃ a ∈ stored.records.entries, ∃ b ∈ stored.records.entries,
        criteria.Splits db.schema a.2 b.2 ∧
          passes exhaustive.predicates stored.fields b.2 = true) := by
  obtain ⟨hready, hopened⟩ := db.opened_of_openCursor hr he
  obtain ⟨hready', hopened'⟩ := db.opened_of_openCursor hr' hx
  have hpasses : ∀ record, passes early.predicates stored.fields record =
      passes exhaustive.predicates stored.fields record :=
    (⟨hopened.compiled.start, hopened.compiled.field, hopened.compiled.only⟩ :
      CriteriaSet.Compiled { criteria with termination? := some .exhaustive } db.schema
        early.predicates).passes_eq hopened'.compiled stored.fields
  refine ⟨_, _, hopened.drains hready, hopened'.drains_exhaustive hready' hopened'.termination, ?_⟩
  show (sift (early.verdict stored.fields) (criteria.reached db.schema stored.records)).map _ =
    ((criteria.reached db.schema stored.records).filter _).map _ ↔ _
  have hsifted : (sift (early.verdict stored.fields) (criteria.reached db.schema stored.records)).Sublist
      _ := sift_sublist _
  have hfilter : ((criteria.reached db.schema stored.records).filter fun e =>
      early.verdict stored.fields e == .pass) =
      (criteria.reached db.schema stored.records).filter fun e =>
        passes exhaustive.predicates stored.fields e.2 := by
    refine List.filter_congr fun e _ => ?_
    rw [Bool.eq_iff_iff, beq_iff_eq, verdict_eq_pass, hpasses]
  rw [hfilter] at hsifted
  constructor
  · rintro hrows ⟨a, ha, b, hb, hsplits, hpass⟩
    -- As many rows are found, so the same records are; but the second lies behind the stop.
    have hlength := congrArg List.length hrows
    rw [List.length_map, List.length_map] at hlength
    have hsame := hsifted.eq_of_length hlength
    obtain ⟨front, behind, hreached, hbehind⟩ : ∃ front behind,
        criteria.reached db.schema stored.records = front ++ a :: behind ∧ b ∈ behind :=
      hopened.behind_of_splits hready ha hb hsplits
    have hstop : early.verdict stored.fields a = .stop :=
      hopened.stop_of_splits hready hopened.termination ha hsplits
    have hpairwise := criteria.pairwise_reached db.schema stored.records db.handle
    have hfound : b ∈ (criteria.reached db.schema stored.records).filter fun e =>
        passes exhaustive.predicates stored.fields e.2 := by
      rw [List.mem_filter, hreached]
      exact ⟨List.mem_append_right _ (List.mem_cons_of_mem a hbehind), hpass⟩
    rw [← hsame, hreached] at hfound
    rw [hreached] at hpairwise
    have hself := (List.pairwise_append.1 hpairwise).2.2 b (mem_front_of_mem_sift hstop hfound) b
      (List.mem_cons_of_mem a hbehind)
    rw [Seek.precedes_asymm hself] at hself
    simp at hself
  · intro hnone
    refine congrArg (List.map _) ?_
    rw [sift_verdict_eq_filter]
    · exact List.filter_congr fun e _ => hpasses e.2
    · refine (criteria.pairwise_reached db.schema stored.records db.handle).imp_of_mem ?_
      intro a b ha hb hab hstop
      by_contra hpass
      rw [Bool.not_eq_false] at hpass
      have hb' := (CriteriaSet.mem_reached.1 hb).1
      refine hnone ⟨a, (CriteriaSet.mem_reached.1 ha).1, b, hb', ?_, (hpasses b.2).symm.trans hpass⟩
      exact hopened.splits_of_stop hready ha hb' hab hstop hpass

namespace Numbers

/-- The numbers up to 5. -/
def upToFive : CriteriaSet where
  fields := [("number", .between none (some (.int 5)))]

/-- A scan up to 5 stops at 10, before it comes to the greatest number of all, which counts as
negative. -/
theorem early_loses_greatest : ∃ early after exhaustive after' rows rows',
    (database.openCursor { upToFive with termination? := some .early }).run world =
        (.ok early, after) ∧
      (database.openCursor { upToFive with termination? := some .exhaustive }).run world =
        (.ok exhaustive, after') ∧
      early.Drains after rows ∧ exhaustive.Drains after' rows' ∧ rows ≠ rows' := by
  obtain ⟨rows, rows', hrows, hrows', hiff⟩ :=
    early_eq_exhaustive_iff upToFive ready ready rfl rfl
  refine ⟨_, _, _, _, rows, rows', rfl, rfl, hrows, hrows', fun hsame => hiff.1 hsame ?_⟩
  refine ⟨([.up 10], [.word 10]), .tail _ (.head _), ([.up (-1)], [.word (-1)]),
    .tail _ (.tail _ (.head _)), ?_, by decide⟩
  exact ⟨⟨"number", .int .eight false, true⟩, .between none (some (.int 5)), 5, false, 10, -1,
    by decide, by decide, by decide, by decide, by decide, by decide, by decide, by decide,
    by decide⟩

end Numbers

end Client
end RowStore
