/-
# Where a scan starts

The bounds that a scan starts from make a seed: a part for each key field, up to the first without
such a bound, each cut to the width of its field. A scan leaves out what lies before the seed. A
record whose key columns match, with bounds that can stand in their fields, does not.

Key definitions: `CriteriaSet.startKey`, `Record.Keyed`.
Key theorems: `Cell.precedes_iff`, `CriteriaSet.not_isBefore`, `Criterion.Matches.precedes`.
-/
import RowStore.Engine.Fetch
import RowStore.Proofs.Scan.Matching
import RowStore.Proofs.Scan.Stopping

namespace RowStore

/-- The key columns of a record equal its key. -/
def Record.Keyed (fields : List Field) (key : Key) (record : Record) : Prop :=
  List.Forall₂ (fun e part => KeyPart.ofCell? e.1.type e.2 = some part)
    ((fields.zip record).filter (·.1.isKey)) key

/-- The bound that a scan of a field starts from. -/
def CriteriaSet.startBound? (criteria : CriteriaSet) (field : Field) : Option Value :=
  (criteria.get? field.name).bind fun criterion => criterion.seed (field.type.descends criteria.order)

/-- The seed of a scan over the given key fields. -/
def CriteriaSet.startKey (criteria : CriteriaSet) (keys : List Field) : Key :=
  Engine.Objects.leadingRun (keys.map fun field => (criteria.startBound? field).bind fun value =>
    KeyPart.ofCell? field.type (value.cellIn field.type))

theorem length_leadingRun_le {α : Type} : ∀ l : List (Option α),
    (Engine.Objects.leadingRun l).length ≤ l.length
  | [] => Nat.le_refl 0
  | none :: _ => Nat.zero_le _
  | some _ :: rest => Nat.succ_le_succ (length_leadingRun_le rest)

theorem CriteriaSet.length_startKey_le (criteria : CriteriaSet) (keys : List Field) :
    (criteria.startKey keys).length ≤ keys.length :=
  Nat.le_trans (length_leadingRun_le _) (Nat.le_of_eq (List.length_map _))

theorem compare_ne_gt_iff_toNat {v w : UInt64} : compare v w ≠ .gt ↔ v.toNat ≤ w.toNat := by
  rw [ne_eq, Std.compare_eq_gt]
  exact UInt64.not_lt

/-- Cells are scanned in the order of the key parts that they make. -/
theorem Cell.precedes_iff {type : FieldType} {order : ScanOrder} {x y : Cell} {p q : KeyPart}
    (hx : KeyPart.ofCell? type x = some p) (hy : KeyPart.ofCell? type y = some q) :
    x.Precedes (type.descends order) y ↔
      if order.isDescending then compare q p ≠ .gt else compare p q ≠ .gt := by
  unfold FieldType.descends
  rcases type with ⟨width, _ | _⟩ | _ <;> rcases x with v | b <;> rcases y with w | c <;>
    cases hx <;> cases hy
  · -- An upward integer field: in the direction of the scan.
    cases order.isDescending with
    | false => exact compare_ne_gt_iff_toNat.symm
    | true => exact compare_ne_gt_iff_toNat.symm
  · -- A reversed one: against it.
    cases order.isDescending with
    | false => exact compare_ne_gt_iff_toNat.symm
    | true => exact compare_ne_gt_iff_toNat.symm
  · cases order.isDescending with
    | false => exact Iff.rfl
    | true => exact Iff.rfl

namespace CriteriaSet

variable {criteria : CriteriaSet} {entries : List (Field × Cell)} {key : Key}

theorem startKey_cons (criteria : CriteriaSet) (field : Field) (keys : List Field) :
    criteria.startKey (field :: keys) =
      match (criteria.startBound? field).bind fun value =>
        KeyPart.ofCell? field.type (value.cellIn field.type) with
      | some part => part :: criteria.startKey keys
      | none => [] := by
  unfold startKey
  rw [List.map_cons]
  generalize (criteria.startBound? field).bind _ = part?
  cases part? <;> rfl

theorem isBefore_nil (key : Key) (descending : Bool) : key.isBefore descending [] = false := by
  unfold Key.isBefore
  rw [Key.compareOn_nil]
  cases descending <;> rfl

/-- A key is not before the seed if no part of it is before the bound on its field. -/
theorem not_isBefore
    (hkeyed : List.Forall₂ (fun e part => KeyPart.ofCell? e.1.type e.2 = some part) entries key)
    (h : ∀ e ∈ entries, ∀ value, criteria.startBound? e.1 = some value →
      (value.cellIn e.1.type).Precedes (e.1.type.descends criteria.order) e.2) :
    key.isBefore criteria.order.isDescending (criteria.startKey (entries.map (·.1))) = false := by
  induction hkeyed with
  | nil => exact isBefore_nil _ _
  | @cons e part entries key hpart hkey ih =>
    have ih := ih fun e' he' => h e' (List.mem_cons_of_mem e he')
    rw [List.map_cons, startKey_cons]
    split
    · next start hstart =>
      obtain ⟨value, hvalue, hcell⟩ := Option.bind_eq_some_iff.1 hstart
      have hle := (Cell.precedes_iff hcell hpart).1 (h e List.mem_cons_self value hvalue)
      unfold Key.isBefore at ih ⊢
      rw [Key.compareOn]
      cases hd : criteria.order.isDescending with
      | false =>
        simp only [hd, Bool.false_eq_true, if_false, beq_eq_false_iff_ne] at ih hle ⊢
        cases hc : compare part start with
        | lt => exact absurd hc (compare_ne_lt_iff.2 hle)
        | eq => exact ih
        | gt => exact Ordering.noConfusion
      | true =>
        simp only [hd, if_true, beq_eq_false_iff_ne] at ih hle ⊢
        cases hc : compare part start with
        | lt => exact Ordering.noConfusion
        | eq => exact ih
        | gt => exact absurd hc hle
    · exact isBefore_nil _ _

/-- The leading part of a key that is not before the seed is not before the bound on the leading
field. -/
theorem precedes_of_not_isBefore {field : Field} {keys : List Field} {cell : Cell} {part : KeyPart}
    (hpart : KeyPart.ofCell? field.type cell = some part)
    (hnot : Key.isBefore (part :: key) criteria.order.isDescending
      (criteria.startKey (field :: keys)) = false) {value : Value} {start : KeyPart}
    (hvalue : criteria.startBound? field = some value)
    (hstart : KeyPart.ofCell? field.type (value.cellIn field.type) = some start) :
    (value.cellIn field.type).Precedes (field.type.descends criteria.order) cell := by
  have hbind : ((criteria.startBound? field).bind fun value =>
      KeyPart.ofCell? field.type (value.cellIn field.type)) = some start := by
    rw [hvalue]
    exact hstart
  rw [Cell.precedes_iff hstart hpart]
  rw [startKey_cons, hbind] at hnot
  unfold Key.isBefore at hnot
  dsimp only at hnot
  rw [Key.compareOn] at hnot
  cases hd : criteria.order.isDescending with
  | false =>
    simp only [hd, Bool.false_eq_true, if_false, beq_eq_false_iff_ne] at hnot ⊢
    refine compare_ne_lt_iff.1 fun hc => hnot ?_
    rw [hc]
    rfl
  | true =>
    simp only [hd, if_true, beq_eq_false_iff_ne] at hnot ⊢
    intro hc
    apply hnot
    rw [hc]
    rfl

end CriteriaSet

/-- A number that can stand in a field makes the word of that number there. -/
theorem Value.cellIn_of_inRange {width : Width} {reversed : Bool} {value : Value} {number : Int}
    (hr : value.InRange (.int width reversed)) (hn : value.number? = some number) :
    ∃ w, value.cellIn (.int width reversed) = .word w ∧ (w.toNat : Int) = number := by
  obtain ⟨hpos, hlt⟩ := hr width reversed number rfl hn
  have hword : ∀ w : UInt64, (w.toNat : Int) = number →
      (((FieldType.int width reversed).truncate w).toNat : Int) = number := by
    intro w hw
    rw [FieldType.truncate_eq_self_iff.2 (by omega)]
    exact hw
  cases value with
  | int i =>
    cases hn
    refine ⟨_, rfl, hword _ ?_⟩
    rw [toNat_toUInt64, if_pos hpos]
  | uint u =>
    cases hn
    exact ⟨_, rfl, hword _ rfl⟩
  | str b => cases hn

/-- What matches is not on the side of the bound that the scan comes from. -/
theorem Criterion.Matches.side {criterion : Criterion} {type : FieldType} {order : ScanOrder}
    {leading : Bool} {cell : Cell} (hm : criterion.Matches type order leading cell) {value : Value}
    (hseed : criterion.seed (type.descends order) = some value) :
    ∃ side, cell.compare? value = some side ∧
      side ≠ if type.descends order then .gt else .lt := by
  cases criterion with
  | equals value' =>
    obtain rfl : value' = value := by
      unfold Criterion.seed Criterion.bounds at hseed
      split at hseed <;> exact Option.some.inj hseed
    exact ⟨.eq, hm, by split <;> nofun⟩
  | between low high =>
    unfold Criterion.seed Criterion.bounds at hseed
    cases hd : type.descends order with
    | false =>
      rw [hd] at hseed
      rcases hm.1 value hseed with h | h
      · exact ⟨.gt, h, nofun⟩
      · exact ⟨.eq, h, nofun⟩
    | true =>
      rw [hd] at hseed
      rcases hm.2.1 value hseed with h | h
      · exact ⟨.lt, h, nofun⟩
      · exact ⟨.eq, h, nofun⟩

/-- A cell that matches is not before the bound that the scan starts from. -/
theorem Criterion.Matches.precedes {criterion : Criterion} {type : FieldType} {order : ScanOrder}
    {leading : Bool} {cell : Cell} (hm : criterion.Matches type order leading cell)
    (hc : cell.Fits type) {value : Value}
    (hseed : criterion.seed (type.descends order) = some value) (hr : value.InRange type) :
    (value.cellIn type).Precedes (type.descends order) cell := by
  obtain ⟨side, hside, hne⟩ := hm.side hseed
  cases cell with
  | word w =>
    cases type with
    | string => exact absurd hc.1 (by simp [FieldType.isString])
    | int width reversed =>
      obtain ⟨number, hn, rfl⟩ := Option.map_eq_some_iff.1 hside
      obtain ⟨start, hstart, hnumber⟩ := Value.cellIn_of_inRange hr hn
      rw [hstart]
      unfold Cell.Precedes
      cases hd : FieldType.descends (.int width reversed) order with
      | false =>
        rw [hd] at hne
        have hle : ¬ (w.toNat : Int) < number := fun h => hne (Std.compare_eq_lt.2 h)
        show start.toNat ≤ w.toNat
        omega
      | true =>
        rw [hd] at hne
        have hle : ¬ number < (w.toNat : Int) := fun h => hne (Std.compare_eq_gt.2 h)
        show w.toNat ≤ start.toNat
        omega
  | bytes b =>
    cases value with
    | int i => cases hside
    | uint u => cases hside
    | str s =>
      cases hside
      unfold Value.cellIn Cell.Precedes
      cases hd : type.descends order with
      | false =>
        rw [hd] at hne
        exact compare_ne_lt_iff.1 hne
      | true =>
        rw [hd] at hne
        exact hne

end RowStore
