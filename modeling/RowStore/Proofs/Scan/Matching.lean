/-
# Cells that match

What a constraint means, without the way it is checked: numbers are compared as integers and byte
strings bytewise, both bounds of a range are included, and an exclusive scan leaves out the bound
that it starts a range on the leading key from. The predicate passes exactly the cells that match,
if the values asked for can stand in the field, and, where the bounds of a range are all signed, the
cell can stand in a signed integer.

Key definitions: `Cell.compare?`, `Criterion.Matches`, `Value.InRange`, `Criterion.hasSignedBounds`.
Key theorems: `Predicate.Places.judgeCell_eq_pass_iff`.
-/
import RowStore.Proofs.Scan.Compile

namespace RowStore

/-- The number that a value is. -/
def Value.number? : Value → Option Int
  | .int i => some i.toInt
  | .uint u => some u.toNat
  | .str _ => none

/-- How a cell compares with a value: numbers as integers, byte strings bytewise. A number and a
string do not compare. -/
def Cell.compare? : Cell → Value → Option Ordering
  | .word w, value => value.number?.map (compare (w.toNat : Int))
  | .bytes b, .str s => some (compare b s)
  | .bytes _, _ => none

/-- The value can stand in a field of the type: a number is not negative and below the size of the
width. -/
def Value.InRange (type : FieldType) (value : Value) : Prop :=
  ∀ width reversed number, type = .int width reversed → value.number? = some number →
    0 ≤ number ∧ number < width.size

/-- The cell satisfies the criterion in a scan of the given order: it equals the value, or lies
between the bounds, both included; but an exclusive scan leaves out the bound that it starts from,
if the field is the leading key. -/
def Criterion.Matches (criterion : Criterion) (type : FieldType) (order : ScanOrder)
    (leading : Bool) (cell : Cell) : Prop :=
  match criterion with
  | .equals value => cell.compare? value = some .eq
  | .between low high =>
    (∀ value, low = some value →
      cell.compare? value = some .gt ∨ cell.compare? value = some .eq) ∧
    (∀ value, high = some value →
      cell.compare? value = some .lt ∨ cell.compare? value = some .eq) ∧
    (leading = true → order.isExclusive = true → ∀ value,
      criterion.seed (type.descends order) = some value → cell.compare? value ≠ some .eq)

instance (criterion : Criterion) (type : FieldType) (order : ScanOrder) (leading : Bool)
    (cell : Cell) : Decidable (criterion.Matches type order leading cell) :=
  match criterion with
  | .equals value => inferInstanceAs (Decidable (cell.compare? value = some .eq))
  | .between low high =>
    inferInstanceAs (Decidable ((∀ value ∈ low,
        cell.compare? value = some .gt ∨ cell.compare? value = some .eq) ∧
      (∀ value ∈ high, cell.compare? value = some .lt ∨ cell.compare? value = some .eq) ∧
      (leading = true → order.isExclusive = true → ∀ value ∈
        (Criterion.between low high).seed (type.descends order), cell.compare? value ≠ some .eq)))

/-- Whether the criterion is a range with a bound, and no bound is given as unsigned. -/
def Criterion.hasSignedBounds : Criterion → Bool
  | .equals _ => false
  | .between low high =>
    (low.isSome || high.isSome) && (low.toList ++ high.toList).all fun v => v.kind == .int

section Limits

variable {α : Type} [Ord α] {read? : Value → Option α} {bound? : Option Value} {strict : Bool}
  {limit : Limit α} {to? : Value → Option Ordering} {a : α}

/-- Whether a value lies outside a limit, on the side told by how values there compare with it. -/
def Limit.leaves (limit : Limit α) (outside : Ordering) (a : α) : Bool :=
  match limit with
  | .unbounded => false
  | .included b => compare a b == outside
  | .excluded b => compare a b != outside.swap

theorem Limit.exceeds_eq_leaves (limit : Limit α) (a : α) : limit.exceeds a = limit.leaves .lt a := by
  cases limit <;> rfl

theorem Limit.precedes_eq_leaves (limit : Limit α) (a : α) :
    limit.precedes a = limit.leaves .gt a := by
  cases limit <;> rfl

/-- What is not outside a limit is not on that side of the bound it stands for. -/
theorem Limit.Stands.leaves_eq_false (h : limit.Stands read? bound? strict)
    (hcompare : ∀ value b, bound? = some value → read? value = some b →
      to? value = some (compare a b)) {outside : Ordering} (hside : outside ≠ .eq) :
    limit.leaves outside a = false ↔ ∀ value, bound? = some value →
      to? value = some outside.swap ∨ (strict = false ∧ to? value = some .eq) := by
  cases limit with
  | unbounded =>
    obtain rfl : bound? = none := h
    simp [Limit.leaves]
  | included b =>
    obtain ⟨rfl, value, rfl, hread⟩ := h
    have hc := hcompare value b rfl hread
    simp only [Limit.leaves, Option.some.injEq, forall_eq', hc, beq_eq_false_iff_ne]
    cases outside <;> cases compare a b <;> simp at hside ⊢
  | excluded b =>
    obtain ⟨rfl, value, rfl, hread⟩ := h
    have hc := hcompare value b rfl hread
    simp only [Limit.leaves, Option.some.injEq, forall_eq', hc]
    cases compare a b <;> simp

/-- What does not fall short of a limit is not below the bound it stands for. -/
theorem Limit.Stands.exceeds_eq_false (h : limit.Stands read? bound? strict)
    (hcompare : ∀ value b, bound? = some value → read? value = some b →
      to? value = some (compare a b)) :
    limit.exceeds a = false ↔ ∀ value, bound? = some value →
      to? value = some .gt ∨ (strict = false ∧ to? value = some .eq) := by
  rw [Limit.exceeds_eq_leaves]
  exact h.leaves_eq_false hcompare (by decide)

/-- What does not go past a limit is not above the bound it stands for. -/
theorem Limit.Stands.precedes_eq_false (h : limit.Stands read? bound? strict)
    (hcompare : ∀ value b, bound? = some value → read? value = some b →
      to? value = some (compare a b)) :
    limit.precedes a = false ↔ ∀ value, bound? = some value →
      to? value = some .lt ∨ (strict = false ∧ to? value = some .eq) := by
  rw [Limit.precedes_eq_leaves]
  exact h.leaves_eq_false hcompare (by decide)

end Limits

section Criteria

variable {α : Type} [Ord α] {read? : Value → Option α} {criterion : Criterion} {type : FieldType}
  {order : ScanOrder} {leading : Bool} {interval : Interval α} {cell : Cell} {a : α}

/-- An interval that stands for a criterion holds what matches, if it compares as the cell does. -/
theorem Interval.Stands.locate_eq_within
    (h : interval.Stands read? criterion (criterion.opens order leading) (type.descends order))
    (hcompare : ∀ value b, criterion.bounds.1 = some value ∨ criterion.bounds.2 = some value →
      read? value = some b → cell.compare? value = some (compare a b)) :
    interval.locate a = .within ↔ criterion.Matches type order leading cell := by
  rw [Interval.locate_eq_within,
    h.low.exceeds_eq_false fun value b hb => hcompare value b (.inl hb),
    h.high.precedes_eq_false fun value b hb => hcompare value b (.inr hb)]
  unfold Criterion.Matches Criterion.opens Criterion.bounds Criterion.seed
  cases criterion with
  | equals value =>
    simp only [Bool.false_and, Option.some.injEq, forall_eq', true_and]
    constructor
    · rintro ⟨hlow | hlow, hhigh | hhigh⟩
      · rw [hlow] at hhigh
        simp at hhigh
      · exact hhigh
      · exact hlow
      · exact hlow
    · exact fun heq => ⟨.inr heq, .inr heq⟩
  | between low high =>
    cases hopens : leading && order.isExclusive with
    | false =>
      -- Nothing is left out, on either side.
      have hclosed : ¬ (leading = true ∧ order.isExclusive = true) := by simpa using hopens
      simp only [Bool.false_and, true_and]
      exact ⟨fun h => ⟨h.1, h.2, fun hl hx => absurd ⟨hl, hx⟩ hclosed⟩, fun h => ⟨h.1, h.2.1⟩⟩
    | true =>
      obtain ⟨hl, hx⟩ : leading = true ∧ order.isExclusive = true := by simpa using hopens
      simp only [hl, hx, forall_const, Bool.true_and]
      cases type.descends order with
      | false =>
        simp only [Bool.not_false, Bool.true_eq_false, false_and, or_false, true_and,
          Bool.false_eq_true, if_false]
        constructor
        · rintro ⟨hlow, hhigh⟩
          refine ⟨fun v hv => .inl (hlow v hv), hhigh, fun v hv heq => ?_⟩
          rw [hlow v hv] at heq
          simp at heq
        · rintro ⟨hlow, hhigh, hstart⟩
          exact ⟨fun v hv => (hlow v hv).resolve_right (hstart v hv), hhigh⟩
      | true =>
        simp only [Bool.not_true, Bool.true_eq_false, false_and, or_false, true_and, if_true]
        constructor
        · rintro ⟨hlow, hhigh⟩
          refine ⟨hlow, fun v hv => .inl (hhigh v hv), fun v hv heq => ?_⟩
          rw [hhigh v hv] at heq
          simp at heq
        · rintro ⟨hlow, hhigh, hstart⟩
          exact ⟨hlow, fun v hv => (hhigh v hv).resolve_right (hstart v hv)⟩

end Criteria

/-! ### Readings of values -/

theorem Value.asUInt?_number {value : Value} {u : UInt64} (h : value.asUInt? = some u) :
    value.number? = some (u.toNat : Int) := by
  cases value with
  | int i =>
    simp only [Value.asUInt?] at h
    split at h
    · next hi =>
      cases h
      have hpos : 0 ≤ i.toInt := Int64.le_iff_toInt_le.1 hi
      rw [Value.number?, toNat_toUInt64, if_pos hpos]
    · simp at h
  | uint u' =>
    cases h
    rfl
  | str b => cases h

theorem Value.asInt?_number {value : Value} {i : Int64} (h : value.asInt? = some i) :
    value.number? = some i.toInt := by
  cases value with
  | int i' =>
    cases h
    rfl
  | uint u =>
    simp only [Value.asInt?] at h
    split at h
    · next hu =>
      cases h
      have hlt : u.toNat < 2 ^ 63 := Nat.lt_of_le_of_lt hu (by decide)
      rw [Value.number?, toInt_toInt64, if_pos hlt]
    · simp at h
  | str b => cases h

theorem Value.asBytes?_eq {value : Value} {b : Bytes} (h : value.asBytes? = some b) :
    value = .str b := by
  cases value <;> cases h
  rfl

/-- Bounds that are not negative are compared as signed only if all are given so. -/
theorem kind_of_comparesSigned {bounds : List Value} (h : comparesSigned bounds = true)
    (hpos : ∀ value ∈ bounds, ∀ number, value.number? = some number → 0 ≤ number) :
    ∀ value ∈ bounds, ∀ u, value ≠ .uint u := by
  rintro value hv u rfl
  unfold comparesSigned at h
  rw [Bool.or_eq_true, List.any_eq_true, Bool.not_eq_true', List.any_eq_false] at h
  rcases h with ⟨negative, hmem, hneg⟩ | hnone
  · cases negative with
    | int i =>
      have hi : i.toInt < 0 := Int64.lt_iff_toInt_lt.1 (by simpa using hneg)
      have := hpos _ hmem i.toInt rfl
      omega
    | uint u => cases hneg
    | str b => cases hneg
  · exact absurd rfl (hnone _ hv)

/-- A range compared as signed whose bounds are not negative is given in signed bounds. -/
theorem hasSignedBounds_of_stands {low high : Option Value} {opens descending : Bool}
    {interval : Interval Int64}
    (hs : interval.Stands Value.asInt? (.between low high) opens descending)
    (hcompares : comparesSigned (low.toList ++ high.toList) = true)
    (hpos : ∀ value, low = some value ∨ high = some value →
      ∀ number, value.number? = some number → 0 ≤ number)
    (hsome : (low.isSome || high.isSome) = true) :
    (Criterion.between low high).hasSignedBounds = true := by
  unfold Criterion.hasSignedBounds
  have hmem : ∀ value ∈ low.toList ++ high.toList, low = some value ∨ high = some value := by
    intro value hv
    simpa using hv
  simp only [hsome, Bool.true_and, List.all_eq_true, beq_iff_eq]
  intro value hv
  have hne := kind_of_comparesSigned hcompares (fun v hv => hpos v (hmem v hv)) value hv
  obtain ⟨i, hread⟩ : ∃ i, value.asInt? = some i := by
    obtain ⟨hlow, hhigh⟩ := hs
    rcases hmem value hv with rfl | rfl
    · exact hlow.exists_read.imp fun _ h => h.1
    · exact hhigh.exists_read.imp fun _ h => h.1
  cases value with
  | int i => rfl
  | uint u => exact absurd rfl (hne u)
  | str b => cases hread

/-- A cell with the sign bit does not match one value that can stand in its field. -/
theorem locate_equals_ne_within {value : Value} {opens descending : Bool}
    {interval : Interval Int64}
    (hs : interval.Stands Value.asInt? (.equals value) opens descending) {w : UInt64}
    (hw : ¬ w.toNat < 2 ^ 63)
    (hpos : ∀ number, value.number? = some number → 0 ≤ number) :
    interval.locate w.toInt64 ≠ .within ∧ Cell.compare? (.word w) value ≠ some .eq := by
  obtain ⟨i, hread, hlimit⟩ := hs.low.exists_read
  have hnumber := Value.asInt?_number hread
  have hi := hpos _ hnumber
  have hlt : w.toNat < 2 ^ 64 := w.toNat_lt
  have hneg := toInt_toInt64 w
  rw [if_neg hw] at hneg
  constructor
  · have hcompare : compare w.toInt64 i = .lt := by
      rw [compare_int64, Std.compare_eq_lt]
      omega
    rw [ne_eq, Interval.locate_eq_within]
    rintro ⟨hlow, -⟩
    rcases hlimit with hl | hl <;> simp [hl, Limit.exceeds, hcompare] at hlow
  · have hbound : i.toInt < 2 ^ 63 := i.toInt_lt
    intro heq
    simp only [Cell.compare?, hnumber, Option.map_some, Option.some.injEq] at heq
    have : (w.toNat : Int) = i.toInt := Std.LawfulEqCmp.eq_of_compare heq
    omega

/-! ### What a compiled predicate passes -/

/-- The predicate of a criterion passes the cells that match it. -/
theorem Predicate.Places.judgeCell_eq_pass_iff {field : Field} {criterion : Criterion}
    {order : ScanOrder} {leading : Bool} {predicate : Predicate} {cell : Cell}
    (hp : Places field criterion order leading predicate) (hc : cell.Fits field.type)
    (hrange : ∀ value, criterion.bounds.1 = some value ∨ criterion.bounds.2 = some value →
      value.InRange field.type)
    (hsigned : ∀ reversed w, field.type = .int .eight reversed → cell = .word w →
      criterion.hasSignedBounds = true → w.toNat ≤ Value.greatestInt) :
    predicate.judgeCell field.type cell = .pass ↔
      criterion.Matches field.type order leading cell := by
  unfold judgeCell
  rw [judge_eq_pass]
  cases hp with
  | bytes interval htype stands place =>
    cases cell with
    | word w =>
      rw [htype] at hc
      exact absurd hc.1 (by simp [FieldType.isString])
    | bytes b =>
      rw [place, Option.some.injEq]
      refine stands.locate_eq_within fun value s _ hread => ?_
      rw [Value.asBytes?_eq hread]
      rfl
  | unsigned interval htype compares stands place =>
    cases cell with
    | bytes b => exact absurd (htype.symm.trans hc) Bool.false_ne_true
    | word w =>
      rw [place, Option.some.injEq]
      refine stands.locate_eq_within fun value u _ hread => ?_
      rw [Cell.compare?, Value.asUInt?_number hread, compare_uint64]
      rfl
  | signed interval htype compares stands place =>
    cases cell with
    | bytes b => exact absurd (htype.symm.trans hc) Bool.false_ne_true
    | word w =>
      rw [place, Option.some.injEq]
      have hpos : ∀ value, criterion.bounds.1 = some value ∨ criterion.bounds.2 = some value →
          ∀ number, value.number? = some number → 0 ≤ number := by
        intro value hv number hn
        cases ht : field.type with
        | string => simp [ht, FieldType.isString] at htype
        | int width reversed => exact (hrange value hv width reversed number ht hn).1
      by_cases hw : w.toNat < 2 ^ 63
      · refine stands.locate_eq_within fun value i _ hread => ?_
        rw [Cell.compare?, Value.asInt?_number hread, compare_int64, toInt_toInt64, if_pos hw]
        rfl
      · cases criterion with
        | equals value =>
          obtain ⟨hout, hne⟩ := locate_equals_ne_within stands hw (hpos value (.inl rfl))
          exact iff_of_false hout hne
        | between low high =>
          cases hsome : low.isSome || high.isSome with
          | false =>
            obtain ⟨rfl, rfl⟩ : low = none ∧ high = none := by simpa using hsome
            refine stands.locate_eq_within fun value i hv _ => ?_
            rcases hv with hv | hv <;> cases hv
          | true =>
            -- A cell with the sign bit is in an eight-byte field, where there is none.
            exfalso
            have hbounds := hasSignedBounds_of_stands stands compares hpos hsome
            cases ht : field.type with
            | string => simp [ht, FieldType.isString] at htype
            | int width reversed =>
              rw [ht] at hc
              have hlt := Cell.fits_word_iff.1 hc
              by_cases height : width = .eight
              · subst height
                have hle := hsigned reversed w ht rfl hbounds
                have hmax : Value.greatestInt = 2 ^ 63 - 1 := rfl
                omega
              · have hsize := Width.size_le_of_ne_eight height
                omega

end RowStore
