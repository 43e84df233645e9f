/-
# Ranges that compile

Two bounds of a range are comparable if one signedness holds both. The builder of criteria lets exactly
these through, and exactly these compile on a field of their kind. The predicate that a range compiles to
keeps the bounds as they are, up to their signedness. It reads an integer as the signedness that the
bounds are compared in, by its 64 bits, and passes what lies between them. Where it ends a scan, the value
lies past the bound that the scan runs towards.

Key definitions: `Value.Comparable`, `Value.reread`, `Value.compare?`, `Predicate.Judges`.
Key theorems: `Predicate.exists_compile_iff`, `CriteriaSet.exists_add_between_iff`,
`Test.Stands.place`, `Predicate.judges_of_compile`, `Predicate.compile_between`.
-/
import RowStore.Proofs.Scan.Matching

namespace RowStore

/-! ### Comparable bounds -/

/-- One signedness holds all integers of a list: no integer is negative if another one is above the
greatest signed integer. -/
def Value.Comparable (bounds : List Value) : Prop :=
  ∀ i u, Value.int i ∈ bounds → Value.uint u ∈ bounds → 0 ≤ i ∨ u.toNat ≤ Value.greatestInt

/-- A value alone is comparable. -/
theorem Value.comparable_toList (bound? : Option Value) : Value.Comparable bound?.toList := by
  cases bound? with
  | none => nofun
  | some value =>
    intro i u hi hu
    rw [Option.toList_some, List.mem_singleton] at hi hu
    cases hi.trans hu.symm

section Reading

variable {bounds : List Value} {value : Value}

/-- Bounds that are compared as signed can be read as signed. -/
theorem Value.Comparable.exists_asInt? (hcomparable : Value.Comparable bounds)
    (hsigned : comparesSigned bounds = true) (hm : value ∈ bounds) (hkind : value.kind ≠ .str) :
    ∃ i, value.asInt? = some i := by
  cases value with
  | str b => exact absurd rfl hkind
  | int i => exact ⟨i, rfl⟩
  | uint u =>
    unfold comparesSigned at hsigned
    rw [Bool.or_eq_true, List.any_eq_true, Bool.not_eq_true', List.any_eq_false] at hsigned
    rcases hsigned with ⟨negative, hmem, hneg⟩ | hnone
    · cases negative with
      | int i =>
        have hlt : ¬0 ≤ i := Int64.not_le.2 (by simpa using hneg)
        have hle : u.toNat ≤ Value.greatestInt := (hcomparable i u hmem hm).resolve_left hlt
        exact ⟨u.toInt64, if_pos hle⟩
      | uint u => cases hneg
      | str b => cases hneg
    · exact absurd rfl (hnone _ hm)

/-- Bounds that are compared as unsigned can be read as unsigned. -/
theorem Value.exists_asUInt? (hunsigned : comparesSigned bounds = false) (hm : value ∈ bounds)
    (hkind : value.kind ≠ .str) : ∃ u, value.asUInt? = some u := by
  cases value with
  | str b => exact absurd rfl hkind
  | uint u => exact ⟨u, rfl⟩
  | int i =>
    unfold comparesSigned at hunsigned
    rw [Bool.or_eq_false_iff, List.any_eq_false] at hunsigned
    have hle : 0 ≤ i := Int64.not_lt.1 (by simpa using hunsigned.1 _ hm)
    exact ⟨i.toUInt64, if_pos hle⟩

/-- Bounds that can be read in the signedness that they are compared in are comparable. -/
theorem Value.comparable_of_reads
    (hsigned : comparesSigned bounds = true → ∀ value ∈ bounds, ∃ i, value.asInt? = some i)
    (hunsigned : comparesSigned bounds = false → ∀ value ∈ bounds, ∃ u, value.asUInt? = some u) :
    Value.Comparable bounds := by
  intro i u hi hu
  cases hcompares : comparesSigned bounds with
  | true =>
    obtain ⟨j, hj⟩ := hsigned hcompares _ hu
    refine .inr ?_
    by_contra hgt
    rw [Value.asInt?, if_neg hgt] at hj
    cases hj
  | false =>
    obtain ⟨v, hv⟩ := hunsigned hcompares _ hi
    refine .inl ?_
    by_contra hlt
    rw [Value.asUInt?, if_neg hlt] at hv
    cases hv

end Reading

namespace Predicate

variable {field : Field} {criterion : Criterion} {low high : Option Value} {order : ScanOrder}
  {leading : Bool} {predicate : Predicate}

theorem exists_limit_iff (field : Field) {α : Type} {read? : Value → Option α} {bound? : Option Value} :
    (∃ limit, interval.limit field read? bound? = .ok limit) ↔
      ∀ value ∈ bound?.toList, ∃ a, read? value = some a := by
  cases bound? with
  | none => exact iff_of_true ⟨.unbounded, rfl⟩ (by simp)
  | some value =>
    rw [Option.toList_some, List.forall_mem_singleton]
    cases hread : read? value with
    | none => simp [interval.limit, hread]
    | some a => simp [interval.limit, hread]

theorem exists_interval_iff {α : Type} {read? : Value → Option α} :
    (∃ i, Predicate.interval field read? low high = .ok i) ↔
      ∀ value ∈ low.toList ++ high.toList, ∃ a, read? value = some a := by
  rw [List.forall_mem_append, ← exists_limit_iff field, ← exists_limit_iff field]
  constructor
  · rintro ⟨i, h⟩
    obtain ⟨l, hlow, h⟩ := bind_eq_ok.1 h
    obtain ⟨u, hhigh, -⟩ := bind_eq_ok.1 h
    exact ⟨⟨l, hlow⟩, ⟨u, hhigh⟩⟩
  · rintro ⟨⟨l, hlow⟩, ⟨u, hhigh⟩⟩
    exact ⟨⟨l, u⟩, bind_eq_ok.2 ⟨l, hlow, bind_eq_ok.2 ⟨u, hhigh, rfl⟩⟩⟩

theorem exists_map_iff {α β : Type} {x : Except Failure α} {f : α → β} :
    (∃ b, (do return f (← x)) = Except.ok (ε := Failure) b) ↔ ∃ a, x = .ok a := by
  cases x with
  | error failure => exact iff_of_false (by rintro ⟨b, h⟩; cases h) (by simp)
  | ok a => exact iff_of_true ⟨f a, rfl⟩ ⟨a, rfl⟩

/-- Bounds of the kind of the field have a test exactly if they are comparable. -/
theorem exists_testBetween_iff
    (hkinds : ∀ value ∈ low.toList ++ high.toList, (value.kind == .str) = field.type.isString) :
    (∃ test, testBetween field low high = .ok test) ↔
      Value.Comparable (low.toList ++ high.toList) := by
  unfold testBetween
  split
  · next hstring =>
    rw [exists_map_iff, exists_interval_iff]
    rw [hstring] at hkinds
    refine iff_of_true (fun value hm => ?_) fun i u hi _ => ?_
    · cases value with
      | str b => exact ⟨b, rfl⟩
      | int i => cases hkinds _ hm
      | uint u => cases hkinds _ hm
    · cases hkinds _ hi
  · next hstring =>
    have hinteger : ∀ value ∈ low.toList ++ high.toList, value.kind ≠ .str := by
      intro value hm heq
      exact hstring ((hkinds value hm).symm.trans (by rw [heq]; rfl))
    split
    · next hcompares =>
      rw [exists_map_iff, exists_interval_iff]
      constructor
      · exact fun h => Value.comparable_of_reads (fun _ => h) fun hnot => by simp [hcompares] at hnot
      · exact fun h value hm => h.exists_asInt? hcompares hm (hinteger value hm)
    · next hcompares =>
      have hunsigned : comparesSigned (low.toList ++ high.toList) = false := by simpa using hcompares
      rw [exists_map_iff, exists_interval_iff]
      constructor
      · exact fun h => Value.comparable_of_reads (fun hnot => absurd hnot hcompares) fun _ => h
      · exact fun _ value hm => Value.exists_asUInt? hunsigned hm (hinteger value hm)

/-- A criterion compiles on a field exactly if its bounds are of the kind of the field and
comparable. -/
theorem exists_compile_iff : (∃ predicate, compile field criterion order leading = .ok predicate) ↔
    (∀ value ∈ criterion.bounds.1.toList ++ criterion.bounds.2.toList,
      (value.kind == .str) = field.type.isString) ∧
    Value.Comparable (criterion.bounds.1.toList ++ criterion.bounds.2.toList) := by
  constructor
  · rintro ⟨predicate, h⟩
    unfold compile at h
    dsimp only at h
    obtain ⟨⟨⟩, hcheck, h⟩ := bind_eq_ok.1 h
    obtain ⟨test, htest, -⟩ := bind_eq_ok.1 h
    have hkinds : ∀ value ∈ criterion.bounds.1.toList ++ criterion.bounds.2.toList,
        (value.kind == .str) = field.type.isString := fun value hm =>
      checkKind_eq_ok.1 (forM_eq_ok.1 hcheck value hm)
    exact ⟨hkinds, (exists_testBetween_iff hkinds).1 ⟨test, htest⟩⟩
  · rintro ⟨hkinds, hcomparable⟩
    obtain ⟨test, htest⟩ := (exists_testBetween_iff hkinds).2 hcomparable
    have hcheck : (criterion.bounds.1.toList ++ criterion.bounds.2.toList).forM
        (fun value => checkKind field value.kind) = .ok () :=
      forM_eq_ok.2 fun value hm => checkKind_eq_ok.2 (hkinds value hm)
    unfold compile
    dsimp only
    exact ⟨_, bind_eq_ok.2 ⟨(), hcheck, bind_eq_ok.2 ⟨test, htest, rfl⟩⟩⟩

end Predicate

/-! ### What the builder lets through -/

theorem ValueKind.isInteger_eq (kind : ValueKind) : kind.isInteger = !(kind == .str) := by
  cases kind <;> rfl

/-- Two bounds pass the check of the builder exactly if both are strings, or both are integers and
comparable. -/
theorem checkComparable_eq_ok {name : String} {low high : Value} :
    checkComparable name low high = .ok () ↔
      low.kind.isInteger = high.kind.isInteger ∧ Value.Comparable [low, high] := by
  unfold checkComparable checkComparable.mix Value.Comparable
  cases low <;> cases high <;>
    simp [Value.kind, ValueKind.isInteger, or_iff_not_imp_left]

namespace CriteriaSet

/-- A field that is not reserved can be constrained if it is not yet. -/
theorem constrain_empty {name : String} (hname : name ≠ orderField ∧ name ≠ prefixField)
    (criterion : Criterion) :
    ({} : CriteriaSet).constrain name criterion = .ok { fields := [(name, criterion)] } := by
  unfold constrain
  rw [if_neg (by simp [hname.1, hname.2]), if_neg (by simp [get?])]
  rfl

/-- A first range is let through exactly if its bounds are of one kind and comparable. -/
theorem exists_add_between_iff {name : String} (hname : name ≠ orderField ∧ name ≠ prefixField)
    {low high : Option Value} :
    (∃ criteria, ({} : CriteriaSet).add (.between name low high) = .ok criteria) ↔
      (∀ a b, low = some a → high = some b → a.kind.isInteger = b.kind.isInteger) ∧
        Value.Comparable (low.toList ++ high.toList) := by
  have hfree := constrain_empty hname (.between low high)
  rcases low with _ | a
  · exact iff_of_true ⟨_, hfree⟩ ⟨nofun, Value.comparable_toList high⟩
  rcases high with _ | b
  · exact iff_of_true ⟨_, hfree⟩ ⟨nofun, (List.append_nil _).symm ▸ Value.comparable_toList (some a)⟩
  · have hcheck : checkComparable name a b = .ok () ↔ _ := checkComparable_eq_ok
    constructor
    · rintro ⟨criteria, h⟩
      obtain ⟨⟨⟩, h, -⟩ := bind_eq_ok.1 h
      obtain ⟨hkinds, hcomparable⟩ := hcheck.1 h
      refine ⟨?_, hcomparable⟩
      rintro _ _ ⟨⟩ ⟨⟩
      exact hkinds
    · rintro ⟨hkinds, hcomparable⟩
      exact ⟨_, bind_eq_ok.2 ⟨(), hcheck.2 ⟨hkinds a b rfl rfl, hcomparable⟩, hfree⟩⟩

end CriteriaSet

/-! ### Values between bounds -/

namespace Value

/-- The integer of the signedness asked for with the same 64 bits; a string stays as it is. -/
def reread (signed : Bool) : Value → Value
  | .int i => if signed then .int i else .uint i.toUInt64
  | .uint u => if signed then .int u.toInt64 else .uint u
  | .str b => .str b

/-- How a value compares with another: numbers as integers, byte strings bytewise. A number and a
string do not compare. -/
def compare? : Value → Value → Option Ordering
  | .str b, .str c => some (compare b c)
  | v, w => v.number?.bind fun m => w.number?.map fun n => compare m n

/-- Two values are the same number, or the same byte string. -/
def Same (v w : Value) : Prop := v.number? = w.number? ∧ v.asBytes? = w.asBytes?

/-- The value is above the lower bound, if there is one, or on it unless the bound is strict. -/
def IsFrom (v : Value) (low : Option Value) (strict : Bool) : Prop :=
  ∀ bound, low = some bound →
    v.compare? bound = some .gt ∨ (strict = false ∧ v.compare? bound = some .eq)

/-- The value is below the upper bound, if there is one, or on it unless the bound is strict. -/
def IsUpTo (v : Value) (high : Option Value) (strict : Bool) : Prop :=
  ∀ bound, high = some bound →
    v.compare? bound = some .lt ∨ (strict = false ∧ v.compare? bound = some .eq)

/-- The value is past the bound that a scan runs towards. In a scan that runs up it has the start of the
scan behind it too. -/
def IsBeyond (v : Value) (low high : Option Value) (opens : Bool) : (descends : Bool) → Prop
  | false => v.IsFrom low opens ∧ ∃ bound, high = some bound ∧ v.compare? bound = some .gt
  | true => ∃ bound, low = some bound ∧ v.compare? bound = some .lt

theorem compare?_of_number {v w : Value} {m n : Int} (hv : v.number? = some m)
    (hw : w.number? = some n) : v.compare? w = some (compare m n) := by
  cases v with
  | str b => cases hv
  | int i =>
    cases w with
    | str b => cases hw
    | int j => cases hv; cases hw; rfl
    | uint u => cases hv; cases hw; rfl
  | uint u =>
    cases w with
    | str b => cases hw
    | int j => cases hv; cases hw; rfl
    | uint u => cases hv; cases hw; rfl

end Value

section Limits

variable {α : Type} [Ord α] {read? : Value → Option α} {bound? : Option Value} {limit : Limit α}
  {to? : Value → Option Ordering} {a : α}

/-- What is outside a limit that is not strict is on that side of the bound it stands for. -/
theorem Limit.Stands.leaves_eq_true (h : limit.Stands read? bound? false)
    (hcompare : ∀ value b, bound? = some value → read? value = some b →
      to? value = some (compare a b)) {outside : Ordering} :
    limit.leaves outside a = true ↔ ∃ value, bound? = some value ∧ to? value = some outside := by
  cases limit with
  | unbounded =>
    obtain rfl : bound? = none := h
    simp [Limit.leaves]
  | included b =>
    obtain ⟨-, value, rfl, hread⟩ := h
    simp [Limit.leaves, hcompare value b rfl hread]
  | excluded b => exact absurd h.1 Bool.false_ne_true

end Limits

section Places

variable {low high : Option Value} {α : Type} [Ord α] {read? : Value → Option α} {interval : Interval α}
  {opens descends : Bool} {v : Value} {a : α}
  (hs : interval.Stands read? (.between low high) opens descends)
  (hcompare : ∀ value b, read? value = some b → v.compare? value = some (compare a b))

include hs hcompare

/-- An interval that stands for a range holds what lies between the bounds. -/
theorem Interval.Stands.locate_between : interval.locate a = .within ↔
    v.IsFrom low (opens && !descends) ∧ v.IsUpTo high (opens && descends) := by
  rw [Interval.locate_eq_within, hs.low.exceeds_eq_false fun value b _ => hcompare value b,
    hs.high.precedes_eq_false fun value b _ => hcompare value b]
  rfl

/-- What lies past the interval of a range in the direction of the scan is past the bound there. -/
theorem Interval.Stands.locate_beyond :
    interval.locate a = (if descends then .below else .above) ↔
      v.IsBeyond low high opens descends := by
  obtain ⟨hlow, hhigh⟩ := hs
  cases descends with
  | false =>
    rw [Bool.and_false] at hhigh
    rw [if_neg Bool.false_ne_true, Interval.locate_eq_above,
      hlow.exceeds_eq_false fun value b _ => hcompare value b,
      Limit.precedes_eq_leaves, hhigh.leaves_eq_true fun value b _ => hcompare value b, Bool.not_false,
      Bool.and_true]
    rfl
  | true =>
    rw [Bool.not_true, Bool.and_false] at hlow
    rw [if_pos rfl, Interval.locate_eq_below,
      Limit.exceeds_eq_leaves, hlow.leaves_eq_true fun value b _ => hcompare value b]
    rfl

end Places

/-! ### What a compiled range says -/

/-- What a limit compares with. -/
def Limit.value? {α : Type} : Limit α → Option α
  | .unbounded => none
  | .included a => some a
  | .excluded a => some a

/-- The least and the greatest value that a test compares with. -/
def Test.bounds : Test → Option Value × Option Value
  | .all => (none, none)
  | .signed interval => (interval.low.value?.map .int, interval.high.value?.map .int)
  | .unsigned interval => (interval.low.value?.map .uint, interval.high.value?.map .uint)
  | .bytes interval => (interval.low.value?.map .str, interval.high.value?.map .str)

/-- A limit has the value of the bound it stands for. -/
theorem Limit.Stands.same {α : Type} {read? : Value → Option α} {bound? : Option Value}
    {strict : Bool} {limit : Limit α} {make : α → Value} (h : limit.Stands read? bound? strict)
    (hread : ∀ value a, read? value = some a → (make a).Same value) :
    Option.Rel Value.Same (limit.value?.map make) bound? := by
  cases limit with
  | unbounded =>
    obtain rfl : bound? = none := h
    exact .none
  | included a =>
    obtain ⟨-, value, rfl, ha⟩ := h
    exact .some (hread value a ha)
  | excluded a =>
    obtain ⟨-, value, rfl, ha⟩ := h
    exact .some (hread value a ha)

/-- What a test that every value passes compares with is nothing. -/
theorem Test.bounds_of_isUnbounded {test : Test} (h : test.isUnbounded = true) :
    test.bounds = (none, none) := by
  cases test with
  | all => rfl
  | signed interval => rcases interval with ⟨_ | _ | _, _ | _ | _⟩ <;> first | rfl | cases h
  | unsigned interval => rcases interval with ⟨_ | _ | _, _ | _ | _⟩ <;> first | rfl | cases h
  | bytes interval => rcases interval with ⟨_ | _ | _, _ | _ | _⟩ <;> first | rfl | cases h

/-- A test that every value passes is none, which does not move the values that it places. -/
theorem Test.locate?_simplified {test : Test} {value : Value} {side : Side}
    (hplace : test.locate? value = some side) :
    (if test.isUnbounded then Test.all else test).locate? value = some side := by
  split
  · next hunbounded =>
    rw [← hplace]
    cases test with
    | all => rfl
    | bytes interval =>
      cases value with
      | str b => exact congrArg some (Predicate.locate_of_isUnbounded hunbounded _).symm
      | int i => cases hplace
      | uint u => cases hplace
    | signed interval =>
      cases value with
      | str b => cases hplace
      | int i => exact congrArg some (Predicate.locate_of_isUnbounded hunbounded _).symm
      | uint u => exact congrArg some (Predicate.locate_of_isUnbounded hunbounded _).symm
    | unsigned interval =>
      cases value with
      | str b => cases hplace
      | int i => exact congrArg some (Predicate.locate_of_isUnbounded hunbounded _).symm
      | uint u => exact congrArg some (Predicate.locate_of_isUnbounded hunbounded _).symm
  · exact hplace

section Ranges

variable {field : Field} {low high : Option Value} {order : ScanOrder} {leading : Bool}

/-- What a predicate has to say for a range on a field: it compares with the bounds of the range, passes
what lies between them and ends a scan behind them. A value is read in the signedness that the bounds are
compared in, and only the start of an exclusive scan of the leading key is strict. -/
structure Predicate.Judges (field : Field) (low high : Option Value) (order : ScanOrder)
    (leading : Bool) (predicate : Predicate) : Prop where
  low_same : Option.Rel Value.Same predicate.test.bounds.1 low
  high_same : Option.Rel Value.Same predicate.test.bounds.2 high
  pass : ∀ value : Value, (value.kind == .str) = field.type.isString →
    (predicate.evaluate value = .pass ↔
      (value.reread (comparesSigned (low.toList ++ high.toList))).IsFrom low
          ((leading && order.isExclusive) && !field.type.descends order) ∧
        (value.reread (comparesSigned (low.toList ++ high.toList))).IsUpTo high
          ((leading && order.isExclusive) && field.type.descends order))
  stop : ∀ value : Value, (value.kind == .str) = field.type.isString →
    (predicate.evaluate value = .stop ↔ leading = true ∧
      (value.reread (comparesSigned (low.toList ++ high.toList))).IsBeyond low high
        order.isExclusive (field.type.descends order))

variable {test : Test} (hs : test.Stands field (.between low high) order leading)

include hs

/-- The test of a range compares with its bounds. -/
theorem Test.Stands.same : Option.Rel Value.Same test.bounds.1 low ∧
    Option.Rel Value.Same test.bounds.2 high := by
  cases hs with
  | bytes interval htype h =>
    have hread : ∀ value b, value.asBytes? = some b → (Value.str b).Same value := by
      intro value b hb
      rw [Value.asBytes?_eq hb]
      exact ⟨rfl, rfl⟩
    exact ⟨h.low.same hread, h.high.same hread⟩
  | signed interval htype hcompares h =>
    have hread : ∀ value i, value.asInt? = some i → (Value.int i).Same value := by
      intro value i hi
      refine ⟨(Value.asInt?_number hi).symm, ?_⟩
      cases value with
      | str b => cases hi
      | int i => rfl
      | uint u => rfl
    exact ⟨h.low.same hread, h.high.same hread⟩
  | unsigned interval htype hcompares h =>
    have hread : ∀ value u, value.asUInt? = some u → (Value.uint u).Same value := by
      intro value u hu
      refine ⟨(Value.asUInt?_number hu).symm, ?_⟩
      cases value with
      | str b => cases hu
      | int i => rfl
      | uint u => rfl
    exact ⟨h.low.same hread, h.high.same hread⟩

/-- The test of a range finds the place of a value by comparing it with the bounds. -/
theorem Test.Stands.place {value : Value} (hkind : (value.kind == .str) = field.type.isString) :
    ∃ side, test.locate? value = some side ∧
      (side = .within ↔
        (value.reread (comparesSigned (low.toList ++ high.toList))).IsFrom low
            ((leading && order.isExclusive) && !field.type.descends order) ∧
          (value.reread (comparesSigned (low.toList ++ high.toList))).IsUpTo high
            ((leading && order.isExclusive) && field.type.descends order)) ∧
      (side = (if field.type.descends order then .below else .above) ↔
        (value.reread (comparesSigned (low.toList ++ high.toList))).IsBeyond low high
          (leading && order.isExclusive) (field.type.descends order)) := by
  cases hs with
  | bytes interval htype h =>
    rw [htype] at hkind
    cases value with
    | int i => cases hkind
    | uint u => cases hkind
    | str b =>
      have hcompare : ∀ value c, value.asBytes? = some c →
          (Value.str b).compare? value = some (compare b c) := by
        intro value c hc
        rw [Value.asBytes?_eq hc]
        rfl
      exact ⟨_, rfl, h.locate_between hcompare, h.locate_beyond hcompare⟩
  | signed interval htype hcompares h =>
    rw [show comparesSigned (low.toList ++ high.toList) = true from hcompares]
    have hcompare (i : Int64) : ∀ value j, value.asInt? = some j →
        (Value.int i).compare? value = some (compare i j) := by
      intro value j hj
      rw [Value.compare?_of_number rfl (Value.asInt?_number hj), compare_int64]
    cases value with
    | str b => rw [htype] at hkind; cases hkind
    | int i => exact ⟨_, rfl, h.locate_between (hcompare i), h.locate_beyond (hcompare i)⟩
    | uint u =>
      exact ⟨_, rfl, h.locate_between (hcompare u.toInt64), h.locate_beyond (hcompare u.toInt64)⟩
  | unsigned interval htype hcompares h =>
    rw [show comparesSigned (low.toList ++ high.toList) = false from hcompares]
    have hcompare (u : UInt64) : ∀ value v, value.asUInt? = some v →
        (Value.uint u).compare? value = some (compare u v) := by
      intro value v hv
      rw [Value.compare?_of_number rfl (Value.asUInt?_number hv), compare_uint64]
    cases value with
    | str b => rw [htype] at hkind; cases hkind
    | int i =>
      exact ⟨_, rfl, h.locate_between (hcompare i.toUInt64), h.locate_beyond (hcompare i.toUInt64)⟩
    | uint u => exact ⟨_, rfl, h.locate_between (hcompare u), h.locate_beyond (hcompare u)⟩

omit hs

/-- A range that compiles gives a predicate that judges by it. -/
theorem Predicate.judges_of_compile {predicate : Predicate}
    (h : compile field (.between low high) order leading = .ok predicate) :
    predicate.Judges field low high order leading := by
  obtain ⟨test, hstands, rfl⟩ := stands_of_compile h
  have hbounds : (if test.isUnbounded then Test.all else test).bounds = test.bounds := by
    split
    · next hunbounded => exact (Test.bounds_of_isUnbounded hunbounded).symm
    · rfl
  refine ⟨?_, ?_, fun value hkind => ?_, fun value hkind => ?_⟩
  · rw [hbounds]
    exact hstands.same.1
  · rw [hbounds]
    exact hstands.same.2
  · obtain ⟨side, hside, hwithin, -⟩ := hstands.place hkind
    unfold evaluate
    rw [judge_eq_pass, Test.locate?_simplified hside, Option.some_inj, hwithin]
  · obtain ⟨side, hside, -, hbeyond⟩ := hstands.place hkind
    unfold evaluate
    rw [judge_eq_stop, Test.locate?_simplified hside, Option.some_inj, hbeyond]
    refine and_congr_right fun hleading => ?_
    rw [show leading = true from hleading, Bool.true_and]

/-- **The builder and the compiler accept the same ranges.** A range on a field compiles exactly if its
bounds are of the kind of the field and the builder lets them through, under whatever name that is not
reserved; and a range that compiles gives a predicate that judges by it. -/
theorem Predicate.compile_between (field : Field) (low high : Option Value) (order : ScanOrder)
    (leading : Bool) {name : String} (hname : name ≠ orderField ∧ name ≠ prefixField) :
    ((∃ predicate, compile field (.between low high) order leading = .ok predicate) ↔
      (∀ value, low = some value ∨ high = some value →
        (value.kind == .str) = field.type.isString) ∧
      ∃ criteria, ({} : CriteriaSet).add (.between name low high) = .ok criteria) ∧
    ∀ predicate, compile field (.between low high) order leading = .ok predicate →
      predicate.Judges field low high order leading := by
  refine ⟨?_, fun predicate => judges_of_compile⟩
  have hmem : (∀ value ∈ low.toList ++ high.toList, (value.kind == .str) = field.type.isString) ↔
      ∀ value, low = some value ∨ high = some value →
        (value.kind == .str) = field.type.isString := by
    simp only [List.mem_append, Option.mem_toList]
  rw [exists_compile_iff, CriteriaSet.exists_add_between_iff hname, ← hmem]
  refine and_congr_right fun hkinds => ⟨fun hcomparable => ⟨fun a b ha hb => ?_, hcomparable⟩, And.right⟩
  -- Bounds of the kind of the field are of one kind.
  have ha : (a.kind == .str) = field.type.isString := hmem.1 hkinds a (.inl ha)
  have hb : (b.kind == .str) = field.type.isString := hmem.1 hkinds b (.inr hb)
  rw [ValueKind.isInteger_eq, ValueKind.isInteger_eq, ha, hb]

/-- A range from one, left out, to the greatest unsigned integer passes what reads as the last but one. -/
theorem Predicate.compile_mixed_bounds : ∃ predicate,
    compile ⟨"number", .int .eight false, true⟩
      (.between (some (.int 1)) (some (.uint 0xFFFFFFFFFFFFFFFF))) .gt true = .ok predicate ∧
      predicate.evaluate (.int (-2)) = .pass ∧ predicate.evaluate (.uint 1) ≠ .pass := by
  obtain ⟨hcompiles, hjudges⟩ := compile_between ⟨"number", .int .eight false, true⟩
    (some (.int 1)) (some (.uint 0xFFFFFFFFFFFFFFFF)) .gt true
    (show "number" ≠ orderField ∧ "number" ≠ prefixField by decide)
  obtain ⟨predicate, hpredicate⟩ := hcompiles.2
    ⟨fun value hvalue => by rcases hvalue with h | h <;> cases h <;> rfl, _, rfl⟩
  have hpass := (hjudges predicate hpredicate).pass
  refine ⟨predicate, hpredicate, (hpass (.int (-2)) rfl).2 ⟨?_, ?_⟩, fun hone => ?_⟩
  · rintro bound ⟨⟩
    exact .inl rfl
  · rintro bound ⟨⟩
    exact .inl rfl
  · rcases ((hpass (.uint 1) rfl).1 hone).1 _ rfl with h | ⟨h, -⟩ <;> cases h

end Ranges

end RowStore
