/-
# What compiled predicates check

A constraint on a field compiles to a predicate that places every cell of the field: it reads the
cell as a byte string, a signed or an unsigned integer, and finds its place in an interval that
stands for the bounds, without the start in an exclusive scan of a range on the leading key.

Key definitions: `Interval.Stands`, `Criterion.opens`, `Test.Stands`, `Predicate.Places`.
Key theorems: `Predicate.stands_of_compile`, `Predicate.places_of_compile`.
-/
import RowStore.Proofs.Data.Keys
import RowStore.Proofs.Data.Words
import RowStore.Proofs.Scan.Verdict

namespace RowStore

section Intervals

variable {α : Type}

/-- The limit stands for a bound: included, or excluded if it is strict; without a bound it is
open. -/
def Limit.Stands (read? : Value → Option α) (bound? : Option Value) (strict : Bool) :
    Limit α → Prop
  | .unbounded => bound? = none
  | .included a => strict = false ∧ ∃ value, bound? = some value ∧ read? value = some a
  | .excluded a => strict = true ∧ ∃ value, bound? = some value ∧ read? value = some a

/-- The interval stands for the bounds of a criterion, the start of the scan left out if it
`opens`. -/
structure Interval.Stands (read? : Value → Option α) (criterion : Criterion)
    (opens descending : Bool) (interval : Interval α) : Prop where
  low : interval.low.Stands read? criterion.bounds.1 (opens && !descending)
  high : interval.high.Stands read? criterion.bounds.2 (opens && descending)

section Order

variable [Ord α] {interval : Interval α} {a b : α}

theorem Interval.locate_eq_within : interval.locate a = .within ↔
    interval.low.exceeds a = false ∧ interval.high.precedes a = false := by
  unfold locate
  cases interval.low.exceeds a <;> cases interval.high.precedes a <;> simp

theorem Interval.locate_eq_above : interval.locate a = .above ↔
    interval.low.exceeds a = false ∧ interval.high.precedes a = true := by
  unfold locate
  cases interval.low.exceeds a <;> cases interval.high.precedes a <;> simp

theorem Interval.locate_eq_below : interval.locate a = .below ↔
    interval.low.exceeds a = true := by
  unfold locate
  cases interval.low.exceeds a <;> cases interval.high.precedes a <;> simp

variable [Std.TransOrd α]

/-- What goes past a limit stays past it further up. -/
theorem Limit.precedes_mono {limit : Limit α} (h : limit.precedes a = true)
    (hab : compare a b ≠ .gt) : limit.precedes b = true := by
  cases limit with
  | unbounded => exact h
  | included high =>
    simp only [Limit.precedes, beq_iff_eq] at h ⊢
    rw [Std.OrientedCmp.gt_iff_lt] at h ⊢
    exact Std.TransCmp.lt_of_lt_of_isLE h (Ordering.ne_gt_iff_isLE.1 hab)
  | excluded high =>
    simp only [Limit.precedes, bne_iff_ne] at h ⊢
    exact compare_ne_lt_iff.2 (compare_ne_gt_trans (compare_ne_lt_iff.1 h) hab)

/-- What falls short of a limit falls short of it further down. -/
theorem Limit.exceeds_mono {limit : Limit α} (h : limit.exceeds a = true)
    (hba : compare b a ≠ .gt) : limit.exceeds b = true := by
  cases limit with
  | unbounded => exact h
  | included low =>
    simp only [Limit.exceeds, beq_iff_eq] at h ⊢
    exact Std.TransCmp.lt_of_isLE_of_lt (Ordering.ne_gt_iff_isLE.1 hba) h
  | excluded low =>
    simp only [Limit.exceeds, bne_iff_ne] at h ⊢
    exact compare_ne_gt_trans hba h

end Order

theorem Limit.Stands.exclude {read? : Value → Option α} {bound? : Option Value} {limit : Limit α}
    (h : limit.Stands read? bound? false) : limit.exclude.Stands read? bound? true := by
  cases limit with
  | unbounded => exact h
  | included a => exact ⟨rfl, h.2⟩
  | excluded a => exact absurd h.1 Bool.false_ne_true

theorem Limit.Stands.eq_unbounded {read? : Value → Option α} {strict : Bool} {limit : Limit α}
    (h : limit.Stands read? none strict) : limit = .unbounded := by
  cases limit with
  | unbounded => rfl
  | included a =>
    obtain ⟨-, value, hv, -⟩ := h
    simp at hv
  | excluded a =>
    obtain ⟨-, value, hv, -⟩ := h
    simp at hv

theorem Limit.Stands.eq_included {read? : Value → Option α} {value : Value} {a : α}
    {limit : Limit α} (h : limit.Stands read? (some value) false) (hread : read? value = some a) :
    limit = .included a := by
  cases limit with
  | unbounded => cases h
  | included b =>
    obtain ⟨-, value', hv, hread'⟩ := h
    cases hv
    rw [hread] at hread'
    cases hread'
    rfl
  | excluded b => exact absurd h.1 Bool.false_ne_true

/-- A bound that a limit stands for can be read. -/
theorem Limit.Stands.exists_read {read? : Value → Option α} {value : Value} {strict : Bool}
    {limit : Limit α} (h : limit.Stands read? (some value) strict) :
    ∃ a, read? value = some a ∧ (limit = .included a ∨ limit = .excluded a) := by
  cases limit with
  | unbounded => cases h
  | included a =>
    obtain ⟨-, value', hv, hread⟩ := h
    cases hv
    exact ⟨a, hread, .inl rfl⟩
  | excluded a =>
    obtain ⟨-, value', hv, hread⟩ := h
    cases hv
    exact ⟨a, hread, .inr rfl⟩

/-- Leaving the start of the scan out. -/
theorem Interval.Stands.excludeStart {read? : Value → Option α} {criterion : Criterion}
    {descending : Bool} {interval : Interval α}
    (h : interval.Stands read? criterion false descending) :
    (interval.excludeStart descending).Stands read? criterion true descending := by
  obtain ⟨hlow, hhigh⟩ := h
  unfold Interval.excludeStart
  cases descending with
  | false => exact ⟨hlow.exclude, hhigh⟩
  | true => exact ⟨hlow, hhigh.exclude⟩

end Intervals

/-- Whether the start of a scan of the field is left out: that of a range on the leading key, if the
scan is exclusive. -/
def Criterion.opens (criterion : Criterion) (order : ScanOrder) (leading : Bool) : Bool :=
  match criterion with
  | .equals _ => false
  | .between .. => leading && order.isExclusive

/-- The value that a scan starts from is one of the bounds. -/
theorem Criterion.bound_of_seed {criterion : Criterion} {descending : Bool} {value : Value}
    (h : criterion.seed descending = some value) :
    criterion.bounds.1 = some value ∨ criterion.bounds.2 = some value := by
  unfold seed at h
  split at h
  · exact .inr h
  · exact .inl h

/-- The direction in which a scan runs through the values of a field. -/
def FieldType.descends (type : FieldType) (order : ScanOrder) : Bool :=
  order.isDescending != type.isReversed

/-- The test compares as the bounds of the criterion ask for, with an interval that stands for
them. -/
inductive Test.Stands (field : Field) (criterion : Criterion) (order : ScanOrder) (leading : Bool) :
    Test → Prop where
  | bytes (interval : Interval Bytes) (type : field.type = .string)
    (stands : interval.Stands Value.asBytes? criterion (criterion.opens order leading)
      (field.type.descends order)) :
    Stands field criterion order leading (.bytes interval)
  | signed (interval : Interval Int64) (type : field.type.isString = false)
    (compares : comparesSigned (criterion.bounds.1.toList ++ criterion.bounds.2.toList) = true)
    (stands : interval.Stands Value.asInt? criterion (criterion.opens order leading)
      (field.type.descends order)) :
    Stands field criterion order leading (.signed interval)
  | unsigned (interval : Interval UInt64) (type : field.type.isString = false)
    (compares : comparesSigned (criterion.bounds.1.toList ++ criterion.bounds.2.toList) = false)
    (stands : interval.Stands Value.asUInt? criterion (criterion.opens order leading)
      (field.type.descends order)) :
    Stands field criterion order leading (.unsigned interval)

namespace Predicate

/-- The predicate places every cell of the field in an interval that stands for the bounds of the
criterion, reading the cell as the kind that the bounds are compared as. -/
inductive Places (field : Field) (criterion : Criterion) (order : ScanOrder) (leading : Bool)
    (predicate : Predicate) : Prop where
  | bytes (interval : Interval Bytes) (type : field.type = .string)
    (stands : interval.Stands Value.asBytes? criterion (criterion.opens order leading)
      (field.type.descends order))
    (place : ∀ b, predicate.test.place? field.type (.bytes b) = some (interval.locate b))
  | signed (interval : Interval Int64) (type : field.type.isString = false)
    (compares : comparesSigned (criterion.bounds.1.toList ++ criterion.bounds.2.toList) = true)
    (stands : interval.Stands Value.asInt? criterion (criterion.opens order leading)
      (field.type.descends order))
    (place : ∀ w, predicate.test.place? field.type (.word w) = some (interval.locate w.toInt64))
  | unsigned (interval : Interval UInt64) (type : field.type.isString = false)
    (compares : comparesSigned (criterion.bounds.1.toList ++ criterion.bounds.2.toList) = false)
    (stands : interval.Stands Value.asUInt? criterion (criterion.opens order leading)
      (field.type.descends order))
    (place : ∀ w, predicate.test.place? field.type (.word w) = some (interval.locate w))

variable {field : Field} {criterion : Criterion} {order : ScanOrder} {leading : Bool}
  {predicate : Predicate}

theorem limit_eq_ok {α : Type} {read? : Value → Option α} {bound? : Option Value} {limit : Limit α}
    (h : interval.limit field read? bound? = .ok limit) : limit.Stands read? bound? false := by
  cases bound? with
  | none =>
    cases h
    rfl
  | some value =>
    cases ha : read? value with
    | none =>
      simp only [interval.limit, ha] at h
      simp at h
    | some a =>
      simp only [interval.limit, ha] at h
      cases h
      exact ⟨rfl, value, rfl, ha⟩

theorem interval_eq_ok {α : Type} {read? : Value → Option α} {low high : Option Value}
    {interval : Interval α} (h : Predicate.interval field read? low high = .ok interval) :
    interval.low.Stands read? low false ∧ interval.high.Stands read? high false := by
  obtain ⟨l, hlow, h⟩ := bind_eq_ok.1 h
  obtain ⟨u, hhigh, h⟩ := bind_eq_ok.1 h
  cases h
  exact ⟨limit_eq_ok hlow, limit_eq_ok hhigh⟩

theorem locate_of_isUnbounded {α : Type} [Ord α] {interval : Interval α}
    (h : interval.isUnbounded = true) (a : α) : interval.locate a = .within := by
  rcases interval with ⟨_ | _ | _, _ | _ | _⟩ <;> first | rfl | cases h

/-- A test that every value passes is none, which does not move the cells that it places. -/
theorem place_simplified {test : Test} {type : FieldType} {cell : Cell} {side : Side}
    (hplace : test.place? type cell = some side) :
    (if test.isUnbounded then Test.all else test).place? type cell = some side := by
  split
  · next hunbounded =>
    rw [← hplace]
    cases test with
    | all => rfl
    | bytes interval => exact congrArg some (locate_of_isUnbounded hunbounded _).symm
    | signed interval =>
      cases cell with
      | word w => exact congrArg some (locate_of_isUnbounded hunbounded _).symm
      | bytes b => cases hplace
    | unsigned interval =>
      cases cell with
      | word w => exact congrArg some (locate_of_isUnbounded hunbounded _).symm
      | bytes b => cases hplace
  · exact hplace

/-- The interval of a criterion, narrowed where the start of the scan is left out. -/
theorem stands_narrowed {α : Type} {read? : Value → Option α} {interval : Interval α}
    {descending : Bool} (h : interval.low.Stands read? criterion.bounds.1 false ∧
      interval.high.Stands read? criterion.bounds.2 false) :
    (if criterion.opens order leading then interval.excludeStart descending
      else interval).Stands read? criterion (criterion.opens order leading) descending := by
  have hclosed : interval.Stands read? criterion false descending := ⟨h.1, h.2⟩
  cases criterion.opens order leading with
  | false => exact hclosed
  | true => exact hclosed.excludeStart

/-- A criterion that compiles gives a test that stands for its bounds, and is dropped if every value
passes it. -/
theorem stands_of_compile (h : compile field criterion order leading = .ok predicate) :
    ∃ test : Test, test.Stands field criterion order leading ∧
      predicate = { field := field.name, test := if test.isUnbounded then .all else test,
                    descending := field.type.descends order, leading := leading } := by
  unfold compile at h
  dsimp only at h
  obtain ⟨⟨⟩, -, h⟩ := bind_eq_ok.1 h
  obtain ⟨test, htest, h⟩ := bind_eq_ok.1 h
  cases h
  -- The test of a range is narrowed where the range opens.
  refine ⟨if criterion.opens order leading then
    test.excludeStart (field.type.descends order) else test, ?_, by cases criterion <;> rfl⟩
  unfold testBetween at htest
  split at htest
  · next hstring =>
    have htype : field.type = .string := by
      cases htype : field.type with
      | string => rfl
      | int => simp [htype, FieldType.isString] at hstring
    obtain ⟨interval, hi, htest⟩ := bind_eq_ok.1 htest
    cases htest
    have hstands : Test.Stands field criterion order leading (.bytes _) := .bytes _ htype
      (stands_narrowed (interval_eq_ok hi))
    rw [apply_ite Test.bytes] at hstands
    exact hstands
  · next hstring =>
    have htype : field.type.isString = false := by simpa using hstring
    split at htest
    · next hcompares =>
      obtain ⟨interval, hi, htest⟩ := bind_eq_ok.1 htest
      cases htest
      have hstands : Test.Stands field criterion order leading (.signed _) := .signed _ htype hcompares
        (stands_narrowed (interval_eq_ok hi))
      rw [apply_ite Test.signed] at hstands
      exact hstands
    · next hcompares =>
      obtain ⟨interval, hi, htest⟩ := bind_eq_ok.1 htest
      cases htest
      have hstands : Test.Stands field criterion order leading (.unsigned _) := .unsigned _ htype
        (by simpa using hcompares) (stands_narrowed (interval_eq_ok hi))
      rw [apply_ite Test.unsigned] at hstands
      exact hstands

/-- A criterion that compiles gives a predicate that places the cells of the field. -/
theorem places_of_compile (h : compile field criterion order leading = .ok predicate) :
    predicate.field = field.name ∧ predicate.leading = leading ∧
      predicate.descending = field.type.descends order ∧
      Places field criterion order leading predicate := by
  obtain ⟨test, hstands, rfl⟩ := stands_of_compile h
  refine ⟨rfl, rfl, rfl, ?_⟩
  cases hstands with
  | bytes interval htype hs => exact .bytes interval htype hs fun b => place_simplified rfl
  | signed interval htype hcompares hs =>
    exact .signed interval htype hcompares hs fun w => place_simplified rfl
  | unsigned interval htype hcompares hs =>
    exact .unsigned interval htype hcompares hs fun w => place_simplified rfl

/-- A list passes a check exactly if each element does. -/
theorem forM_eq_ok {ε α : Type} {f : α → Except ε Unit} : ∀ {l : List α},
    l.forM f = .ok () ↔ ∀ a ∈ l, f a = .ok ()
  | [] => iff_of_true rfl nofun
  | b :: l => by
    rw [List.forall_mem_cons, ← forM_eq_ok]
    show (f b >>= fun _ => l.forM f) = .ok () ↔ _
    rw [bind_eq_ok]
    exact ⟨fun ⟨⟨⟩, h⟩ => h, fun h => ⟨(), h⟩⟩

theorem checkKind_eq_ok {kind : ValueKind} :
    checkKind field kind = .ok () ↔ (kind == .str) = field.type.isString := by
  unfold checkKind
  split
  · next h => exact iff_of_true rfl (beq_iff_eq.1 h).symm
  · next h => exact iff_of_false nofun fun heq => h (beq_iff_eq.2 heq.symm)

/-- The bounds of a criterion that compiles are of the kind of the field. -/
theorem kind_of_compile (h : compile field criterion order leading = .ok predicate) {value : Value}
    (hv : criterion.bounds.1 = some value ∨ criterion.bounds.2 = some value) :
    field.type.isString = (value.kind == .str) := by
  unfold compile at h
  dsimp only at h
  obtain ⟨⟨⟩, hcheck, -⟩ := bind_eq_ok.1 h
  refine (checkKind_eq_ok.1 (forM_eq_ok.1 hcheck value ?_)).symm
  rcases hv with hv | hv <;> simp [hv]

/-- The predicate on the leading bytes is on a string field, and passes the strings that start with
them. -/
theorem startingWith_eq_ok {bytes : Bytes} (h : startingWith field bytes order = .ok predicate) :
    field.type = .string ∧ predicate.field = field.name ∧
      ∀ b, predicate.judgeCell .string (.bytes b) = .pass ↔ bytes.isPrefixOf b = true := by
  obtain ⟨⟨⟩, hcheck, h⟩ := bind_eq_ok.1 h
  cases h
  refine ⟨?_, rfl, fun b => ?_⟩
  · cases htype : field.type with
    | string => rfl
    | int => simp [checkKind, htype, FieldType.isString] at hcheck
  · unfold judgeCell
    rw [judge_eq_pass, Bytes.isPrefixOf_iff]
    show some (Interval.locate _ b) = some Side.within ↔ _
    rw [Option.some.injEq, Interval.locate_eq_within]
    cases bytes.successor? with
    | none => simp [Limit.exceeds, Limit.precedes, compare_ne_lt_iff]
    | some next => simp [Limit.exceeds, Limit.precedes, compare_ne_lt_iff]

end Predicate
end RowStore
