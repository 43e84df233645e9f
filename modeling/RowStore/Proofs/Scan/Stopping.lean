/-
# Stops that come too soon

A predicate on the leading key stops a scan at a cell past its interval. Behind it no cell passes,
as the scan runs through the cells in the order they are compared in, with one exception: words of
eight bytes are scanned as unsigned, and if they are compared as signed, the scan comes to one half
of them in the order of their signs. A stop in the half scanned first then hides what passes in the
other. It takes a bound at the far end of the scan and none at the near end: a near bound that lets a
cell of the other half pass lets the scan start in that half.

Key definitions: `Cell.Precedes`, `Criterion.farBound?`, `isPast`, `inFirstHalf`, `Value.cellIn`.
Key theorems: `Predicate.Places.halves_of_stop_pass`, `Predicate.Places.farBound_of_halves`,
`Predicate.Places.stop_of_isPast`.
-/
import RowStore.Proofs.Scan.Compile

namespace RowStore

/-- A scan of a field in the given direction comes to the first cell no later than to the second. -/
def Cell.Precedes (descends : Bool) : Cell → Cell → Prop
  | .word x, .word y => if descends then y.toNat ≤ x.toNat else x.toNat ≤ y.toNat
  | .bytes x, .bytes y => if descends then compare y x ≠ .gt else compare x y ≠ .gt
  | _, _ => False

/-- The cell that a value makes in a field of the given type. -/
def Value.cellIn (type : FieldType) : Value → Cell
  | .int i => .word (type.truncate i.toUInt64)
  | .uint u => .word (type.truncate u)
  | .str b => .bytes b

/-- The bound at the far end of a scan of the field, if it is the only one and is given as
signed. -/
def Criterion.farBound? (criterion : Criterion) (descends : Bool) : Option Int64 :=
  match criterion, descends with
  | .between none (some (.int bound)), false => some bound
  | .between (some (.int bound)) none, true => some bound
  | _, _ => none

/-- Whether a word, read as signed, lies past a bound at the far end of a scan. -/
def isPast (descends : Bool) (bound : Int64) (w : UInt64) : Bool :=
  if descends then w.toInt64 < bound else bound < w.toInt64

/-- Whether a word is in the half of the words of eight bytes that a scan comes to first: those
without the sign bit if it runs up, else those with it. -/
def inFirstHalf (descends : Bool) (w : UInt64) : Bool := decide (w.toNat < 2 ^ 63) != descends

theorem inFirstHalf_up {w : UInt64} : inFirstHalf false w = true ↔ w.toNat < 2 ^ 63 := by
  unfold inFirstHalf
  rw [Bool.bne_false, decide_eq_true_iff]

theorem inFirstHalf_down {w : UInt64} : inFirstHalf true w = true ↔ ¬ w.toNat < 2 ^ 63 := by
  unfold inFirstHalf
  rw [Bool.bne_true, Bool.not_eq_true', decide_eq_false_iff_not]

/-- A word in the half scanned first is not behind one in the other. -/
theorem not_precedes_of_halves {descends : Bool} {v w : UInt64}
    (hv : inFirstHalf descends v = true) (hw : inFirstHalf descends w = false) :
    ¬ (Cell.word w).Precedes descends (.word v) := by
  rw [← Bool.not_eq_true] at hw
  unfold Cell.Precedes
  cases descends with
  | false =>
    rw [inFirstHalf_up] at hv hw
    exact Nat.not_le.2 (Nat.lt_of_lt_of_le hv (Nat.not_lt.1 hw))
  | true =>
    rw [inFirstHalf_down] at hv hw
    exact Nat.not_le.2 (Nat.lt_of_lt_of_le (not_not.1 hw) (Nat.not_lt.1 hv))

/-- Behind a value that the scan stops at, none is within. -/
theorem Interval.not_within_behind {α : Type} [Ord α] [Std.TransOrd α] {interval : Interval α}
    {a b : α} {descends : Bool}
    (hstop : interval.locate a = if descends then .below else .above)
    (hab : if descends then compare b a ≠ .gt else compare a b ≠ .gt) :
    interval.locate b ≠ .within := by
  rw [ne_eq, Interval.locate_eq_within]
  rintro ⟨hlow, hhigh⟩
  cases descends with
  | false =>
    have hpast := Limit.precedes_mono (Interval.locate_eq_above.1 hstop).2 hab
    rw [hhigh] at hpast
    simp at hpast
  | true =>
    have hpast := Limit.exceeds_mono (Interval.locate_eq_below.1 hstop) hab
    rw [hlow] at hpast
    simp at hpast

/-- The word that a value compared as signed makes in a field of eight bytes. -/
theorem Value.cellIn_eight {value : Value} {i : Int64} (h : value.asInt? = some i)
    (reversed : Bool) : ∃ w, value.cellIn (.int .eight reversed) = .word w ∧
      (w.toNat : Int) = if 0 ≤ i.toInt then i.toInt else i.toInt + 2 ^ 64 := by
  cases value with
  | int i' =>
    cases h
    exact ⟨_, rfl, toNat_toUInt64 i⟩
  | uint u =>
    simp only [Value.asInt?] at h
    split at h
    · next hu =>
      cases h
      have hlt : u.toNat < 2 ^ 63 := Nat.lt_of_le_of_lt hu (by decide)
      refine ⟨u, rfl, ?_⟩
      rw [toInt_toInt64, if_pos hlt, if_pos (Int.natCast_nonneg _)]
    · simp at h
  | str b => cases h

theorem compare_of_precedes {descends : Bool} {v w : UInt64}
    (h : (Cell.word v).Precedes descends (.word w)) :
    if descends then compare w v ≠ .gt else compare v w ≠ .gt := by
  cases descends with
  | false =>
    show compare v w ≠ .gt
    rw [ne_eq, Std.compare_eq_gt]
    exact UInt64.not_lt.2 h
  | true =>
    show compare w v ≠ .gt
    rw [ne_eq, Std.compare_eq_gt]
    exact UInt64.not_lt.2 h

/-- A criterion with a far bound alone has no other. -/
theorem Criterion.bounds_of_farBound {criterion : Criterion} {descends : Bool} {bound : Int64}
    (h : criterion.farBound? descends = some bound) : criterion.bounds =
      if descends then (some (.int bound), none) else (none, some (.int bound)) := by
  unfold Criterion.farBound? at h
  split at h
  · cases h
    rfl
  · cases h
    rfl
  · simp at h

theorem Criterion.eq_between_of_low {criterion : Criterion} (h : criterion.bounds.1 = none) :
    ∃ high, criterion = .between none high := by
  cases criterion with
  | equals value => cases h
  | between low high =>
    obtain rfl : low = none := h
    exact ⟨high, rfl⟩

theorem Criterion.eq_between_of_high {criterion : Criterion} (h : criterion.bounds.2 = none) :
    ∃ low, criterion = .between low none := by
  cases criterion with
  | equals value => cases h
  | between low high =>
    obtain rfl : high = none := h
    exact ⟨low, rfl⟩

/-- One bound compared as signed is given as signed. -/
theorem eq_int_of_asInt? {value : Value} {i : Int64} (h : value.asInt? = some i)
    (hc : comparesSigned [value] = true) : value = .int i := by
  cases value with
  | int i' =>
    cases h
    rfl
  | uint u => simp [comparesSigned] at hc
  | str b => cases h

/-- A limit that something lies past has a bound. -/
theorem Limit.Stands.signed {bound? : Option Value} {limit : Limit Int64}
    (h : limit.Stands Value.asInt? bound? false) (hbounded : limit ≠ .unbounded)
    (hc : comparesSigned bound?.toList = true) :
    ∃ bound, bound? = some (.int bound) ∧ limit = .included bound := by
  cases bound? with
  | none => exact absurd h.eq_unbounded hbounded
  | some value =>
    obtain ⟨bound, hread, -⟩ := h.exists_read
    exact ⟨bound, by rw [eq_int_of_asInt? hread hc], h.eq_included hread⟩

/-- There is no bound if one is refuted by its number and the word that the scan starts at. -/
theorem Limit.Stands.eq_none_of_refuted {bound? : Option Value} {limit : Limit Int64}
    {strict reversed : Bool} {p : UInt64 → Prop} (h : limit.Stands Value.asInt? bound? strict)
    (hstart : ∀ value start, bound? = some value →
      value.cellIn (.int .eight reversed) = .word start → p start)
    (hrefuted : ∀ (a : Int64) (start : UInt64), limit = .included a ∨ limit = .excluded a →
      ((start.toNat : Int) = if 0 ≤ a.toInt then a.toInt else a.toInt + 2 ^ 64) → ¬p start) :
    bound? = none := by
  cases bound? with
  | none => rfl
  | some value =>
    obtain ⟨a, hread, hlimit⟩ := h.exists_read
    obtain ⟨start, hcell, hstartsign⟩ := Value.cellIn_eight hread reversed
    exact absurd (hstart value start rfl hcell) (hrefuted a start hlimit hstartsign)

/-- A lower limit that lets a word of the half scanned last pass, in a scan that runs up and starts no
later than in the other half, has no bound: one would be negative and let the scan start behind. -/
theorem Limit.Stands.eq_none_of_exceeds {bound? : Option Value} {limit : Limit Int64}
    {strict reversed : Bool} {v w : UInt64} (h : limit.Stands Value.asInt? bound? strict)
    (hv : v.toNat < 2 ^ 63) (hw : ¬ w.toNat < 2 ^ 63)
    (hstart : ∀ value start, bound? = some value →
      value.cellIn (.int .eight reversed) = .word start → start.toNat ≤ v.toNat)
    (hpass : limit.exceeds w.toInt64 = false) : bound? = none := by
  refine h.eq_none_of_refuted hstart fun a start hlimit hstartsign hle => ?_
  have hwsign := toInt_toInt64 w
  rw [if_neg hw] at hwsign
  have hbelow : a.toInt ≤ w.toInt64.toInt := by
    by_contra hgt
    have hc : compare w.toInt64 a = .lt := by
      rw [compare_int64, Std.compare_eq_lt]
      omega
    rcases hlimit with hl | hl <;> simp [hl, Limit.exceeds, hc] at hpass
  have hwlt : w.toNat < 2 ^ 64 := w.toNat_lt
  have ha : -2 ^ 63 ≤ a.toInt := a.le_toInt
  split at hstartsign <;> omega

/-- An upper limit that lets a word of the half scanned last pass, in a scan that runs down and starts
no later than in the other half, has no bound: one would not be negative and let the scan start
behind. -/
theorem Limit.Stands.eq_none_of_precedes {bound? : Option Value} {limit : Limit Int64}
    {strict reversed : Bool} {v w : UInt64} (h : limit.Stands Value.asInt? bound? strict)
    (hv : ¬ v.toNat < 2 ^ 63) (hw : w.toNat < 2 ^ 63)
    (hstart : ∀ value start, bound? = some value →
      value.cellIn (.int .eight reversed) = .word start → v.toNat ≤ start.toNat)
    (hpass : limit.precedes w.toInt64 = false) : bound? = none := by
  refine h.eq_none_of_refuted hstart fun a start hlimit hstartsign hle => ?_
  have hwsign := toInt_toInt64 w
  rw [if_pos hw] at hwsign
  have habove : w.toInt64.toInt ≤ a.toInt := by
    by_contra hgt
    have hc : compare w.toInt64 a = .gt := by
      rw [compare_int64, Std.compare_eq_gt]
      omega
    rcases hlimit with hl | hl <;> simp [hl, Limit.precedes, hc] at hpass
  have ha : a.toInt < 2 ^ 63 := a.toInt_lt
  split at hstartsign <;> omega

/-- Where a scan comes to one word before another but their signed readings go the other way, the two
lie on the two sides of the sign. -/
theorem halves_of_turn {descends : Bool} {v w : UInt64}
    (hvw : (Cell.word v).Precedes descends (.word w))
    (hturn : if descends then v.toInt64.toInt < w.toInt64.toInt
      else w.toInt64.toInt < v.toInt64.toInt) :
    inFirstHalf descends v = true ∧ inFirstHalf descends w = false := by
  have hv := toInt_toInt64 v
  have hw := toInt_toInt64 w
  have hvlt : v.toNat < 2 ^ 64 := v.toNat_lt
  have hwlt : w.toNat < 2 ^ 64 := w.toNat_lt
  rw [← Bool.not_eq_true]
  cases descends with
  | false =>
    have hle : v.toNat ≤ w.toNat := hvw
    have hlt : w.toInt64.toInt < v.toInt64.toInt := hturn
    rw [inFirstHalf_up, inFirstHalf_up]
    split at hv <;> split at hw <;> omega
  | true =>
    have hle : w.toNat ≤ v.toNat := hvw
    have hlt : v.toInt64.toInt < w.toInt64.toInt := hturn
    rw [inFirstHalf_down, inFirstHalf_down]
    split at hv <;> split at hw <;> omega

/-- Behind a word that a scan stops at, one that passes reads as a number on the near side of it. -/
theorem turn_of_stop_pass {interval : Interval Int64} {descends : Bool} {v w : UInt64}
    (hstop : interval.locate v.toInt64 = if descends then .below else .above)
    (hpass : interval.locate w.toInt64 = .within) :
    if descends then v.toInt64.toInt < w.toInt64.toInt
      else w.toInt64.toInt < v.toInt64.toInt := by
  by_contra hnot
  refine Interval.not_within_behind hstop ?_ hpass
  cases descends with
  | false =>
    show compare v.toInt64 w.toInt64 ≠ .gt
    rw [compare_int64, ne_eq, Std.compare_eq_gt]
    exact hnot
  | true =>
    show compare w.toInt64 v.toInt64 ≠ .gt
    rw [compare_int64, ne_eq, Std.compare_eq_gt]
    exact hnot

namespace Predicate.Places

variable {field : Field} {criterion : Criterion} {order : ScanOrder} {leading : Bool}
  {predicate : Predicate}

/-- If a cell passes behind one that the scan stops at, the field is compared as signed, and the two
are words of eight bytes on the two sides of the sign. -/
theorem halves_of_stop_pass (hp : Places field criterion order leading predicate)
    (hd : predicate.descending = field.type.descends order) {x y : Cell} (hx : x.Fits field.type)
    (hy : y.Fits field.type) (hxy : x.Precedes (field.type.descends order) y)
    (hstop : predicate.judgeCell field.type x = .stop)
    (hpass : predicate.judgeCell field.type y = .pass) :
    ∃ reversed v w, field.type = .int .eight reversed ∧ x = .word v ∧ y = .word w ∧
      inFirstHalf (field.type.descends order) v = true ∧
      inFirstHalf (field.type.descends order) w = false := by
  unfold judgeCell at hstop hpass
  rw [judge_eq_stop, hd] at hstop
  rw [judge_eq_pass] at hpass
  obtain ⟨-, hstop⟩ := hstop
  cases hp with
  | bytes interval htype stands place =>
    cases x with
    | word v =>
      rw [htype] at hx
      exact absurd hx.1 (by simp [FieldType.isString])
    | bytes b =>
      cases y with
      | word w => exact hxy.elim
      | bytes c =>
        rw [place, Option.some.injEq] at hstop hpass
        exact absurd hpass (Interval.not_within_behind hstop hxy)
  | unsigned interval htype compares stands place =>
    cases x with
    | bytes b => exact absurd (htype.symm.trans hx) Bool.false_ne_true
    | word v =>
      cases y with
      | bytes c => exact hxy.elim
      | word w =>
        rw [place, Option.some.injEq] at hstop hpass
        exact absurd hpass (Interval.not_within_behind hstop (compare_of_precedes hxy))
  | signed interval htype compares stands place =>
    cases x with
    | bytes b => exact absurd (htype.symm.trans hx) Bool.false_ne_true
    | word v =>
      cases y with
      | bytes c => exact hxy.elim
      | word w =>
        rw [place, Option.some.injEq] at hstop hpass
        cases ht : field.type with
        | string => simp [ht, FieldType.isString] at htype
        | int width reversed =>
          obtain ⟨hfirst, hother⟩ := halves_of_turn hxy (turn_of_stop_pass hstop hpass)
          -- Words on the two sides of the sign are of eight bytes.
          have height : width = .eight := by
            by_contra hne
            rw [ht] at hx hy
            have hsize := Width.size_le_of_ne_eight hne
            have hv := Cell.fits_word_iff.1 hx
            have hw := Cell.fits_word_iff.1 hy
            unfold inFirstHalf at hfirst hother
            rw [decide_eq_true (by omega)] at hfirst hother
            rw [hfirst] at hother
            simp at hother
          rw [← ht]
          exact ⟨reversed, v, w, by rw [ht, height], rfl, rfl, hfirst, hother⟩

/-- If a cell passes in the half scanned last, and the scan, started no later than at the near bound,
stops at a cell in the half scanned first, the only bound is a signed one at the far end, and that
cell lies past it. -/
theorem farBound_of_halves (hp : Places field criterion order leading predicate)
    (hd : predicate.descending = field.type.descends order) {reversed : Bool} {v w : UInt64}
    (htype : field.type = .int .eight reversed)
    (hv : inFirstHalf (field.type.descends order) v = true)
    (hw : inFirstHalf (field.type.descends order) w = false)
    (hstart : ∀ value start, criterion.seed (field.type.descends order) = some value →
      value.cellIn field.type = .word start →
      (Cell.word start).Precedes (field.type.descends order) (.word v))
    (hstop : predicate.judgeCell field.type (.word v) = .stop)
    (hpass : predicate.judgeCell field.type (.word w) = .pass) :
    ∃ bound, criterion.farBound? (field.type.descends order) = some bound ∧
      isPast (field.type.descends order) bound v = true := by
  have hbehind : (Cell.word v).Precedes (field.type.descends order) (.word w) := by
    have hnot := not_precedes_of_halves hv hw
    unfold Cell.Precedes at hnot ⊢
    cases hdir : field.type.descends order <;> rw [hdir] at hnot <;>
      exact Nat.le_of_lt (Nat.not_le.1 hnot)
  unfold judgeCell at hstop hpass
  rw [judge_eq_stop, hd] at hstop
  rw [judge_eq_pass] at hpass
  obtain ⟨-, hstop⟩ := hstop
  cases hp with
  | bytes interval hstring stands place => simp [htype] at hstring
  | unsigned interval hint compares stands place =>
    rw [place, Option.some.injEq] at hstop hpass
    exact absurd hpass (Interval.not_within_behind hstop (compare_of_precedes hbehind))
  | signed interval hint compares stands place =>
    rw [place, Option.some.injEq] at hstop hpass
    obtain ⟨hlowpass, hhighpass⟩ := Interval.locate_eq_within.1 hpass
    obtain ⟨hlow, hhigh⟩ := stands
    rw [← Bool.not_eq_true] at hw
    rw [htype] at hv hw hstop hstart hlow hhigh ⊢
    cases hdir : FieldType.descends (.int .eight reversed) order with
    | false =>
      simp only [hdir, Bool.and_false, Bool.false_eq_true, if_false] at hv hw hstop hstart hlow hhigh ⊢
      have hnear := hlow.eq_none_of_exceeds (inFirstHalf_up.1 hv) (fun h => hw (inFirstHalf_up.2 h))
        hstart hlowpass
      have hpast := (Interval.locate_eq_above.1 hstop).2
      obtain ⟨high, rfl⟩ := Criterion.eq_between_of_low hnear
      have hbounded : interval.high ≠ .unbounded := by
        intro hopen
        simp [hopen, Limit.precedes] at hpast
      obtain ⟨bound, rfl, hlimit⟩ := hhigh.signed hbounded compares
      refine ⟨bound, rfl, ?_⟩
      rw [hlimit, Limit.precedes, beq_iff_eq, Std.compare_eq_gt] at hpast
      simpa [isPast] using hpast
    | true =>
      simp only [hdir, Bool.and_false, Bool.not_true, if_true] at hv hw hstop hstart hlow hhigh ⊢
      have hnear := hhigh.eq_none_of_precedes (inFirstHalf_down.1 hv)
        (not_not.1 fun h => hw (inFirstHalf_down.2 h)) hstart hhighpass
      have hpast := Interval.locate_eq_below.1 hstop
      rw [hnear, Option.toList_none, List.append_nil] at compares
      obtain ⟨low, rfl⟩ := Criterion.eq_between_of_high hnear
      have hbounded : interval.low ≠ .unbounded := by
        intro hopen
        simp [hopen, Limit.exceeds] at hpast
      obtain ⟨bound, rfl, hlimit⟩ := hlow.signed hbounded compares
      refine ⟨bound, rfl, ?_⟩
      rw [hlimit, Limit.exceeds, beq_iff_eq, Std.compare_eq_lt] at hpast
      simpa [isPast] using hpast

/-- A scan stops at every word past its only bound, a signed one at the far end. -/
theorem stop_of_isPast (hp : Places field criterion order leading predicate)
    (hl : predicate.leading = true) (hd : predicate.descending = field.type.descends order)
    {bound : Int64} (hfar : criterion.farBound? (field.type.descends order) = some bound)
    (hint : field.type.isString = false) {w : UInt64}
    (hpast : isPast (field.type.descends order) bound w = true) :
    predicate.judgeCell field.type (.word w) = .stop := by
  unfold judgeCell
  rw [judge_eq_stop, hd]
  refine ⟨hl, ?_⟩
  have hsigned : comparesSigned [.int bound] = true := by
    unfold comparesSigned
    simp
  have hbounds := Criterion.bounds_of_farBound hfar
  cases hp with
  | bytes interval htype stands place => simp [htype, FieldType.isString] at hint
  | unsigned interval htype compares stands place =>
    exfalso
    rw [hbounds] at compares
    cases hdir : field.type.descends order <;> rw [hdir] at compares <;>
      exact absurd (compares.symm.trans hsigned) Bool.false_ne_true
  | signed interval htype compares stands place =>
    rw [place, Option.some.injEq]
    obtain ⟨hlow, hhigh⟩ := stands
    rw [hbounds] at hlow hhigh
    cases hdir : field.type.descends order with
    | false =>
      simp only [hdir, Bool.false_eq_true, if_false, Bool.and_false, isPast, decide_eq_true_eq]
        at hlow hhigh hpast ⊢
      have hopen : interval.low = .unbounded := hlow.eq_unbounded
      have hfarlimit : interval.high = .included bound := hhigh.eq_included rfl
      rw [Interval.locate_eq_above, hopen, hfarlimit]
      refine ⟨rfl, ?_⟩
      rw [Limit.precedes, beq_iff_eq, Std.compare_eq_gt]
      exact hpast
    | true =>
      simp only [hdir, if_true, Bool.not_true, Bool.and_false, isPast, decide_eq_true_eq]
        at hlow hhigh hpast ⊢
      have hfarlimit : interval.low = .included bound := hlow.eq_included rfl
      rw [Interval.locate_eq_below, hfarlimit, Limit.exceeds, beq_iff_eq, Std.compare_eq_lt]
      exact hpast

end Predicate.Places
end RowStore
