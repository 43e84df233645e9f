/-
# The records that a scan reaches

A scan goes through the records in key order or against it. What is left to it at a position are the
records behind the position that it reaches before it has gone beyond its leading bytes. Each record
found is the first of these, and the rest are left to the scan at its new position. At the start of
an inclusive scan, what is left are the records that do not lie before the seed and whose leading key
starts with the leading bytes.

Key definitions: `ScanOrder.arrange`, `Seek.remaining`, `Seek.admits`.
Key theorems: `Seek.next?_eq_head?`, `Seek.remaining_of_cons`, `Seek.remaining_of_fresh`.
-/
import RowStore.Proofs.Data.Keys

namespace RowStore

/-! ### Lists with a front part -/

section Lists

variable {α : Type}

/-- Where a predicate holds of a front part of a list, dropping it is filtering it out. -/
theorem dropWhile_eq_filter {p : α → Bool} : ∀ {l : List α},
    l.Pairwise (fun a b => p b = true → p a = true) → l.dropWhile p = l.filter fun a => !p a
  | [], _ => rfl
  | a :: l, h => by
    rw [List.pairwise_cons] at h
    cases ha : p a with
    | true =>
      rw [List.dropWhile_cons_of_pos ha, List.filter_cons_of_neg (by simp [ha])]
      exact dropWhile_eq_filter h.2
    | false =>
      rw [List.dropWhile_cons_of_neg (by simp [ha]), List.filter_cons_of_pos (by simp [ha])]
      rw [List.filter_eq_self.2]
      intro b hb
      have hnot : ¬ p b = true := fun hpb => by
        have := h.1 b hb hpb
        rw [ha] at this
        cases this
      simpa using hnot

/-- In a list ordered by a relation, the elements behind one are those that it precedes. -/
theorem filter_eq_behind {r : α → α → Bool} (hasymm : ∀ a b, r a b = true → r b a = false)
    {front behind : List α} {a : α}
    (h : (front ++ a :: behind).Pairwise fun a b => r a b = true) :
    (front ++ a :: behind).filter (r a) = behind := by
  rw [List.pairwise_append, List.pairwise_cons] at h
  obtain ⟨-, ⟨hbehind, -⟩, hfront⟩ := h
  have hself : r a a = false := by
    cases haa : r a a with
    | false => rfl
    | true =>
      have := hasymm a a haa
      rw [haa] at this
      cases this
  have hnone : front.filter (r a) = [] := by
    rw [List.filter_eq_nil_iff]
    intro b hb
    rw [hasymm b a (hfront b hb a List.mem_cons_self)]
    nofun
  rw [List.filter_append, hnone, List.nil_append, List.filter_cons_of_neg (by simp [hself]),
    List.filter_eq_self.2 hbehind]

end Lists

/-- The records in the order of a scan: in key order if it runs up, else against it. -/
def ScanOrder.arrange (order : ScanOrder) (records : Records) : List (Key × Record) :=
  if order.isDescending then records.entries.reverse else records.entries

theorem ScanOrder.mem_arrange {order : ScanOrder} {records : Records} {e : Key × Record} :
    e ∈ order.arrange records ↔ e ∈ records.entries := by
  unfold ScanOrder.arrange
  split
  · exact List.mem_reverse
  · rfl

/-- Whether a comparison with the seed satisfies the order. -/
def ScanOrder.admits : ScanOrder → Ordering → Bool
  | .gt, side => side == .gt
  | .gte, side => side != .lt
  | .lt, side => side == .lt
  | .lte, side => side != .gt

theorem ScanOrder.admits_up {order : ScanOrder} (hd : order.isDescending = false)
    (side : Ordering) :
    order.admits side = (side != .lt && !(order.isExclusive && side == .eq)) := by
  cases order with
  | gt => cases side <;> rfl
  | gte => cases side <;> rfl
  | lt => cases hd
  | lte => cases hd

theorem ScanOrder.admits_down {order : ScanOrder} (hd : order.isDescending = true)
    (side : Ordering) :
    order.admits side = !(side == .gt || (order.isExclusive && side == .eq)) := by
  cases order with
  | gt => cases hd
  | gte => cases hd
  | lt => cases side <;> rfl
  | lte => cases side <;> rfl

theorem ScanOrder.admits_inclusive {order : ScanOrder} (hx : order.isExclusive = false)
    (side : Ordering) :
    order.admits side = !(side == if order.isDescending then .gt else .lt) := by
  cases order with
  | gt => cases hx
  | gte => rfl
  | lt => cases hx
  | lte => rfl

namespace Seek

variable {seek : Seek} {records : Records}

/-- Whether a scan comes to the first key before the second. -/
def precedes (seek : Seek) (a b : Key) : Bool :=
  if seek.order.isDescending then compare b a == .lt else compare a b == .lt

theorem precedes_asymm {a b : Key} (h : seek.precedes a b = true) : seek.precedes b a = false := by
  unfold precedes at h ⊢
  split
  · next hd =>
    rw [if_pos hd, beq_iff_eq] at h
    rw [Std.OrientedCmp.gt_of_lt h]
    rfl
  · next hd =>
    rw [if_neg hd, beq_iff_eq] at h
    rw [Std.OrientedCmp.gt_of_lt h]
    rfl

theorem pairwise_arrange : (seek.order.arrange records).Pairwise fun a b =>
    seek.precedes a.1 b.1 = true := by
  unfold ScanOrder.arrange precedes
  split
  · rw [List.pairwise_reverse]
    exact records.sorted.imp fun h => by simpa using h
  · exact records.sorted.imp fun h => by simpa using h

/-- The records reached, up to the first that lies beyond the leading bytes. -/
def visits (seek : Seek) : List (Key × Record) → List (Key × Record)
  | [] => []
  | e :: rest =>
    match seek.reach e.1 with
    | .within => e :: visits seek rest
    | .before => visits seek rest
    | .beyond => []

/-- The records that are left to a scan. -/
def remaining (seek : Seek) (records : Records) : List (Key × Record) :=
  seek.visits (seek.candidates records)

theorem firstWithin_eq_head? : ∀ candidates : List (Key × Record),
    seek.firstWithin candidates = (seek.visits candidates).head?
  | [] => rfl
  | e :: rest => by
    rw [firstWithin, visits]
    cases seek.reach e.1 with
    | within => rfl
    | before => exact firstWithin_eq_head? rest
    | beyond => rfl

/-- The record found is the first that is left. -/
theorem next?_eq_head? : seek.next? records = (seek.remaining records).head? :=
  firstWithin_eq_head? _

/-- Whether a key is ahead of a scan that leaves out no seed: past its position or, at the start, not
before its seed. -/
def isAhead (seek : Seek) (key : Key) : Bool :=
  match seek.last? with
  | some last => seek.precedes last key
  | none =>
    if seek.order.isDescending then !(key.compareOn seek.seed == .gt)
    else compare seek.lowerBound key != .gt

theorem candidates_eq_filter (hx : seek.excludesSeed = false) :
    seek.candidates records = (seek.order.arrange records).filter fun e => seek.isAhead e.1 := by
  unfold candidates ScanOrder.arrange isAhead precedes
  rw [hx]
  cases hlast : seek.last? with
  | some last => cases seek.order.isDescending <;> rfl
  | none =>
    cases hd : seek.order.isDescending with
    | false =>
      simp only [Bool.false_and, Bool.false_eq_true, if_false]
      generalize records.entries.filter _ = l
      cases l <;> rfl
    | true =>
      simp only [Bool.false_and, Bool.or_false, if_true]
      refine dropWhile_eq_filter ?_
      rw [List.pairwise_reverse]
      refine records.sorted.imp fun {a b} hlt h => ?_
      rw [beq_iff_eq] at h ⊢
      exact Key.compareOn_gt_mono (by rw [hlt]; nofun) h

/-- What comes after a key that is ahead is ahead. -/
theorem isAhead_mono {a b : Key} (h : seek.precedes a b = true) (ha : seek.isAhead a = true) :
    seek.isAhead b = true := by
  unfold isAhead precedes at *
  cases hlast : seek.last? with
  | some last =>
    cases hd : seek.order.isDescending with
    | false =>
      simp only [hlast, hd, Bool.false_eq_true, if_false, beq_iff_eq] at h ha ⊢
      exact Std.TransCmp.lt_trans ha h
    | true =>
      simp only [hlast, hd, if_true, beq_iff_eq] at h ha ⊢
      exact Std.TransCmp.lt_trans h ha
  | none =>
    cases hd : seek.order.isDescending with
    | false =>
      simp only [hlast, hd, Bool.false_eq_true, if_false, beq_iff_eq, bne_iff_ne] at h ha ⊢
      exact compare_ne_gt_trans ha (by rw [h]; nofun)
    | true =>
      simp only [hlast, hd, if_true, beq_iff_eq, Bool.not_eq_true', beq_eq_false_iff_ne] at h ha ⊢
      exact fun hb => ha (Key.compareOn_gt_mono (by rw [h]; nofun) hb)

/-- The records behind a candidate are the candidates at its position. -/
theorem candidates_behind (hx : seek.excludesSeed = false) {front behind : List (Key × Record)}
    {e : Key × Record} (h : seek.candidates records = front ++ e :: behind) :
    { seek with last? := some e.1 }.candidates records = behind := by
  rw [candidates_eq_filter hx] at h
  have he : seek.isAhead e.1 = true := by
    have hmem : e ∈ front ++ e :: behind := List.mem_append_right _ List.mem_cons_self
    rw [← h] at hmem
    exact (List.mem_filter.1 hmem).2
  have hsorted : ((seek.order.arrange records).filter fun e => seek.isAhead e.1).Pairwise
      fun a b => seek.precedes a.1 b.1 = true := pairwise_arrange.filter _
  calc { seek with last? := some e.1 }.candidates records
      = (seek.order.arrange records).filter fun e' => seek.precedes e.1 e'.1 :=
        candidates_eq_filter (show excludesSeed { seek with last? := some e.1 } = false from hx)
    _ = ((seek.order.arrange records).filter fun e => seek.isAhead e.1).filter
          fun e' => seek.precedes e.1 e'.1 := by
        rw [List.filter_filter]
        refine List.filter_congr fun e' _ => ?_
        cases hp : seek.precedes e.1 e'.1 with
        | false => rfl
        | true => rw [isAhead_mono hp he]; rfl
    _ = behind := by
        rw [h] at hsorted ⊢
        exact filter_eq_behind (r := fun a b : Key × Record => seek.precedes a.1 b.1)
          (fun _ _ => precedes_asymm) hsorted

/-- What is reached first was among the candidates, and the rest is reached behind it. -/
theorem visits_eq_cons : ∀ {candidates rest : List (Key × Record)} {e : Key × Record},
    seek.visits candidates = e :: rest →
      ∃ front behind, candidates = front ++ e :: behind ∧ seek.visits behind = rest
  | [], _, _, h => by cases h
  | c :: candidates, rest, e, h => by
    rw [visits] at h
    cases hr : seek.reach c.1 with
    | within =>
      simp only [hr, List.cons.injEq] at h
      obtain ⟨rfl, h⟩ := h
      exact ⟨[], candidates, rfl, h⟩
    | before =>
      simp only [hr] at h
      obtain ⟨front, behind, rfl, hrest⟩ := visits_eq_cons h
      exact ⟨c :: front, behind, rfl, hrest⟩
    | beyond =>
      simp only [hr] at h
      simp at h

theorem visits_last {last : Option Key} : ∀ candidates : List (Key × Record),
    { seek with last? := last }.visits candidates = seek.visits candidates
  | [] => rfl
  | e :: rest => by
    rw [visits, visits, visits_last rest]
    rfl

/-- At the position of the record found, the rest of what was left is left. -/
theorem remaining_of_cons (hx : seek.excludesSeed = false) {rest : List (Key × Record)}
    {e : Key × Record} (h : seek.remaining records = e :: rest) :
    { seek with last? := some e.1 }.remaining records = rest := by
  obtain ⟨front, behind, hcandidates, hrest⟩ := visits_eq_cons h
  unfold remaining
  rw [candidates_behind hx hcandidates, visits_last, hrest]

theorem visits_sublist : ∀ candidates : List (Key × Record),
    (seek.visits candidates).Sublist candidates
  | [] => .slnil
  | e :: rest => by
    rw [visits]
    cases seek.reach e.1 with
    | within => exact (visits_sublist rest).cons_cons e
    | before => exact (visits_sublist rest).cons e
    | beyond => exact List.nil_sublist _

/-- What is left are records. -/
theorem mem_of_mem_remaining (hx : seek.excludesSeed = false) {e : Key × Record}
    (he : e ∈ seek.remaining records) : e ∈ records.entries := by
  have hcandidate := (visits_sublist _).subset he
  rw [candidates_eq_filter hx] at hcandidate
  exact ScanOrder.mem_arrange.1 (List.mem_filter.1 hcandidate).1

/-- No more is left than there are records. -/
theorem length_remaining_le (hx : seek.excludesSeed = false) :
    (seek.remaining records).length ≤ records.size := by
  have hcandidates : (seek.candidates records).length ≤ (seek.order.arrange records).length := by
    rw [candidates_eq_filter hx]
    exact List.length_filter_le _ _
  have harrange : (seek.order.arrange records).length = records.size := by
    unfold ScanOrder.arrange
    split
    · exact List.length_reverse
    · rfl
  rw [← harrange]
  exact Nat.le_trans (visits_sublist _).length_le hcandidates

/-! ### The start of a scan -/

/-- A scan at its start, inclusive, whose seed fits the key fields; leading bytes are asked for of a
string, and then nothing else of the seed. -/
structure Fresh (seek : Seek) : Prop where
  last : seek.last? = none
  inclusive : seek.order.isExclusive = false
  length : seek.seed.length ≤ seek.keyTypes.length
  leading : seek.startsWith?.isSome = true → seek.seed = [] ∧ seek.keyTypes.head? = some .string

/-- Whether the scan admits a key: not before the seed, and with the leading bytes. -/
def admits (seek : Seek) (key : Key) : Bool :=
  !key.isBefore seek.order.isDescending seek.seed &&
    seek.startsWith?.all (·.isPrefixOf key.leadingBytes)

/-- A scan that is not beyond its bytes for good goes on: what is reached is what is within. -/
theorem visits_eq_filter : ∀ {candidates : List (Key × Record)},
    candidates.Pairwise (fun a b => seek.reach a.1 = .beyond → seek.reach b.1 = .beyond) →
    seek.visits candidates = candidates.filter fun e => seek.reach e.1 == .within
  | [], _ => rfl
  | e :: rest, h => by
    rw [List.pairwise_cons] at h
    rw [visits]
    cases hr : seek.reach e.1 with
    | within => rw [List.filter_cons_of_pos (by simp [hr]), visits_eq_filter h.2]
    | before => rw [List.filter_cons_of_neg (by simp [hr]), visits_eq_filter h.2]
    | beyond =>
      rw [List.filter_cons_of_neg (by simp [hr]), eq_comm, List.filter_eq_nil_iff]
      intro e' he'
      simp [h.1 e' he' hr]

theorem reach_eq_within {bytes : Bytes} (h : seek.startsWith? = some bytes) (key : Key) :
    (seek.reach key == .within) = bytes.isPrefixOf key.leadingBytes := by
  unfold reach
  rw [h]
  dsimp only
  split
  · next hp => simp [hp]
  · next hp =>
    rw [Bool.not_eq_true] at hp
    rw [hp]
    generalize (if seek.order.isDescending then Ordering.gt else .lt) = side
    split <;> rfl

theorem reach_eq_beyond {bytes : Bytes} (h : seek.startsWith? = some bytes) (key : Key) :
    seek.reach key = .beyond ↔ bytes.isPrefixOf key.leadingBytes = false ∧
      compare key.leadingBytes bytes ≠ if seek.order.isDescending then .gt else .lt := by
  unfold reach
  rw [h]
  dsimp only
  split
  · next hp => simp [hp]
  · next hp =>
    rw [Bool.not_eq_true] at hp
    generalize (if seek.order.isDescending then Ordering.gt else .lt) = side
    split
    · next hc =>
      rw [beq_iff_eq] at hc
      simp [hc]
    · next hc =>
      rw [beq_iff_eq] at hc
      simp [hp, hc]

end Seek

/-- A key whose leading field holds strings starts with one. -/
theorem Key.OfKinds.exists_bytes {types : List FieldType} (htype : types.head? = some .string)
    {key : Key} (h : Key.OfKinds types key) : ∃ bytes rest, key = .bytes bytes :: rest := by
  cases h with
  | nil => simp at htype
  | @cons type part types key hpart _ =>
    obtain rfl : type = .string := Option.some.inj htype
    cases part with
    | up w => cases hpart.1
    | down w => cases hpart.1
    | bytes bytes => exact ⟨bytes, key, rfl⟩

/-- Keys with a leading string are ordered by it first. -/
theorem Key.leadingBytes_mono {types : List FieldType} (htype : types.head? = some .string)
    {a b : Key} (ha : Key.OfKinds types a) (hb : Key.OfKinds types b) (hle : compare a b ≠ .gt) :
    compare a.leadingBytes b.leadingBytes ≠ .gt := by
  obtain ⟨x, a, rfl⟩ := ha.exists_bytes htype
  obtain ⟨y, b, rfl⟩ := hb.exists_bytes htype
  rw [compare_cons, KeyPart.compare_bytes] at hle
  show compare x y ≠ .gt
  intro h
  rw [h] at hle
  exact hle rfl

/-- The leading part of a key that starts with a string. -/
theorem Key.compareOn_bytes {types : List FieldType} (htype : types.head? = some .string)
    {key : Key} (h : Key.OfKinds types key) (bytes : Bytes) :
    key.compareOn [.bytes bytes] = compare key.leadingBytes bytes := by
  obtain ⟨x, rest, rfl⟩ := h.exists_bytes htype
  rw [Key.compareOn, Key.compareOn_nil, KeyPart.compare_bytes]
  show (compare x bytes).then .eq = compare x bytes
  cases compare x bytes <;> rfl

namespace Seek

variable {seek : Seek} {records : Records}

/-- Once a scan has gone beyond its bytes, it stays beyond. -/
theorem beyond_mono {bytes : Bytes} (h : seek.startsWith? = some bytes)
    (htype : seek.keyTypes.head? = some .string) {a b : Key} (ha : Key.OfKinds seek.keyTypes a)
    (hb : Key.OfKinds seek.keyTypes b) (hab : seek.precedes a b = true)
    (hbeyond : seek.reach a = .beyond) : seek.reach b = .beyond := by
  rw [reach_eq_beyond h] at hbeyond ⊢
  obtain ⟨hstarts, hside⟩ := hbeyond
  unfold precedes at hab
  cases hd : seek.order.isDescending with
  | false =>
    simp only [hd, Bool.false_eq_true, if_false, beq_iff_eq] at hab hside ⊢
    have hle := Key.leadingBytes_mono htype ha hb (by rw [hab]; nofun)
    have hpast : compare b.leadingBytes bytes ≠ .lt :=
      compare_ne_lt_iff.2 (compare_ne_gt_trans (compare_ne_lt_iff.1 hside) hle)
    refine ⟨?_, hpast⟩
    rw [← Bool.not_eq_true] at hstarts ⊢
    exact fun hp => hstarts (Bytes.isPrefixOf_of_between hside hle hp)
  | true =>
    simp only [hd, if_true, beq_iff_eq] at hab hside ⊢
    have hle := Key.leadingBytes_mono htype hb ha (by rw [hab]; nofun)
    refine ⟨?_, compare_ne_gt_trans hle hside⟩
    rw [← Bool.not_eq_true] at hstarts ⊢
    intro hp
    have hlow : compare b.leadingBytes bytes ≠ .lt := (Bytes.isPrefixOf_iff.1 hp).1
    have hlow' : compare a.leadingBytes bytes ≠ .lt :=
      compare_ne_lt_iff.2 (compare_ne_gt_trans (compare_ne_lt_iff.1 hlow) hle)
    exact hstarts (Bytes.isPrefixOf_of_between hlow' hside (List.isPrefixOf_iff_prefix.2 (List.prefix_refl _)))

/-- A scan whose seed has no more parts than there are key fields, and that asks for leading bytes only
of a string. -/
structure Proper (seek : Seek) : Prop where
  length : seek.seed.length ≤ seek.keyTypes.length
  leading : seek.startsWith?.isSome = true → seek.keyTypes.head? = some .string

/-- Whether a key satisfies the order of a scan against its seed. An empty seed admits every key. -/
def admitsSeed (seek : Seek) (key : Key) : Bool :=
  seek.seed.isEmpty || seek.order.admits (key.compareOn seek.seed)

/-- Whether a key starts with the leading bytes that a scan asks for. -/
def admitsLeading (seek : Seek) (key : Key) : Bool :=
  seek.startsWith?.all (·.isPrefixOf key.leadingBytes)

/-- Whether a key is still to come, once the leading bytes are set aside: behind the position of the
scan or, at the start, admitted by its seed. -/
def isBehind (seek : Seek) (key : Key) : Bool :=
  match seek.last? with
  | some last => seek.precedes last key
  | none => seek.admitsSeed key

/-- An upward scan starts at the keys that lie neither before its seed nor before its bytes. -/
theorem lowerBound_iff (hp : seek.Proper) {key : Key} (hkey : Key.OfKinds seek.keyTypes key) :
    compare seek.lowerBound key ≠ .gt ↔ key.compareOn seek.seed ≠ .lt ∧
      ∀ bytes, seek.startsWith? = some bytes → compare key.leadingBytes bytes ≠ .lt := by
  have hseed : compare (Key.pad seek.keyTypes seek.seed) key ≠ .gt ↔
      key.compareOn seek.seed ≠ .lt := not_congr (Key.compare_pad hkey hp.length)
  unfold lowerBound
  cases hstart : seek.startsWith? with
  | none => simp [hseed]
  | some bytes =>
    have htype := hp.leading (by rw [hstart]; rfl)
    have hpos : 0 < seek.keyTypes.length := by
      cases hk : seek.keyTypes with
      | nil => simp [hk] at htype
      | cons => exact Nat.succ_pos _
    have hbytes : compare (Key.pad seek.keyTypes [.bytes bytes]) key ≠ .gt ↔
        compare key.leadingBytes bytes ≠ .lt := by
      rw [ne_eq, Key.compare_pad hkey (show [KeyPart.bytes bytes].length ≤ _ from hpos),
        Key.compareOn_bytes htype hkey]
    have hall : (∀ bytes', some bytes = some bytes' → compare key.leadingBytes bytes' ≠ .lt) ↔
        compare key.leadingBytes bytes ≠ .lt := by simp
    rw [hall, ← hseed, ← hbytes]
    dsimp only
    -- The greater of the two bounds is not above the key exactly if neither is.
    split
    · next hgt =>
      rw [beq_iff_eq] at hgt
      refine ⟨fun h => ⟨h, ?_⟩, And.left⟩
      have hlt := Std.OrientedCmp.lt_of_gt hgt
      exact compare_ne_gt_trans (by rw [hlt]; nofun) h
    · next hle =>
      rw [beq_iff_eq] at hle
      exact ⟨fun h => ⟨compare_ne_gt_trans hle h, h⟩, And.right⟩

/-- Whether a key is a candidate: still to come and, at the start of an upward scan, not before the
leading bytes. -/
def isCandidate (seek : Seek) (key : Key) : Bool :=
  seek.isBehind key && (seek.last?.isSome || seek.order.isDescending ||
    seek.startsWith?.all fun bytes => compare key.leadingBytes bytes != .lt)

/-- What an upward scan without a position drops at its front is its seed. -/
theorem isCandidate_up (hp : seek.Proper) (hlast : seek.last? = none)
    (hd : seek.order.isDescending = false) {key : Key} (hkey : Key.OfKinds seek.keyTypes key) :
    (compare seek.lowerBound key != .gt && !(seek.excludesSeed && key.compareOn seek.seed == .eq)) =
      seek.isCandidate key := by
  have hbound : (compare seek.lowerBound key != .gt) = (key.compareOn seek.seed != .lt &&
      seek.startsWith?.all fun bytes => compare key.leadingBytes bytes != .lt) := by
    rw [Bool.eq_iff_iff, Bool.and_eq_true, bne_iff_ne, bne_iff_ne, lowerBound_iff hp hkey]
    cases seek.startsWith? <;> simp
  rw [hbound]
  unfold isCandidate isBehind admitsSeed excludesSeed
  rw [hlast, hd]
  generalize (seek.startsWith?.all fun bytes => compare key.leadingBytes bytes != .lt) = leading
  cases hseed : seek.seed with
  | nil => simp
  | cons part seed =>
    simp only [ScanOrder.admits_up hd, List.isEmpty_cons, Bool.not_false, Bool.and_true,
      Bool.false_or, Option.isSome_none]
    rw [Bool.and_right_comm]

/-- What a downward scan without a position drops at its front lies before its seed, or is its
seed. -/
theorem isCandidate_down (hlast : seek.last? = none) (hd : seek.order.isDescending = true)
    (key : Key) : (!(key.compareOn seek.seed == .gt ||
      (seek.excludesSeed && key.compareOn seek.seed == .eq))) = seek.isCandidate key := by
  unfold isCandidate isBehind admitsSeed excludesSeed
  rw [hlast, hd]
  cases hseed : seek.seed with
  | nil => simp
  | cons part seed => simp [ScanOrder.admits_down hd]

/-- A scan takes its candidates in its order. -/
theorem candidates_eq (hp : seek.Proper)
    (hkinds : ∀ e ∈ records.entries, Key.OfKinds seek.keyTypes e.1) :
    seek.candidates records =
      (seek.order.arrange records).filter fun e => seek.isCandidate e.1 := by
  unfold candidates ScanOrder.arrange
  cases hlast : seek.last? with
  | some last =>
    unfold isCandidate isBehind precedes
    rw [hlast]
    cases seek.order.isDescending <;> simp
  | none =>
    cases hd : seek.order.isDescending with
    | false =>
      dsimp only
      rw [dropWhile_eq_filter, List.filter_filter]
      · refine List.filter_congr fun e he => ?_
        rw [← isCandidate_up hp hlast hd (hkinds e he), Bool.and_comm]
      · -- Of the keys that are not before the seed, the seed comes first.
        refine List.Pairwise.imp_of_mem ?_ (records.sorted.filter _)
        intro a b ha hb hlt hdrop
        rw [Bool.and_eq_true, beq_iff_eq] at hdrop ⊢
        refine ⟨hdrop.1, ?_⟩
        obtain ⟨ha, hbound⟩ := List.mem_filter.1 ha
        rw [bne_iff_ne, lowerBound_iff hp (hkinds a ha)] at hbound
        cases hc : a.1.compareOn seek.seed with
        | lt => exact absurd hc hbound.1
        | eq => rfl
        | gt =>
          have hgt := Key.compareOn_gt_mono (by rw [hlt]; nofun) hc
          rw [hdrop.2] at hgt
          cases hgt
    | true =>
      dsimp only
      rw [dropWhile_eq_filter]
      · refine List.filter_congr fun e _ => ?_
        rw [← isCandidate_down hlast hd]
      · rw [List.pairwise_reverse]
        refine List.Pairwise.imp_of_mem ?_ records.sorted
        intro a b ha hb hlt hdrop
        have hle : compare a.1 b.1 ≠ .gt := by
          rw [hlt]
          nofun
        rw [Bool.or_eq_true, beq_iff_eq, Bool.and_eq_true, beq_iff_eq] at hdrop ⊢
        rcases hdrop with hgt | ⟨hx, heq⟩
        · exact .inl (Key.compareOn_gt_mono hle hgt)
        · cases hc : b.1.compareOn seek.seed with
          | lt =>
            have hlt := Key.compareOn_lt_mono (hkinds a ha) (hkinds b hb) hp.length hle hc
            rw [heq] at hlt
            cases hlt
          | eq => exact .inr ⟨hx, rfl⟩
          | gt => exact .inl rfl

/-- Whether a key is due: still to come, and starting with the leading bytes. -/
def isDue (seek : Seek) (key : Key) : Bool := seek.isBehind key && seek.admitsLeading key

theorem reach_eq_admitsLeading (seek : Seek) (key : Key) :
    (seek.reach key == .within) = seek.admitsLeading key := by
  unfold admitsLeading
  cases hstart : seek.startsWith? with
  | none =>
    unfold reach
    rw [hstart]
    rfl
  | some bytes => exact reach_eq_within hstart key

/-- What is left to a scan are the keys that are due, in its order: it never ends too early. -/
theorem remaining_eq_filter (hp : seek.Proper)
    (hkinds : ∀ e ∈ records.entries, Key.OfKinds seek.keyTypes e.1) :
    seek.remaining records = (seek.order.arrange records).filter fun e => seek.isDue e.1 := by
  have hkinds' : ∀ e ∈ seek.order.arrange records, Key.OfKinds seek.keyTypes e.1 :=
    fun e he => hkinds e (ScanOrder.mem_arrange.1 he)
  have hbeyond : (seek.candidates records).Pairwise
      fun a b => seek.reach a.1 = .beyond → seek.reach b.1 = .beyond := by
    rw [candidates_eq hp hkinds]
    refine List.Pairwise.filter _ (List.Pairwise.imp_of_mem ?_ pairwise_arrange)
    intro a b ha hb hab hreach
    cases hstart : seek.startsWith? with
    | none =>
      unfold reach at hreach
      rw [hstart] at hreach
      cases hreach
    | some bytes =>
      have htype := hp.leading (by rw [hstart]; rfl)
      exact beyond_mono hstart htype (hkinds' a ha) (hkinds' b hb) hab hreach
  unfold remaining
  rw [visits_eq_filter hbeyond, candidates_eq hp hkinds, List.filter_filter]
  refine List.filter_congr fun e _ => ?_
  rw [reach_eq_admitsLeading]
  unfold isDue isCandidate
  cases hleading : seek.admitsLeading e.1 with
  | false => rw [Bool.false_and, Bool.and_false]
  | true =>
    -- What starts with the leading bytes does not lie before them.
    have hnotBefore : (seek.startsWith?.all fun bytes => compare e.1.leadingBytes bytes != .lt) =
        true := by
      unfold admitsLeading at hleading
      rw [Option.all_eq_true] at hleading ⊢
      intro bytes hbytes
      rw [bne_iff_ne]
      exact (Bytes.isPrefixOf_iff.1 (hleading bytes hbytes)).1
    rw [hnotBefore, Bool.or_true, Bool.and_true, Bool.true_and]

theorem Fresh.proper (hf : seek.Fresh) : seek.Proper :=
  ⟨hf.length, fun hstart => (hf.leading hstart).2⟩

/-- What is left to a scan at its start: the records that it admits, in its order. -/
theorem remaining_of_fresh (hf : seek.Fresh)
    (hkinds : ∀ e ∈ records.entries, Key.OfKinds seek.keyTypes e.1) :
    seek.remaining records = (seek.order.arrange records).filter fun e => seek.admits e.1 := by
  rw [remaining_eq_filter hf.proper hkinds]
  refine List.filter_congr fun e _ => ?_
  unfold isDue isBehind admitsSeed admitsLeading admits Key.isBefore
  rw [hf.last]
  congr 1
  cases hseed : seek.seed with
  | nil => cases seek.order.isDescending <;> simp
  | cons part seed => exact ScanOrder.admits_inclusive hf.inclusive _

end Seek
end RowStore
