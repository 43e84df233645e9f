/-
# Criteria that fit a schema

The builder lets a field be constrained once, under a name that is not reserved, and two bounds only if
one signedness holds both. Such criteria compile over a schema exactly if they fit it: all constrained
fields are known, leading bytes are asked for only if the leading key is a string and not constrained, and
every value is of the kind of its field. If they do not, the failure is one of the misfits.

Key definitions: `CriteriaSet.Fair`, `CriteriaSet.Misfits`, `CriteriaSet.predicates`.
Key theorems: `CriteriaSet.fair_of_build`, `CriteriaSet.Fair.misfits_of_predicates`,
`CriteriaSet.Fair.not_misfits_of_predicates`.
-/
import RowStore.Data.Schema
import RowStore.Proofs.Scan.Ranges

namespace RowStore

/-! ### Checks that fail -/

theorem bind_eq_error {ε α β : Type} {x : Except ε α} {f : α → Except ε β} {e : ε} :
    (x >>= f) = .error e ↔ x = .error e ∨ ∃ a, x = .ok a ∧ f a = .error e := by
  cases x with
  | error e' => simp [bind, Except.bind]
  | ok a => simp [bind, Except.bind]

/-- A check of a list fails as the check of one of its elements does. -/
theorem forM_eq_error {ε α : Type} {f : α → Except ε Unit} {e : ε} : ∀ {l : List α},
    l.forM f = .error e → ∃ a ∈ l, f a = .error e
  | a :: l, h => by
    rcases bind_eq_error.1 h with h | ⟨⟨⟩, -, h⟩
    · exact ⟨a, List.mem_cons_self, h⟩
    · obtain ⟨b, hm, hb⟩ := forM_eq_error h
      exact ⟨b, List.mem_cons_of_mem a hm, hb⟩

theorem mapM_eq_error {ε α β : Type} {f : α → Except ε β} {e : ε} : ∀ {l : List α},
    l.mapM f = .error e → ∃ a ∈ l, f a = .error e
  | [], h => by cases h
  | a :: l, h => by
    rw [List.mapM_cons] at h
    rcases bind_eq_error.1 h with h | ⟨b, -, h⟩
    · exact ⟨a, List.mem_cons_self, h⟩
    rcases bind_eq_error.1 h with h | ⟨bs, -, h⟩
    · obtain ⟨a', hm, ha'⟩ := mapM_eq_error h
      exact ⟨a', List.mem_cons_of_mem a hm, ha'⟩
    · cases h

namespace Predicate

variable {field : Field} {criterion : Criterion} {order : ScanOrder} {leading : Bool}
  {failure : Failure}

theorem checkKind_eq_error {kind : ValueKind} (h : checkKind field kind = .error failure) :
    (kind == .str) ≠ field.type.isString ∧ failure = .mismatch field.name field.type kind := by
  unfold checkKind at h
  split at h
  · cases h
  · next hne =>
    cases h
    exact ⟨fun heq => hne (beq_iff_eq.2 heq.symm), rfl⟩

/-- If its bounds are comparable, a criterion fails to compile only because one of them is not of the kind
of the field. -/
theorem compile_eq_error
    (hcomparable : Value.Comparable (criterion.bounds.1.toList ++ criterion.bounds.2.toList))
    (h : compile field criterion order leading = .error failure) :
    ∃ value ∈ criterion.bounds.1.toList ++ criterion.bounds.2.toList,
      (value.kind == .str) ≠ field.type.isString ∧
        failure = .mismatch field.name field.type value.kind := by
  unfold compile at h
  dsimp only at h
  rcases bind_eq_error.1 h with h | ⟨⟨⟩, hcheck, h⟩
  · obtain ⟨value, hm, hvalue⟩ := forM_eq_error h
    exact ⟨value, hm, checkKind_eq_error hvalue⟩
  · have hkinds : ∀ value ∈ criterion.bounds.1.toList ++ criterion.bounds.2.toList,
        (value.kind == .str) = field.type.isString := fun value hm =>
      checkKind_eq_ok.1 (forM_eq_ok.1 hcheck value hm)
    obtain ⟨test, htest⟩ := (exists_testBetween_iff hkinds).2 hcomparable
    rw [htest] at h
    cases h

end Predicate

theorem Schema.field?_isNone_iff {schema : Schema} {name : String} :
    (schema.field? name).isNone = true ↔ ∀ field ∈ schema.fields, field.name ≠ name := by
  unfold Schema.field?
  rw [Option.isNone_iff_eq_none, List.find?_eq_none]
  simp only [beq_iff_eq, ne_eq]

namespace CriteriaSet

variable {criteria criteria' : CriteriaSet} {schema : Schema} {failure : Failure}

/-! ### What the builder makes sure of -/

/-- Criteria that constrain each field once, none under a reserved name, by bounds that are comparable. -/
structure Fair (criteria : CriteriaSet) : Prop where
  distinct : (criteria.fields.map (·.1)).Nodup
  proper : ∀ e ∈ criteria.fields, e.1 ≠ orderField ∧ e.1 ≠ prefixField
  comparable : ∀ e ∈ criteria.fields,
    Value.Comparable (e.2.bounds.1.toList ++ e.2.bounds.2.toList)

theorem isSome_get?_iff {name : String} :
    (criteria.get? name).isSome = true ↔ ∃ criterion, (name, criterion) ∈ criteria.fields := by
  unfold get?
  rw [Option.isSome_map, List.find?_isSome]
  constructor
  · rintro ⟨⟨_, criterion⟩, hm, hname⟩
    obtain rfl := eq_of_beq hname
    exact ⟨criterion, hm⟩
  · rintro ⟨criterion, hm⟩
    exact ⟨_, hm, beq_self_eq_true name⟩

/-- What a field is constrained by is among the constraints. -/
theorem mem_of_get? {name : String} {criterion : Criterion}
    (h : criteria.get? name = some criterion) : (name, criterion) ∈ criteria.fields := by
  obtain ⟨⟨other, _⟩, hfind, rfl⟩ := Option.map_eq_some_iff.1 h
  have hname := List.find?_some hfind
  obtain rfl : other = name := eq_of_beq hname
  exact List.mem_of_find?_eq_some hfind

/-- A field is constrained by what is listed for it, if it is listed once. -/
theorem Fair.get?_of_mem (hf : criteria.Fair) {name : String} {criterion : Criterion}
    (hm : (name, criterion) ∈ criteria.fields) : criteria.get? name = some criterion := by
  obtain ⟨other, hother⟩ := Option.isSome_iff_exists.1 (isSome_get?_iff.2 ⟨criterion, hm⟩)
  have heq := List.inj_on_of_nodup_map hf.distinct (mem_of_get? hother) hm rfl
  rw [hother]
  exact congrArg (some ∘ Prod.snd) heq

theorem fair_empty : ({} : CriteriaSet).Fair := ⟨List.nodup_nil, nofun, nofun⟩

theorem Fair.constrain (hf : criteria.Fair) {name : String} (criterion : Criterion)
    (hcomparable : Value.Comparable (criterion.bounds.1.toList ++ criterion.bounds.2.toList))
    (h : criteria.constrain name criterion = .ok criteria') : criteria'.Fair := by
  unfold CriteriaSet.constrain at h
  split at h
  · cases h
  next hreserved =>
  rw [not_or] at hreserved
  split at h
  · cases h
  next hfree =>
  cases h
  refine ⟨?_, ?_, ?_⟩
  · rw [List.map_append, List.map_singleton, List.nodup_append_comm, List.singleton_append,
      List.nodup_cons]
    refine ⟨fun hm => hfree ?_, hf.distinct⟩
    obtain ⟨⟨_, other⟩, hother, rfl⟩ := List.mem_map.1 hm
    exact isSome_get?_iff.2 ⟨other, hother⟩
  · exact List.forall_mem_append.2 ⟨hf.proper, List.forall_mem_singleton.2 hreserved⟩
  · exact List.forall_mem_append.2 ⟨hf.comparable, List.forall_mem_singleton.2 hcomparable⟩

/-- A clause that is let through leaves the criteria fair. -/
theorem Fair.add (hf : criteria.Fair) {clause : Clause} (h : criteria.add clause = .ok criteria') :
    criteria'.Fair := by
  cases clause with
  | equals field value =>
    -- Both bounds are the value, so they are of one signedness.
    refine hf.constrain (.equals value) (fun i u hi hu => ?_) h
    have hi : Value.int i = value := by simpa [Criterion.bounds] using hi
    have hu : Value.uint u = value := by simpa [Criterion.bounds] using hu
    cases hi.trans hu.symm
  | between field low high =>
    cases low with
    | none =>
      exact hf.constrain (.between none high) (Value.comparable_toList high) h
    | some a =>
      cases high with
      | none =>
        exact hf.constrain (.between (some a) none) (Value.comparable_toList (some a)) h
      | some b =>
        obtain ⟨⟨⟩, hcheck, h⟩ := bind_eq_ok.1 h
        exact hf.constrain (.between (some a) (some b)) (checkComparable_eq_ok.1 hcheck).2 h
  | startsWith bytes =>
    change (if _ then _ else _) = _ at h
    split at h
    · cases h
    · cases h
      exact { hf with }
  | order order =>
    change (if _ then _ else _) = _ at h
    split at h
    · cases h
    · cases h
      exact { hf with }
  | termination termination =>
    cases h
    exact { hf with }

theorem Fair.foldlM : ∀ {clauses : List Clause} {criteria : CriteriaSet}, criteria.Fair →
    clauses.foldlM CriteriaSet.add criteria = .ok criteria' → criteria'.Fair
  | [], _, hf, h => by
    cases h
    exact hf
  | clause :: clauses, _, hf, h => by
    rw [List.foldlM_cons] at h
    obtain ⟨middle, hadd, h⟩ := bind_eq_ok.1 h
    exact (hf.add hadd).foldlM h

/-- The criteria that the builder produces are fair. -/
theorem fair_of_build {clauses : List Clause} (h : build clauses = .ok criteria) : criteria.Fair :=
  fair_empty.foldlM h

/-! ### What criteria compile to -/

/-- The ways in which criteria do not fit a schema, by the failures that they cause. -/
inductive Misfits (criteria : CriteriaSet) (schema : Schema) : Failure → Prop where
  /-- A constrained field is not in the schema. -/
  | unknown {name : String} {criterion : Criterion}
    (constrained : (name, criterion) ∈ criteria.fields)
    (unknown : ∀ field ∈ schema.fields, field.name ≠ name) :
    Misfits criteria schema (.unknownField name)
  /-- Leading bytes are asked for, and the leading key is constrained. -/
  | combined {bytes : Bytes} {leading : Field} {criterion : Criterion}
    (starts : criteria.startsWith? = some bytes) (leads : schema.leading? = some leading)
    (constrained : (leading.name, criterion) ∈ criteria.fields) :
    Misfits criteria schema (.invalidOperation
      s!"prefix cannot be combined with criteria on leading key '{leading.name}'")
  /-- Leading bytes are asked for, and the leading key is an integer. -/
  | start {bytes : Bytes} {leading : Field} (starts : criteria.startsWith? = some bytes)
    (leads : schema.leading? = some leading) (integer : leading.type.isString = false) :
    Misfits criteria schema (.mismatch leading.name leading.type .str)
  /-- A value is a string on an integer field, or an integer on a string field. -/
  | value {field : Field} {criterion : Criterion} {value : Value} (known : field ∈ schema.fields)
    (constrained : (field.name, criterion) ∈ criteria.fields)
    (bound : value ∈ criterion.bounds.1.toList ++ criterion.bounds.2.toList)
    (other : (value.kind == .str) ≠ field.type.isString) :
    Misfits criteria schema (.mismatch field.name field.type value.kind)

/-- The predicate on the leading bytes. -/
def startPredicates (criteria : CriteriaSet) (schema : Schema) : Except Failure (List Predicate) :=
  match criteria.startsWith? with
  | none => .ok []
  | some bytes =>
    match schema.leading? with
    | none => .error (.invalidOperation "prefix scan without a key field")
    | some leading =>
      if (criteria.get? leading.name).isSome then
        .error (.invalidOperation
          s!"prefix cannot be combined with criteria on leading key '{leading.name}'")
      else return [← Predicate.startingWith leading bytes criteria.order]

/-- The predicate of a field, if it is constrained. -/
def fieldPredicates (criteria : CriteriaSet) (schema : Schema) (field : Field) :
    Except Failure (List Predicate) :=
  match criteria.get? field.name with
  | none => .ok []
  | some criterion => do
    let predicate ← Predicate.compile field criterion criteria.order
      ((schema.leading?.map (·.name)) == some field.name)
    return if predicate.isUnconstrained then [] else [predicate]

/-- The predicates that criteria compile to over a schema. -/
def predicates (criteria : CriteriaSet) (schema : Schema) : Except Failure (List Predicate) := do
  if let some (field, _) := criteria.fields.find? fun (f, _) => (schema.field? f).isNone then
    throw (.unknownField field)
  let start ← criteria.startPredicates schema
  let rest ← schema.fields.mapM (criteria.fieldPredicates schema)
  return start ++ rest.flatten

/-- The leading bytes fail to compile only because they do not fit, if there is a leading key. -/
theorem misfits_of_startPredicates (hlead : schema.leading?.isSome = true)
    (h : criteria.startPredicates schema = .error failure) : criteria.Misfits schema failure := by
  unfold startPredicates at h
  obtain ⟨leading, hleading⟩ := Option.isSome_iff_exists.1 hlead
  cases hstart : criteria.startsWith? with
  | none =>
    rw [hstart] at h
    cases h
  | some bytes =>
    rw [hstart, hleading] at h
    dsimp only at h
    split at h
    · next hconstrained =>
      cases h
      obtain ⟨criterion, hm⟩ := isSome_get?_iff.1 hconstrained
      exact .combined hstart hleading hm
    · rcases bind_eq_error.1 h with h | ⟨predicate, -, h⟩
      · rcases bind_eq_error.1 h with h | ⟨⟨⟩, -, h⟩
        · obtain ⟨hkind, rfl⟩ := Predicate.checkKind_eq_error h
          exact .start hstart hleading (Bool.eq_false_iff.2 hkind.symm)
        · cases h
      · cases h

/-- A field fails to compile only because one of its bounds does not fit. -/
theorem Fair.misfits_of_fieldPredicates (hf : criteria.Fair) {field : Field}
    (hm : field ∈ schema.fields) (h : criteria.fieldPredicates schema field = .error failure) :
    criteria.Misfits schema failure := by
  unfold fieldPredicates at h
  cases hget : criteria.get? field.name with
  | none =>
    rw [hget] at h
    cases h
  | some criterion =>
    rw [hget] at h
    have hmem := mem_of_get? hget
    rcases bind_eq_error.1 h with h | ⟨predicate, -, h⟩
    · obtain ⟨value, hvalue, hkind, rfl⟩ :=
        Predicate.compile_eq_error (hf.comparable _ hmem) h
      exact .value hm hmem hvalue hkind
    · cases h

/-- Fair criteria fail to compile only because they do not fit. -/
theorem Fair.misfits_of_predicates (hf : criteria.Fair) (hlead : schema.leading?.isSome = true)
    (h : criteria.predicates schema = .error failure) : criteria.Misfits schema failure := by
  unfold predicates at h
  cases hfind : criteria.fields.find? fun (f, _) => (schema.field? f).isNone with
  | some e =>
    rw [hfind] at h
    cases h
    have hunknown := List.find?_some hfind
    exact .unknown (List.mem_of_find?_eq_some hfind) (Schema.field?_isNone_iff.1 hunknown)
  | none =>
    rw [hfind] at h
    rcases bind_eq_error.1 h with h | ⟨start, -, h⟩
    · exact misfits_of_startPredicates hlead h
    rcases bind_eq_error.1 h with h | ⟨rest, -, h⟩
    · obtain ⟨field, hm, hfield⟩ := mapM_eq_error h
      exact hf.misfits_of_fieldPredicates hm hfield
    · cases h

/-- Criteria that compile have no misfits. -/
theorem Fair.not_misfits_of_predicates (hf : criteria.Fair) {predicates : List Predicate}
    (h : criteria.predicates schema = .ok predicates) : ¬criteria.Misfits schema failure := by
  unfold CriteriaSet.predicates at h
  cases hfind : criteria.fields.find? fun (f, _) => (schema.field? f).isNone with
  | some e =>
    rw [hfind] at h
    cases h
  | none =>
  rw [hfind] at h
  obtain ⟨start, hstart, h⟩ := bind_eq_ok.1 h
  obtain ⟨rest, hrest, -⟩ := bind_eq_ok.1 h
  unfold startPredicates at hstart
  intro hmisfits
  cases hmisfits with
  | unknown constrained unknown =>
    exact List.find?_eq_none.1 hfind _ constrained (Schema.field?_isNone_iff.2 unknown)
  | combined starts leads constrained =>
    rw [starts, leads] at hstart
    dsimp only at hstart
    rw [if_pos (isSome_get?_iff.2 ⟨_, constrained⟩)] at hstart
    cases hstart
  | start starts leads integer =>
    rw [starts, leads] at hstart
    dsimp only at hstart
    split at hstart
    · cases hstart
    · obtain ⟨predicate, hpredicate, -⟩ := bind_eq_ok.1 hstart
      rw [(Predicate.startingWith_eq_ok hpredicate).1] at integer
      cases integer
  | @value field criterion value known constrained bound other =>
    obtain ⟨i, hi, rfl⟩ := List.getElem_of_mem known
    have hall := mapM_eq_ok_iff.1 hrest
    have hfield := hall.get hi (hall.length_eq ▸ hi)
    change criteria.fieldPredicates schema schema.fields[i] = _ at hfield
    unfold fieldPredicates at hfield
    rw [hf.get?_of_mem constrained] at hfield
    obtain ⟨predicate, hcompile, -⟩ := bind_eq_ok.1 hfield
    exact other ((Predicate.exists_compile_iff.1 ⟨predicate, hcompile⟩).1 value bound)

end CriteriaSet
end RowStore
