/-
# Cursors for leading bytes

Leading bytes keep every other bound off the leading key, so the scan has no seed and reaches exactly
the records whose leading key starts with the bytes. The predicate on the leading bytes passes all of
these, and no other predicate is on the leading key, so the scan does not stop at one of them. A cursor
for leading bytes finds exactly the rows whose leading key starts with them and that the predicates on
fields pass, each once, in the order of the scan, whatever the order and the termination are.

Key definitions: `CriteriaSet.fieldsPass`, `CriteriaSet.leads`.
Key theorems: `Client.Cursor.Opened.drains_of_not_splits`, `Client.drains_leading`.
-/
import RowStore.Proofs.Client.Stopping

namespace RowStore

namespace CriteriaSet

variable {criteria : CriteriaSet} {schema : Schema} {predicates : List Predicate}

/-- Whether every predicate that a constraint on a field compiles to passes the record. -/
def fieldsPass (criteria : CriteriaSet) (schema : Schema) (record : Record) : Bool :=
  schema.fields.all fun field =>
    (criteria.get? field.name).all fun criterion =>
      match Predicate.compile field criterion criteria.order
          ((schema.leading?.map (·.name)) == some field.name) with
      | .ok predicate => predicate.judgeRecord schema.fields record == .pass
      | .error _ => false

theorem fieldsPass_iff {record : Record} : criteria.fieldsPass schema record = true ↔
    ∀ field ∈ schema.fields, ∀ criterion, criteria.get? field.name = some criterion →
      ∃ predicate, Predicate.compile field criterion criteria.order
          ((schema.leading?.map (·.name)) == some field.name) = .ok predicate ∧
        predicate.judgeRecord schema.fields record = .pass := by
  unfold fieldsPass
  rw [List.all_eq_true]
  refine forall₂_congr fun field _ => ?_
  cases criteria.get? field.name with
  | none => simp
  | some criterion =>
    simp only [Option.all_some, Option.some.injEq, forall_eq']
    split <;> rename_i hcompile <;> simp [hcompile]

/-- The records whose leading key starts with the bytes and that the predicates on fields pass, in the
order of the scan. -/
def leads (criteria : CriteriaSet) (schema : Schema) (bytes : Bytes) (records : Records) :
    List (Key × Record) :=
  (criteria.order.arrange records).filter fun e =>
    bytes.isPrefixOf e.1.leadingBytes && criteria.fieldsPass schema e.2

theorem mem_leads {bytes : Bytes} {records : Records} {e : Key × Record} :
    e ∈ criteria.leads schema bytes records ↔ e ∈ records.entries ∧
      bytes.isPrefixOf e.1.leadingBytes = true ∧ criteria.fieldsPass schema e.2 = true := by
  rw [leads, List.mem_filter, ScanOrder.mem_arrange, Bool.and_eq_true]

/-- Keys come one after the other, from low to high or from high to low. -/
theorem pairwise_leads (criteria : CriteriaSet) (schema : Schema) (bytes : Bytes)
    (records : Records) : (criteria.leads schema bytes records).Pairwise fun a b =>
      if criteria.order.isDescending then compare b.1 a.1 = .lt else compare a.1 b.1 = .lt := by
  have harrange : (criteria.order.arrange records).Pairwise fun a b =>
      if criteria.order.isDescending then compare b.1 a.1 = .lt else compare a.1 b.1 = .lt := by
    unfold ScanOrder.arrange
    split
    · rw [List.pairwise_reverse]
      exact records.sorted
    · exact records.sorted
  exact harrange.filter _

/-- With leading bytes, a scan reaches the keys that start with them. -/
theorem Compiled.reaches_of_startsWith (hc : criteria.Compiled schema predicates) {bytes : Bytes}
    (hbytes : criteria.startsWith? = some bytes) (key : Key) :
    criteria.reaches schema key = bytes.isPrefixOf key.leadingBytes := by
  have hnil := (hc.startKey_eq_nil (by rw [hbytes]; rfl)).2
  unfold reaches
  rw [hnil, isBefore_nil, hbytes]
  rfl

/-- With leading bytes, nothing is asked of the leading field besides, so no records are split. -/
theorem Compiled.not_splits (hc : criteria.Compiled schema predicates) {bytes : Bytes}
    (hbytes : criteria.startsWith? = some bytes) (a b : Record) : ¬ criteria.Splits schema a b := by
  rintro ⟨field, criterion, bound, reversed, v, w, hleading, -, hget, -⟩
  obtain ⟨field', predicate, hleading', hnone, -⟩ := hc.start bytes hbytes
  rw [hleading, Option.some.injEq] at hleading'
  rw [← hleading', hget] at hnone
  cases hnone

end CriteriaSet

namespace Client

section

variable {db : Database} {stored : Engine.Database} {criteria : CriteriaSet} {cursor : Cursor}
  {world : World}

/-- The predicates of criteria with leading bytes pass the records of the database that have the
leading bytes and that the predicates on fields pass. -/
theorem Database.Ready.passes_iff_leads (hr : db.Ready world stored) {predicates : List Predicate}
    (hc : criteria.Compiled db.schema predicates) {bytes : Bytes}
    (hbytes : criteria.startsWith? = some bytes) {e : Key × Record}
    (he : e ∈ stored.records.entries) :
    passes predicates stored.fields e.2 = true ↔
      bytes.isPrefixOf e.1.leadingBytes = true ∧
        criteria.fieldsPass db.schema e.2 = true := by
  rw [passes_iff, CriteriaSet.fieldsPass_iff, ← hr.fields]
  constructor
  · intro hpass
    refine ⟨?_, fun field hfield criterion hget => ?_⟩
    · obtain ⟨field, predicate, hleading, -, hstart, hm⟩ := hc.start bytes hbytes
      exact (hr.judge_start hleading hstart he).1 (hpass predicate hm)
    · rw [hr.fields] at hfield
      obtain ⟨predicate, hcompile, hall | hm⟩ := hc.field field hfield criterion hget
      · exact ⟨predicate, hcompile, Predicate.judgeRecord_all hall _ _⟩
      · exact ⟨predicate, hcompile, hpass predicate hm⟩
  · rintro ⟨hleads, hfields⟩ predicate hm
    rcases hc.only predicate hm with ⟨bytes', field, hbytes', hleading, hstart⟩ |
      ⟨field, hfield, criterion, hget, hcompile⟩
    · obtain rfl : bytes' = bytes := Option.some.inj (hbytes'.symm.trans hbytes)
      exact (hr.judge_start hleading hstart he).2 hleads
    · rw [← hr.fields] at hfield
      obtain ⟨predicate', hcompile', hpass⟩ := hfields field hfield criterion hget
      obtain rfl : predicate' = predicate := Except.ok.inj (hcompile'.symm.trans hcompile)
      exact hpass

/-- Where no records are split, a cursor finds all that it reaches and that its predicates pass, under
either termination. -/
theorem Cursor.Opened.drains_of_not_splits (hr : db.Ready world stored)
    (ho : cursor.Opened db criteria world)
    (hnot : ∀ a ∈ stored.records.entries, ∀ b ∈ stored.records.entries,
      ¬ criteria.Splits db.schema a.2 b.2) :
    cursor.Drains world (((criteria.reached db.schema stored.records).filter fun e =>
      passes cursor.predicates stored.fields e.2).map fun e => stored.rowOf db.handle e.2) := by
  have hsift : sift (cursor.verdict stored.fields) (criteria.reached db.schema stored.records) =
      (criteria.reached db.schema stored.records).filter fun e =>
        passes cursor.predicates stored.fields e.2 := by
    refine Cursor.sift_verdict_eq_filter ((criteria.pairwise_reached db.schema stored.records
      db.handle).imp_of_mem fun {a b} ha hb hab hstop => ?_)
    by_contra hpass
    rw [Bool.not_eq_false] at hpass
    have hb := (CriteriaSet.mem_reached.1 hb).1
    exact hnot a (CriteriaSet.mem_reached.1 ha).1 b hb
      (ho.splits_of_stop hr ha hb hab hstop hpass)
  rw [← hsift]
  exact ho.drains hr

/-- A cursor for leading bytes finds the rows whose leading key starts with them and that the
predicates on fields pass, in strict key order, so each once; among them that whose leading key is
the bytes. -/
theorem drains_leading {cursor : Cursor} {before after : World} {bytes : Bytes}
    (hr : db.Ready before stored) (hbytes : criteria.startsWith? = some bytes)
    (hopen : (db.openCursor criteria).run before = (.ok cursor, after)) :
    cursor.Drains after ((criteria.leads db.schema bytes stored.records).map fun e =>
        stored.rowOf db.handle e.2) ∧
      ((criteria.leads db.schema bytes stored.records).Pairwise fun a b =>
        if criteria.order.isDescending then compare b.1 a.1 = .lt else compare a.1 b.1 = .lt) ∧
      ∀ e ∈ stored.records.entries, e.1.leadingBytes = bytes →
        criteria.fieldsPass db.schema e.2 = true →
          e ∈ criteria.leads db.schema bytes stored.records := by
  obtain ⟨hready, hopened⟩ := db.opened_of_openCursor hr hopen
  have hfound : (criteria.reached db.schema stored.records).filter
        (fun e => passes cursor.predicates stored.fields e.2) =
      criteria.leads db.schema bytes stored.records := by
    rw [CriteriaSet.reached, CriteriaSet.leads, List.filter_filter]
    refine List.filter_congr fun e he => ?_
    have hpasses := hready.passes_iff_leads hopened.compiled hbytes (ScanOrder.mem_arrange.1 he)
    rw [hopened.compiled.reaches_of_startsWith hbytes, Bool.eq_iff_iff, Bool.and_eq_true,
      Bool.and_eq_true, hpasses]
    exact and_iff_left_of_imp And.left
  refine ⟨?_, criteria.pairwise_leads db.schema bytes stored.records, ?_⟩
  · rw [← hfound]
    exact hopened.drains_of_not_splits hready fun a _ b _ =>
      hopened.compiled.not_splits hbytes a.2 b.2
  · intro e he hkey hpass
    refine CriteriaSet.mem_leads.2 ⟨he, ?_, hpass⟩
    rw [hkey, List.isPrefixOf_iff_prefix]

end

/-! ### A database of words on pages -/

namespace Words

/-- The schema of a database of words: a word, and the page that it is on. -/
def schema : Schema := { keys := [⟨"word", .string, true⟩, ⟨"page", .int .four false, true⟩] }

/-- A database of words. -/
def database : Database where
  env := 1
  handle := 2
  name := "words"
  schema := schema
  termination := .early
  token? := none

/-- The world with the database declared in a new environment. -/
def declared : World where
  engine := {
    objects := {
      issued := 2
      table := Table.ofList [(1, .environment { databases := Table.ofList [("words", 2)] }),
        (2, .database { env := 1, name := "words", fields := schema.fields })] } }
  calls := [⟨.flag, .declare 1 "words" schema.fields⟩, ⟨.handle, .newEnvironment⟩]
  links := Table.ofList [(1, { cache := .ofPolicy .static })]

theorem reachable_declared : declared.Reachable := by
  have h : declared = (call (.declare 1 "words" schema.fields)
      ((call .newEnvironment {}).2.setLink 1 { cache := .ofPolicy .static })).2 := by
    show _ = (World.reach _ (.declare 1 "words" schema.fields)).2
    unfold World.reach Engine.step
    dsimp only
    unfold Engine.declare Engine.Objects.declare
    rw [show ("words".isEmpty || "words".contains '.') = false by simp]
    rfl
  rw [h]
  exact ((World.Reachable.start.call _).create _ _).call _

/-- The world after a word was put into the database. -/
def insert (world : World) (word : Bytes) (page : UInt64) : World :=
  let row := world.engine.objects.issued + 1
  (call (.put 2 row) (call (.setWord row "page" page) (call (.setBytes row "word" word)
    (call (.newRow 2) world).2).2).2).2

/-- The environment opened, and four words in the database, two of them the same one. -/
def world : World :=
  insert (insert (insert (insert (call (.openEnvironment 1) declared).2 [0xff, 0xff] 1) [0xff] 7)
    [0xfe] 4) [0xff] 3

theorem reachable_insert {world : World} (hr : world.Reachable) (word : Bytes) (page : UInt64) :
    (insert world word page).Reachable :=
  (((hr.call _).call _).call _).call _

theorem reachable_world : world.Reachable :=
  reachable_insert (reachable_insert (reachable_insert (reachable_insert
    (reachable_declared.call _) _ _) _ _) _ _) _ _

/-- The database as the engine has it. -/
def stored : Engine.Database where
  env := 1
  name := "words"
  fields := schema.fields
  records := ⟨[([.bytes [0xfe], .up 4], [.bytes [0xfe], .word 4]),
    ([.bytes [0xff], .up 3], [.bytes [0xff], .word 3]),
    ([.bytes [0xff], .up 7], [.bytes [0xff], .word 7]),
    ([.bytes [0xff, 0xff], .up 1], [.bytes [0xff, 0xff], .word 1])], by decide⟩

theorem ready : database.Ready world stored where
  serves := ⟨reachable_world, rfl, rfl⟩
  opened := rfl
  found := rfl
  env := rfl
  fields := rfl
  wellFormed := ⟨by decide, by decide, by decide, by decide, by decide⟩
  keyed := by
    show ∀ e ∈ [_, _, _, _], _
    simp only [List.forall_mem_cons, List.not_mem_nil, false_implies, implies_true, and_true]
    exact ⟨.cons rfl (.cons rfl .nil), .cons rfl (.cons rfl .nil), .cons rfl (.cons rfl .nil),
      .cons rfl (.cons rfl .nil)⟩

/-- The words that start with the greatest byte, on pages up to 5, from the last one. -/
def lastEarly : CriteriaSet where
  fields := [("page", .between none (some (.uint 5)))]
  order? := some .lte
  startsWith? := some [0xff]

/-- Two of the words that start with the greatest byte are on pages up to 5. -/
theorem drains_lastEarly : ∃ cursor after,
    (database.openCursor lastEarly).run world = (.ok cursor, after) ∧
      cursor.Drains after [stored.rowOf database.handle [.bytes [0xff, 0xff], .word 1],
        stored.rowOf database.handle [.bytes [0xff], .word 3]] := by
  have hbytes : lastEarly.startsWith? = some [0xff] := rfl
  obtain ⟨hdrains, -, -⟩ := drains_leading ready hbytes rfl
  exact ⟨_, _, rfl, hdrains⟩

end Words

end Client
end RowStore
