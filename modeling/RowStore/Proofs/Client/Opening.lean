/-
# Opening a cursor

A cursor that opens has compiled the criteria and has a seed row that holds the order, the leading
bytes and, in the fields that the scan starts from a bound in, the cells of the bounds. The scan that
the seed row asks the engine for starts at the seed of the criteria. Nothing that was there before
has changed.

Key definitions: `Schema.WellFormed`, `Client.Database.Ready`, `CriteriaSet.Compiled`,
`Client.SeedRow`, `Client.Cursor.Opened`.
Key theorems: `Client.Database.opened_of_openCursor`, `Client.SeedRow.seek_eq`.
-/
import RowStore.Proofs.Client.Rows
import RowStore.Proofs.Engine.Fetching

namespace RowStore

/-- Key fields are marked as such and value fields are not; names are distinct, have no NUL, and are
not those of a pseudo-field or of the diagnostic. -/
structure Schema.WellFormed (schema : Schema) : Prop where
  keys : ∀ field ∈ schema.keys, field.isKey = true
  values : ∀ field ∈ schema.values, field.isKey = false
  distinct : (schema.fields.map (·.name)).Nodup
  noNul : ∀ field ∈ schema.fields, '\x00' ∉ field.name.toList
  notReserved : ∀ field ∈ schema.fields, field.name ≠ orderField ∧ field.name ≠ prefixField ∧
    field.name ≠ Engine.diagnosticKey

namespace Schema

variable {schema : Schema}

theorem WellFormed.wellNamed (h : schema.WellFormed) : WellNamed schema.fields where
  nodup := h.distinct
  proper field hm := by
    obtain ⟨horder, hstarts, -⟩ := h.notReserved field hm
    simp [Engine.isPseudoField, horder, hstarts]

/-- The key fields among the fields. -/
theorem WellFormed.filter_isKey (h : schema.WellFormed) :
    schema.fields.filter (·.isKey) = schema.keys := by
  have hkeys : schema.keys.filter (·.isKey) = schema.keys := List.filter_eq_self.2 h.keys
  have hvalues : schema.values.filter (·.isKey) = [] :=
    List.filter_eq_nil_iff.2 fun field hm => by simp [h.values field hm]
  rw [Schema.fields, List.filter_append, hkeys, hvalues, List.append_nil]

end Schema

/-- What the criteria compile to over a schema: a predicate on the leading bytes, if they are asked
for and nothing else of the leading key, and one for every constrained field that it can fail on. -/
structure CriteriaSet.Compiled (criteria : CriteriaSet) (schema : Schema)
    (predicates : List Predicate) : Prop where
  start : ∀ bytes, criteria.startsWith? = some bytes → ∃ field predicate,
    schema.leading? = some field ∧ criteria.get? field.name = none ∧
      Predicate.startingWith field bytes criteria.order = .ok predicate ∧ predicate ∈ predicates
  field : ∀ field ∈ schema.fields, ∀ criterion, criteria.get? field.name = some criterion →
    ∃ predicate, Predicate.compile field criterion criteria.order
        ((schema.leading?.map (·.name)) == some field.name) = .ok predicate ∧
      (predicate.test = .all ∨ predicate ∈ predicates)
  only : ∀ predicate ∈ predicates,
    (∃ bytes field, criteria.startsWith? = some bytes ∧ schema.leading? = some field ∧
      Predicate.startingWith field bytes criteria.order = .ok predicate) ∨
    ∃ field ∈ schema.fields, ∃ criterion, criteria.get? field.name = some criterion ∧
      Predicate.compile field criterion criteria.order
        ((schema.leading?.map (·.name)) == some field.name) = .ok predicate

namespace Client

open Engine (Objects)

/-- A database in the hands of clients, in an opened environment that is free of faults, as the
engine has it: with the fields of its schema, and with records whose key columns equal their key. -/
structure Database.Ready (db : Database) (world : World) (stored : Engine.Database) : Prop where
  serves : world.Serves db.env
  opened : world.engine.objects.ensureOpened db.env = .ok ()
  found : world.engine.objects.database db.handle = .ok stored
  env : stored.env = db.env
  fields : stored.fields = db.schema.fields
  wellFormed : db.schema.WellFormed
  keyed : ∀ e ∈ stored.records.entries, Record.Keyed stored.fields e.1 e.2

/-! ### Seeding -/

/-- The seed row holds `r`, and all else is as it was. -/
structure Seeded (before after : World) (seed : Row) (r : Engine.Row) : Prop where
  follows : before.Follows after
  row : after.engine.objects.table.get? seed.handle = some (.row r)
  others : ∀ h, h ≠ seed.handle →
    after.engine.objects.table.get? h = before.engine.objects.table.get? h

variable {before world world' : World} {seed : Row} {r : Engine.Row} {db : Engine.Database}
  {criteria : CriteriaSet} {schema : Schema}

/-- A cell more in the seed row. -/
theorem Seeded.setCell (hs : Seeded before world seed r) (hf : world.Follows world') {name : String}
    {cell : Cell}
    (h : world'.engine.objects = world.engine.objects.setCell seed.handle r name cell) :
    Seeded before world' seed { r with cells := r.cells.insert name cell } where
  follows := hs.follows.trans hf
  row := by
    rw [h, Objects.setCell, Objects.get?_put, if_pos rfl]
  others h' hne := by
    rw [h, Objects.setCell, Objects.get?_put, if_neg hne]
    exact hs.others h' hne

theorem check_eq_ok {α : Type} {result : Except Failure α} {a : α}
    (h : check result world = (.ok a, world')) : result = .ok a ∧ world' = world := by
  have hpair : (result, world) = (.ok a, world') := h
  cases hpair
  exact ⟨rfl, rfl⟩

/-- What seeding a field compiles to. -/
def FieldCompiles (criteria : CriteriaSet) (schema : Schema) (field : Field)
    (predicates : List Predicate) : Prop :=
  match criteria.get? field.name with
  | none => predicates = []
  | some criterion => ∃ predicate, Predicate.compile field criterion criteria.order
      ((schema.leading?.map (·.name)) == some field.name) = .ok predicate ∧
    predicates = if predicate.isUnconstrained then [] else [predicate]

/-- The cells of a row after the bounds of a field were written to it. -/
def withBound (criteria : CriteriaSet) (field : Field) (r : Engine.Row) : Engine.Row :=
  match criteria.startBound? field with
  | none => r
  | some value => { r with cells := r.cells.insert field.name (value.cellIn field.type) }

@[simp] theorem withBound_db (criteria : CriteriaSet) (field : Field) (r : Engine.Row) :
    (withBound criteria field r).db = r.db := by
  unfold withBound
  split <;> rfl

/-- What the seed row of `before` has to do with the database that it is a row of. -/
theorem Seeded.database (hs : Seeded before world seed r) {d : Handle}
    (hdb : before.engine.objects.table.get? d = some (.database db)) (hne : d ≠ seed.handle) :
    world.engine.objects.table.get? d = some (.database db) :=
  (hs.others d hne).trans hdb

theorem seedField_eq_ok {field : Field} {predicates : List Predicate}
    (hserves : world.Serves seed.env) (hs : Seeded before world seed r)
    (hdb : world.engine.objects.table.get? r.db = some (.database db)) (hw : WellNamed db.fields)
    (hm : field ∈ db.fields) (hname : '\x00' ∉ field.name.toList)
    (h : seedField criteria schema seed field world = (.ok predicates, world')) :
    FieldCompiles criteria schema field predicates ∧
      Seeded before world' seed (withBound criteria field r) := by
  have htame : world.Follows (seedField criteria schema seed field world).2 :=
    (quiet_seedField criteria schema seed field).tame world
  rw [h] at htame
  unfold seedField at h
  unfold FieldCompiles withBound CriteriaSet.startBound?
  cases hget : criteria.get? field.name with
  | none =>
    rw [hget] at h
    have hpair : (Except.ok [], world) = (Except.ok predicates, world') := h
    cases hpair
    exact ⟨rfl, hs⟩
  | some criterion =>
    rw [hget] at h
    dsimp only at h
    obtain ⟨predicate, middle, hcheck, hrest⟩ := bind_eq_ok.1 h
    obtain ⟨hcompile, rfl⟩ := check_eq_ok hcheck
    have hdirection := (Predicate.places_of_compile hcompile).2.2.1
    show (∃ predicate, _ ∧ _) ∧ Seeded before world' seed (match criterion.seed _ with
      | none => r
      | some value => _)
    rw [← hdirection]
    cases hseed : criterion.seed predicate.descending with
    | none =>
      rw [hseed] at hrest
      have hpair : (Except.ok (if predicate.isUnconstrained then [] else [predicate]), middle) =
        (Except.ok predicates, world') := hrest
      cases hpair
      exact ⟨⟨predicate, hcompile, rfl⟩, hs⟩
    | some value =>
      rw [hseed] at hrest
      dsimp only at hrest
      obtain ⟨⟨⟩, after, hset, hanswer⟩ := bind_eq_ok.1 hrest
      have hpair : (Except.ok (if predicate.isUnconstrained then [] else [predicate]), after) =
        (Except.ok predicates, world') := hanswer
      cases hpair
      refine ⟨⟨predicate, hcompile, rfl⟩, ?_⟩
      have hkind := Predicate.kind_of_compile hcompile (Criterion.bound_of_seed hseed)
      have hobjects := Row.set_eq_ok hserves hs.row hdb hw hm hname hkind hset
      exact hs.setCell htame hobjects

/-- Seeding the fields one after the other. -/
theorem seedFields_eq_ok (hserves : before.Serves seed.env)
    (hdb : before.engine.objects.table.get? r.db = some (.database db))
    (hne : r.db ≠ seed.handle) (hw : WellNamed db.fields) :
    ∀ {fields : List Field} {lists : List (List Predicate)} {world : World} {r' : Engine.Row},
      r'.db = r.db → Seeded before world seed r' →
      (∀ field ∈ fields, field ∈ db.fields ∧ '\x00' ∉ field.name.toList) →
      fields.mapM (seedField criteria schema seed) world = (.ok lists, world') →
      List.Forall₂ (FieldCompiles criteria schema) fields lists ∧
        Seeded before world' seed (fields.foldl (fun r field => withBound criteria field r) r')
  | [], lists, world, r', _, hs, _, h => by
    have hpair : ((.ok [], world) : Except Failure (List (List Predicate)) × World) =
      (.ok lists, world') := h
    cases hpair
    exact ⟨.nil, hs⟩
  | field :: fields, lists, world, r', hr, hs, hm, h => by
    rw [List.mapM_cons] at h
    obtain ⟨predicates, middle, hfield, h⟩ := bind_eq_ok.1 h
    obtain ⟨rest, after, hrest, h⟩ := bind_eq_ok.1 h
    have hpair : ((.ok (predicates :: rest), after) :
      Except Failure (List (List Predicate)) × World) = (.ok lists, world') := h
    cases hpair
    obtain ⟨hmem, hname⟩ := hm field List.mem_cons_self
    have hlive := hs.database hdb hne
    rw [← hr] at hlive
    obtain ⟨hcompiles, hseeded⟩ :=
      seedField_eq_ok (hserves.follows hs.follows) hs hlive hw hmem hname hfield
    obtain ⟨hall, hlast⟩ := seedFields_eq_ok hserves hdb hne hw ((withBound_db ..).trans hr) hseeded
      (fun f hf => hm f (List.mem_cons_of_mem field hf)) hrest
    exact ⟨.cons hcompiles hall, hlast⟩

theorem get?_foldl_withBound_of_notMem {name : String} : ∀ {fields : List Field} {r : Engine.Row},
    name ∉ fields.map (·.name) →
    (fields.foldl (fun r field => withBound criteria field r) r).cells.get? name =
      r.cells.get? name
  | [], _, _ => rfl
  | field :: fields, r, h => by
    rw [List.map_cons, List.mem_cons, not_or] at h
    rw [List.foldl_cons, get?_foldl_withBound_of_notMem h.2]
    unfold withBound
    split
    · rfl
    · exact (Table.get?_insert ..).trans (if_neg h.1)

theorem get?_foldl_withBound {field : Field} : ∀ {fields : List Field} {r : Engine.Row},
    (fields.map (·.name)).Nodup → field ∈ fields → r.cells.get? field.name = none →
    (fields.foldl (fun r field => withBound criteria field r) r).cells.get? field.name =
      (criteria.startBound? field).map (·.cellIn field.type)
  | f :: fields, r, hn, hm, hnone => by
    rw [List.map_cons, List.nodup_cons] at hn
    rw [List.foldl_cons]
    rcases List.mem_cons.1 hm with rfl | hm
    · rw [get?_foldl_withBound_of_notMem hn.1]
      unfold withBound
      cases criteria.startBound? field with
      | none => exact hnone
      | some value => exact (Table.get?_insert ..).trans (if_pos rfl)
    · refine get?_foldl_withBound hn.2 hm ?_
      have hne : field.name ≠ f.name := fun h => hn.1 (List.mem_map.2 ⟨field, hm, h⟩)
      unfold withBound
      split
      · exact hnone
      · exact (Table.get?_insert ..).trans ((if_neg hne).trans hnone)

/-- The cells of a row after the leading bytes were written to it. -/
def withStart (criteria : CriteriaSet) (r : Engine.Row) : Engine.Row :=
  match criteria.startsWith? with
  | none => r
  | some bytes => { r with cells := r.cells.insert prefixField (.bytes bytes) }

/-- What seeding the leading bytes compiles to. -/
def StartCompiles (criteria : CriteriaSet) (schema : Schema) (predicates : List Predicate) : Prop :=
  match criteria.startsWith? with
  | none => predicates = []
  | some bytes => ∃ field predicate, schema.leading? = some field ∧
    criteria.get? field.name = none ∧
      Predicate.startingWith field bytes criteria.order = .ok predicate ∧ predicates = [predicate]

theorem seedStart_eq_ok {predicates : List Predicate} (hserves : world.Serves seed.env)
    (hs : Seeded before world seed r)
    (h : seedStart criteria schema seed world = (.ok predicates, world')) :
    StartCompiles criteria schema predicates ∧ Seeded before world' seed (withStart criteria r) := by
  have htame : world.Follows (seedStart criteria schema seed world).2 :=
    (quiet_seedStart criteria schema seed).tame world
  rw [h] at htame
  unfold seedStart at h
  unfold StartCompiles withStart
  cases hstart : criteria.startsWith? with
  | none =>
    rw [hstart] at h
    have hpair : (Except.ok [], world) = (Except.ok predicates, world') := h
    cases hpair
    exact ⟨rfl, hs⟩
  | some bytes =>
    rw [hstart] at h
    dsimp only at h
    cases hleading : schema.leading? with
    | none =>
      rw [hleading] at h
      cases h
    | some field =>
      rw [hleading] at h
      dsimp only at h
      split at h
      · cases h
      · next hfree =>
        obtain ⟨predicate, middle, hcheck, hrest⟩ := bind_eq_ok.1 h
        obtain ⟨hcompile, rfl⟩ := check_eq_ok hcheck
        obtain ⟨⟨⟩, after, hset, hanswer⟩ := bind_eq_ok.1 hrest
        have hpair : (Except.ok [predicate], after) = (Except.ok predicates, world') := hanswer
        cases hpair
        have hnone : criteria.get? field.name = none := by simpa using hfree
        refine ⟨⟨field, predicate, rfl, hnone, hcompile, rfl⟩, ?_⟩
        exact hs.setCell htame (Row.setBytes_pseudo_eq_ok hserves hs.row rfl hset)

/-- The parts that were seeded make up what the criteria compile to. -/
theorem compiled_of_parts {start : List Predicate} {lists : List (List Predicate)}
    (hstart : StartCompiles criteria schema start)
    (hfields : List.Forall₂ (FieldCompiles criteria schema) schema.fields lists) :
    criteria.Compiled schema (start ++ lists.flatten) where
  start bytes hbytes := by
    unfold StartCompiles at hstart
    rw [hbytes] at hstart
    obtain ⟨field, predicate, hleading, hnone, hcompile, rfl⟩ := hstart
    exact ⟨field, predicate, hleading, hnone, hcompile,
      List.mem_append_left _ (List.mem_singleton.2 rfl)⟩
  field field hm criterion hget := by
    obtain ⟨i, hi, rfl⟩ := List.getElem_of_mem hm
    have hi' : i < lists.length := hfields.length_eq ▸ hi
    have hcompiles : FieldCompiles criteria schema schema.fields[i] lists[i] := hfields.get hi hi'
    unfold FieldCompiles at hcompiles
    rw [hget] at hcompiles
    obtain ⟨predicate, hcompile, hlist⟩ := hcompiles
    refine ⟨predicate, hcompile, ?_⟩
    by_cases hall : predicate.test = .all
    · exact .inl hall
    · refine .inr (List.mem_append_right _ (List.mem_flatten.2 ⟨lists[i], List.getElem_mem hi', ?_⟩))
      rw [hlist]
      simp [Predicate.isUnconstrained, hall]
  only predicate hp := by
    rcases List.mem_append.1 hp with hp | hp
    · unfold StartCompiles at hstart
      cases hbytes : criteria.startsWith? with
      | none =>
        rw [hbytes] at hstart
        rw [hstart] at hp
        simp at hp
      | some bytes =>
        rw [hbytes] at hstart
        obtain ⟨field, predicate', hleading, -, hcompile, rfl⟩ := hstart
        obtain rfl := List.mem_singleton.1 hp
        exact .inl ⟨bytes, field, rfl, hleading, hcompile⟩
    · obtain ⟨list, hlist, hp⟩ := List.mem_flatten.1 hp
      obtain ⟨i, hi, rfl⟩ := List.getElem_of_mem hlist
      have hi' : i < schema.fields.length := hfields.length_eq ▸ hi
      have hcompiles : FieldCompiles criteria schema schema.fields[i] lists[i] := hfields.get hi' hi
      unfold FieldCompiles at hcompiles
      cases hget : criteria.get? schema.fields[i].name with
      | none =>
        rw [hget] at hcompiles
        rw [hcompiles] at hp
        simp at hp
      | some criterion =>
        rw [hget] at hcompiles
        obtain ⟨predicate', hcompile, hlist⟩ := hcompiles
        rw [hlist] at hp
        split at hp
        · simp at hp
        · obtain rfl := List.mem_singleton.1 hp
          exact .inr ⟨schema.fields[i], List.getElem_mem hi', criterion, hget, hcompile⟩

/-- A row that seeds a scan for the criteria. -/
structure SeedRow (criteria : CriteriaSet) (schema : Schema) (d : Handle) (r : Engine.Row) :
    Prop where
  db : r.db = d
  order : r.cells.get? orderField = some (.bytes (Bytes.ofText criteria.order.inclusive.symbol))
  start : r.cells.get? prefixField = criteria.startsWith?.map .bytes
  bounds : ∀ field ∈ schema.fields,
    r.cells.get? field.name = (criteria.startBound? field).map (·.cellIn field.type)

theorem foldl_withBound_db {fields : List Field} : ∀ {r : Engine.Row},
    (fields.foldl (fun r field => withBound criteria field r) r).db = r.db := by
  induction fields with
  | nil => exact fun {r} => rfl
  | cons field fields ih =>
    intro r
    rw [List.foldl_cons, ih, withBound_db]

/-- Seeding a new row makes a row that seeds the scan. -/
theorem seedScan_eq_ok {d : Handle} {predicates : List Predicate} (hserves : before.Serves seed.env)
    (hs : Seeded before world seed { db := d })
    (hdb : before.engine.objects.table.get? d = some (.database db)) (hne : d ≠ seed.handle)
    (hfields : db.fields = schema.fields) (hw : schema.WellFormed)
    (h : seedScan criteria schema seed world = (.ok predicates, world')) :
    criteria.Compiled schema predicates ∧ ∃ r, Seeded before world' seed r ∧
      SeedRow criteria schema d r := by
  unfold seedScan at h
  generalize criteria.fields.find? _ = unknown? at h
  rcases unknown? with _ | ⟨name, criterion⟩
  case some => cases h
  obtain ⟨start, middle, hstart, hrest⟩ := bind_eq_ok.1 h
  obtain ⟨lists, after, hlists, hrest⟩ := bind_eq_ok.1 hrest
  obtain ⟨⟨⟩, last, hset, hrest⟩ := bind_eq_ok.1 hrest
  have hpair : ((.ok (start ++ lists.flatten), last) :
    Except Failure (List Predicate) × World) = (.ok predicates, world') := hrest
  cases hpair
  obtain ⟨hstartCompiles, hstartSeeded⟩ := seedStart_eq_ok (hserves.follows hs.follows) hs hstart
  have hstartDb : (withStart criteria { db := d }).db = d := by
    unfold withStart
    split <;> rfl
  have hnamed := hw.wellNamed
  have hmem : ∀ field ∈ schema.fields, field ∈ db.fields ∧ '\x00' ∉ field.name.toList :=
    fun field hm => ⟨hfields ▸ hm, hw.noNul field hm⟩
  obtain ⟨hcompiles, hseeded⟩ := seedFields_eq_ok (r := withStart criteria { db := d }) hserves
    (by rw [hstartDb]; exact hdb) (by rw [hstartDb]; exact hne) (hfields ▸ hnamed) rfl
    hstartSeeded hmem hlists
  have hafter := hserves.follows hseeded.follows
  refine ⟨compiled_of_parts hstartCompiles hcompiles, _, hseeded.setCell ?_
    (Row.setBytes_pseudo_eq_ok hafter hseeded.row rfl hset), ?_⟩
  · have htame :=
      (Row.quiet_setBytes seed orderField (Bytes.ofText criteria.order.inclusive.symbol)).tame after
    rw [show (seed.setBytes orderField _).run after = _ from hset] at htame
    exact htame
  · have hstarts : prefixField ∉ schema.fields.map (·.name) := fun hm => by
      obtain ⟨field, hm, hname⟩ := List.mem_map.1 hm
      exact (hw.notReserved field hm).2.1 hname
    refine ⟨foldl_withBound_db.trans hstartDb, (Table.get?_insert ..).trans (if_pos rfl), ?_, ?_⟩
    · rw [Table.get?_insert, if_neg (by decide), get?_foldl_withBound_of_notMem hstarts]
      unfold withStart
      cases criteria.startsWith? with
      | none => rfl
      | some bytes => exact (Table.get?_insert ..).trans (if_pos rfl)
    · intro field hm
      obtain ⟨horder, hstart, -⟩ := hw.notReserved field hm
      rw [Table.get?_insert, if_neg horder, get?_foldl_withBound hw.distinct hm]
      unfold withStart
      cases criteria.startsWith? with
      | none => rfl
      | some bytes => exact (Table.get?_insert ..).trans (if_neg hstart)

/-! ### The cursor -/

/-- A cursor as it was opened: it holds its seed row, and its scan has not started. -/
structure Cursor.Opened (cursor : Cursor) (db : Database) (criteria : CriteriaSet) (world : World) :
    Prop where
  env : cursor.env = db.env
  order : cursor.order = criteria.order
  termination : cursor.termination = criteria.termination?.getD db.termination
  current : cursor.current? = none
  unfinished : cursor.exhausted = false ∧ cursor.closed = false
  compiled : criteria.Compiled db.schema cursor.predicates
  seed : ∃ handle r, cursor.seed? = some ⟨db.env, handle⟩ ∧
    world.engine.objects.table.get? handle = some (.row r) ∧ SeedRow criteria db.schema db.handle r
  unstarted : world.engine.objects.table.get? cursor.handle = some (.cursor { env := db.env })

variable {client : Database} {stored : Engine.Database}

/-- A database stays ready while its environment and itself stay as they are. -/
theorem Database.Ready.of_get? (hr : client.Ready world stored) (hf : world.Follows world')
    (h : ∀ h object, world.engine.objects.table.get? h = some object →
      (∀ r, object ≠ .row r) → (∀ c, object ≠ .cursor c) →
      world'.engine.objects.table.get? h = some object) : client.Ready world' stored where
  serves := hr.serves.follows hf
  opened := by
    obtain ⟨env, henv, hopen⟩ := Objects.ensureOpened_eq_ok.1 hr.opened
    exact Objects.ensureOpened_eq_ok.2 ⟨env, h _ _ henv nofun nofun, hopen⟩
  found := Objects.database_eq_ok.2 (h _ _ (Objects.database_eq_ok.1 hr.found) nofun nofun)
  env := hr.env
  fields := hr.fields
  wellFormed := hr.wellFormed
  keyed := hr.keyed

/-- The records of a database fit its fields. -/
theorem Database.Ready.fits (hr : client.Ready world stored) {e : Key × Record}
    (he : e ∈ stored.records.entries) :
    Key.Fits (Engine.keyTypes stored.fields) e.1 ∧ Record.Fits stored.fields e.2 :=
  (hr.serves.reachable.sound.sound _ _ (Objects.database_eq_ok.1 hr.found)).2.2.2
    (hr.fields ▸ hr.wellFormed.wellNamed.wellTyped) e he

/-- A row is made of a database that the engine has. -/
theorem newRow_apply (db : Database) {own : Engine.Database} (hs : world.Serves db.env)
    (hdb : world.engine.objects.table.get? db.handle = some (.database own)) :
    ∃ after, db.newRow world = (.ok ⟨db.env, world.engine.objects.issued + 1⟩, after) ∧
      world.Follows after ∧ after.engine = { world.engine with
        objects := (world.engine.objects.add (.row { db := db.handle })).2
        diagnostic? := none } := by
  have hstep : world.engine.step world.mergeFunctions (.newRow db.handle) =
      (some (world.engine.objects.issued + 1), { world.engine with
        objects := (world.engine.objects.add (.row { db := db.handle })).2
        diagnostic? := none }) := by
    show world.engine.attempt (world.engine.objects.newRow db.handle) = _
    unfold Objects.newRow
    rw [Objects.database_eq_ok.2 hdb]
    rfl
  have happly : db.newRow world = (.ok ⟨db.env, world.engine.objects.issued + 1⟩,
      (world.reach (.newRow db.handle)).2) := by
    unfold Database.newRow
    rw [attempt_bind_apply, ensureOpen_apply hs.isOpen]
    dsimp only
    rw [attempt_bind_apply, handleOrRefused_of_some hs.faultFree (congrArg Prod.fst hstep)]
    rfl
  refine ⟨_, happly, ?_, congrArg Prod.snd hstep⟩
  have hfollows := db.plain_newRow.tame world
  rw [show db.newRow.run world = _ from happly] at hfollows
  exact hfollows

theorem newRow_eq_ok {row : Row} (hr : client.Ready world stored)
    (h : client.newRow world = (.ok row, world')) :
    row = ⟨client.env, world.engine.objects.issued + 1⟩ ∧
      world'.engine.objects = (world.engine.objects.add (.row { db := client.handle })).2 := by
  obtain ⟨after, happly, -, hengine⟩ :=
    newRow_apply client hr.serves (Objects.database_eq_ok.1 hr.found)
  rw [happly] at h
  cases h
  exact ⟨rfl, congrArg Engine.objects hengine⟩

/-- An operation whose failures are passed on succeeds if it does by itself. -/
theorem tryCatch_eq_ok {α : Type} {x : Attempt α} {handle : Failure → Attempt α} {a : α}
    (hh : ∀ failure w, ∃ failure' w', handle failure w = (.error failure', w'))
    (h : tryCatch x handle world = (.ok a, world')) : x world = (.ok a, world') := by
  rw [tryCatch_apply] at h
  split at h
  · next hx => rw [hx]; exact h
  · next failure after hx =>
    obtain ⟨failure', w', hfail⟩ := hh failure after
    rw [hfail] at h
    cases h

/-- A cursor that opens is opened, and the database is as ready as before. -/
theorem Database.opened_of_openCursor {cursor : Cursor} (hr : client.Ready world stored)
    (h : (client.openCursor criteria).run world = (.ok cursor, world')) :
    client.Ready world' stored ∧ cursor.Opened client criteria world' := by
  have htame := (client.plain_openCursor criteria).tame world
  rw [h] at htame
  obtain ⟨seed, before, hnew, hrest⟩ := bind_eq_ok.1 h
  have hopen := tryCatch_eq_ok (fun failure w => ⟨failure, _, rfl⟩) hrest
  obtain ⟨predicates, middle, hseeding, hrest⟩ := bind_eq_ok.1 hopen
  obtain ⟨handle, after, hcursor, hrest⟩ := bind_eq_ok.1 hrest
  have hpair : ((.ok { env := client.env, handle, seed? := some seed, predicates
                       order := criteria.order
                       termination := criteria.termination?.getD client.termination }, after) :
    Except Failure Cursor × World) = (.ok cursor, world') := hrest
  cases hpair
  obtain ⟨rfl, hobjects⟩ := newRow_eq_ok hr hnew
  set row : Row := ⟨client.env, world.engine.objects.issued + 1⟩ with hrow
  have hsound := hr.serves.reachable.sound
  have hbeforeFollows : world.Follows before := by
    have hnewTame := client.plain_newRow.tame world
    rw [show client.newRow.run world = _ from hnew] at hnewTame
    exact hnewTame
  -- What was there before the seed row was made has a handle of its own.
  have hkept : ∀ h object, world.engine.objects.table.get? h = some object →
      before.engine.objects.table.get? h = some object ∧ h ≠ row.handle := by
    intro h object hget
    have hne : h ≠ world.engine.objects.issued + 1 := by
      rintro rfl
      rw [hsound.fresh] at hget
      simp at hget
    refine ⟨?_, hne⟩
    rw [hobjects, Objects.get?_add, if_neg hne]
    exact hget
  have hseeded : Seeded before before row { db := client.handle } :=
    ⟨.refl before, by rw [hobjects, Objects.get?_add, if_pos rfl], fun _ _ => rfl⟩
  have hserves := hr.serves.follows hbeforeFollows
  obtain ⟨hstored, hneDb⟩ := hkept _ _ (Objects.database_eq_ok.1 hr.found)
  obtain ⟨hcompiled, r, hlast, hseedRow⟩ :=
    seedScan_eq_ok hserves hseeded hstored hneDb hr.fields hr.wellFormed hseeding
  have hmiddle := hserves.follows hlast.follows
  have hstep := Engine.attempt_eq_some (step_of_call (call_of_handleOrRefused hcursor))
  obtain ⟨env, -, hadd⟩ := RowStore.bind_eq_ok.1 hstep
  have hadd : middle.engine.objects.add (.cursor { env := client.env }) =
      (handle, world'.engine.objects) := Except.ok.inj hadd
  have hhandle : handle = middle.engine.objects.issued + 1 := (congrArg Prod.fst hadd).symm
  have hafter : world'.engine.objects =
      (middle.engine.objects.add (.cursor { env := client.env })).2 := (congrArg Prod.snd hadd).symm
  have hfinal : ∀ h object, middle.engine.objects.table.get? h = some object →
      world'.engine.objects.table.get? h = some object := by
    intro h object hget
    rw [hafter, Objects.get?_add, if_neg, hget]
    rintro rfl
    rw [hmiddle.reachable.sound.fresh] at hget
    simp at hget
  refine ⟨hr.of_get? htame fun h object hget _ _ => ?_, rfl, rfl, rfl, rfl, ⟨rfl, rfl⟩, hcompiled,
    ⟨_, r, rfl, hfinal _ _ hlast.row, hseedRow⟩, ?_⟩
  · obtain ⟨hget, hne⟩ := hkept h object hget
    exact hfinal h object ((hlast.others h hne).trans hget)
  · show world'.engine.objects.table.get? handle = _
    rw [hafter, hhandle, Objects.get?_add, if_pos rfl]

/-- The scan that a seed row asks for. -/
theorem SeedRow.seek_eq {d : Handle} (h : SeedRow criteria schema d r) {objects : Objects}
    (hdb : objects.database d = .ok stored) (hopen : objects.ensureOpened stored.env = .ok ())
    (hfields : stored.fields = schema.fields) (hw : schema.WellFormed)
    (hstart : criteria.startsWith?.isSome = true →
      ∃ field, schema.leading? = some field ∧ field.type = .string) :
    objects.seek r = .ok {
      db := d
      order := criteria.order.inclusive
      keyTypes := schema.keys.map (·.type)
      seed := criteria.startKey schema.keys
      startsWith? := criteria.startsWith?
      last? := none } := by
  have hkeys : stored.keyFields = schema.keys := by
    unfold Engine.Database.keyFields
    rw [hfields, hw.filter_isKey]
  have horder : Objects.orderOf r = .ok criteria.order.inclusive := by
    unfold Objects.orderOf
    rw [h.order]
    cases criteria.order <;> decide
  have hstarts : Objects.startsWithOf stored r = .ok criteria.startsWith? := by
    unfold Objects.startsWithOf
    rw [h.start]
    cases hs : criteria.startsWith? with
    | none => rfl
    | some bytes =>
      obtain ⟨⟨name, type, isKey⟩, hleading, rfl⟩ := hstart (by rw [hs]; rfl)
      have hhead : stored.keyFields.head? = some ⟨name, .string, isKey⟩ := by
        rw [hkeys]
        exact hleading
      dsimp only [Option.map_some]
      rw [hhead]
  have hseed : Objects.leadingRun (stored.keyFields.map fun field =>
      (r.cells.get? field.name).bind (KeyPart.ofCell? field.type)) =
        criteria.startKey schema.keys := by
    unfold CriteriaSet.startKey
    rw [hkeys]
    refine congrArg Objects.leadingRun (List.map_congr_left fun field hm => ?_)
    rw [h.bounds field (List.mem_append_left _ hm), Option.bind_map]
    rfl
  have hdb' : objects.database r.db = .ok stored := by
    rw [h.db]
    exact hdb
  rw [Objects.seek_eq hdb' hopen horder hstarts]
  unfold Engine.Database.seekOf
  rw [hseed, h.db, hkeys]

end Client

/-! ### A database of numbers -/

namespace Client.Numbers

/-- The schema of a database of numbers: an integer of eight bytes is all there is to a record. -/
def schema : Schema := { keys := [⟨"number", .int .eight false, true⟩] }

/-- A database of numbers. -/
def database : Database where
  env := 1
  handle := 2
  name := "numbers"
  schema := schema
  termination := .early
  token? := none

/-- The world with the database declared in a new environment. -/
def declared : World where
  engine := {
    objects := {
      issued := 2
      table := ⟨[(1, .environment { databases := ⟨[("numbers", 2)], by decide⟩ }),
        (2, .database { env := 1, name := "numbers", fields := schema.fields })], by decide⟩ } }
  calls := [⟨.flag, .declare 1 "numbers" schema.fields⟩, ⟨.handle, .newEnvironment⟩]
  links := ⟨[(1, { cache := .ofPolicy .static })], by decide⟩

theorem reachable_declared : declared.Reachable := by
  have h : declared = (call (.declare 1 "numbers" schema.fields)
      ((call .newEnvironment {}).2.setLink 1 { cache := .ofPolicy .static })).2 := by
    show _ = (World.reach _ (.declare 1 "numbers" schema.fields)).2
    unfold World.reach Engine.step
    dsimp only
    unfold Engine.declare Engine.Objects.declare
    rw [show ("numbers".isEmpty || "numbers".contains '.') = false by simp]
    rfl
  rw [h]
  exact ((World.Reachable.start.call _).create _ _).call _

/-- The world after a number was put into the database. -/
def insert (world : World) (number : UInt64) : World :=
  let row := world.engine.objects.issued + 1
  (call (.put 2 row) (call (.setWord row "number" number) (call (.newRow 2) world).2).2).2

/-- The environment opened, and three numbers in the database: a small one, a greater one, and the
greatest of all. -/
def world : World :=
  insert (insert (insert (call (.openEnvironment 1) declared).2 3) 10) (-1)

theorem reachable_world : world.Reachable :=
  ((((reachable_declared.call _).call _ |>.call _ |>.call _).call _ |>.call _ |>.call _).call _
    |>.call _ |>.call _)

/-- The database as the engine has it. -/
def stored : Engine.Database where
  env := 1
  name := "numbers"
  fields := schema.fields
  records := ⟨[([.up 3], [.word 3]), ([.up 10], [.word 10]), ([.up (-1)], [.word (-1)])], by decide⟩

theorem ready : database.Ready world stored where
  serves := ⟨reachable_world, rfl, rfl⟩
  opened := rfl
  found := rfl
  env := rfl
  fields := rfl
  wellFormed := ⟨by decide, by decide, by decide, by decide, by decide⟩
  keyed := by
    show ∀ e ∈ [_, _, _], _
    simp only [List.forall_mem_cons, List.not_mem_nil, false_implies, implies_true, and_true]
    exact ⟨.cons rfl .nil, .cons rfl .nil, .cons rfl .nil⟩

end Client.Numbers
end RowStore
