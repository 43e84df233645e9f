/-
# Rows through their names

Setting a field of a row that the engine has puts the cell of the value under the name of the field;
reading one finds the cell there and changes no object. A predicate judges the row of a record as it
judges the record.

Key theorems: `Client.Row.set_eq_ok`, `Client.Row.getWord_apply`, `Client.Row.getBytes_apply`,
`Client.Row.judge_apply`.
-/
import RowStore.Client.Cursor
import RowStore.Proofs.Client.Routines
import RowStore.Proofs.Scan.Start

namespace RowStore

namespace Engine

variable {engine engine' : Engine}

theorem attempt_eq_some {α : Type} {result : Except Refusal (α × Objects)} {a : α}
    (h : engine.attempt result = (some a, engine')) : result = .ok (a, engine'.objects) := by
  cases result with
  | error refusal => cases h
  | ok r =>
    cases h
    rfl

/-- What a call makes is live after it. -/
theorem get?_of_made {α : Type} {checked : Except Refusal α}
    {object : Object} {h : Handle}
    (hmade : engine.attempt (checked >>= fun _ => .ok (engine.objects.add object)) =
      (some h, engine')) : engine'.objects.table.get? h = some object := by
  obtain ⟨_, -, hadd⟩ := bind_eq_ok.1 (attempt_eq_some hmade)
  have hadd : engine.objects.add object = (h, engine'.objects) := Except.ok.inj hadd
  have hhandle : h = engine.objects.issued + 1 := (congrArg Prod.fst hadd).symm
  have hobjects : engine'.objects = (engine.objects.add object).2 := (congrArg Prod.snd hadd).symm
  rw [hobjects, hhandle, Objects.get?_add, if_pos rfl]

theorem attemptFlag_eq_true {result : Except Refusal Objects}
    (h : engine.attemptFlag result = (true, engine')) : result = .ok engine'.objects := by
  cases result with
  | error refusal => cases h
  | ok objects =>
    cases h
    rfl

theorem inquire_fst {α : Type} (result : Except Refusal (Option α)) :
    (engine.inquire result).1 = result.toOption.join := by
  cases result <;> rfl

/-- The word in a field of a row. -/
theorem getWord_of_row {h : Handle} {r : Row}
    (hrow : engine.objects.table.get? h = some (.row r)) (name : String) :
    (engine.getWord h name).1 = Objects.getWord.word? (r.cells.get? name) := by
  unfold getWord Objects.getWord
  rw [inquire_fst, Objects.find_eq_ok.2 hrow]
  rfl

theorem getBytes_of_ne {name : String} (hname : name ≠ diagnosticKey) (h : Handle) :
    engine.getBytes h name = engine.inquire (engine.objects.getBytes h name) := by
  unfold getBytes
  rw [if_neg hname]

namespace Objects

variable {objects : Objects} {h : Handle} {r : Row} {db : Database} {field : Field}

/-- The bytes in a field of a row are the image of its cell, in the type declared for the field. -/
theorem getBytes_of_row (hrow : objects.table.get? h = some (.row r))
    (hdb : objects.table.get? r.db = some (.database db)) (name : String) :
    objects.getBytes h name = .ok ((r.cells.get? name).map
      (Cell.encode ((db.field name).toOption.elim .string (·.type)))) := by
  unfold Objects.getBytes
  rw [find_eq_ok.2 hrow]
  dsimp only [bind, Except.bind]
  cases r.cells.get? name with
  | none => rfl
  | some cell =>
    dsimp only
    rw [database_eq_ok.2 hdb]
    dsimp only
    cases db.field name <;> rfl

/-- Setting an integer field of a row. -/
theorem setWord_row (hrow : objects.table.get? h = some (.row r))
    (hdb : objects.table.get? r.db = some (.database db)) (hw : WellNamed db.fields)
    (hm : field ∈ db.fields) (hint : field.type.isString = false) (w : UInt64) :
    objects.setWord h field.name w =
      .ok (objects.setCell h r field.name (.word (field.type.truncate w))) := by
  have hcell : objects.cellOfWord r field.name w = .ok (.word (field.type.truncate w)) := by
    unfold cellOfWord
    rw [hw.proper field hm, database_eq_ok.2 hdb]
    show (do
      let found ← db.field field.name
      if found.type.isString then Except.error _ else Except.ok _) = _
    rw [Database.field_of_mem hw.nodup hm]
    show (if field.type.isString then _ else _) = _
    rw [hint]
    rfl
  unfold Objects.setWord
  rw [assign_row hrow, hcell]
  rfl

/-- Setting a string field of a row. -/
theorem setBytes_row (hrow : objects.table.get? h = some (.row r))
    (hdb : objects.table.get? r.db = some (.database db)) (hw : WellNamed db.fields)
    (hm : field ∈ db.fields) (hstring : field.type.isString = true) (bytes : Bytes) :
    objects.setBytes h field.name bytes =
      .ok (objects.setCell h r field.name (.bytes bytes)) := by
  have hcell : objects.cellOfBytes r field.name bytes = .ok (.bytes bytes) := by
    unfold cellOfBytes
    rw [hw.proper field hm, database_eq_ok.2 hdb]
    show (db.field field.name >>= _) = _
    rw [Database.field_of_mem hw.nodup hm]
    obtain ⟨name, ⟨width, reversed⟩ | _, isKey⟩ := field
    · exact absurd hstring Bool.false_ne_true
    · rfl
  unfold Objects.setBytes
  rw [assign_row hrow, hcell]
  rfl

/-- Setting a pseudo-field of a row. -/
theorem setBytes_pseudo (hrow : objects.table.get? h = some (.row r)) {name : String}
    (hp : isPseudoField name = true) (bytes : Bytes) :
    objects.setBytes h name bytes = .ok (objects.setCell h r name (.bytes bytes)) := by
  have hcell : objects.cellOfBytes r name bytes = .ok (.bytes bytes) := by
    unfold cellOfBytes
    rw [hp]
    rfl
  unfold Objects.setBytes
  rw [assign_row hrow, hcell]
  rfl

end Objects
end Engine

namespace Client.Row

open Engine (Objects)

variable {row : Row} {world world' : World} {r : Engine.Row} {db : Engine.Database}
  {field : String}

/-! ### Setting -/

section Named

variable {env : Handle} (hs : world.Serves env) (field operation : String)
  (action : String → Engine.Action .flag) {x : Attempt Unit}
  (hx : x = do
    ensureOpen env
    tryWithName env field fun name => orRefused env operation (action name))

include hs hx

/-- An operation that makes one call under a name makes it with the text before the first NUL. -/
theorem tryWithName_apply :
    ∃ middle, world.Follows middle ∧ middle.engine = world.engine ∧
      (x world).1 =
        (orRefused env operation (action (SharedName.beforeNul field)) middle).1 ∧
      (x world).2.engine =
        (orRefused env operation (action (SharedName.beforeNul field)) middle).2.engine := by
  have happly : x world = tryWithName env field
      (fun name => orRefused env operation (action name)) world := by
    rw [hx, attempt_bind_apply, ensureOpen_apply hs.isOpen]
  rw [happly]
  exact withName_apply env field (fun name => (orRefused env operation (action name)).run)
    (hs.reachable.faithful env)

theorem tryWithName_eq :
    (x world).1.isOk =
        (world.engine.step world.mergeFunctions (action (SharedName.beforeNul field))).1 ∧
      (x world).2.engine =
        (world.engine.step world.mergeFunctions (action (SharedName.beforeNul field))).2 := by
  obtain ⟨middle, hfollows, hengine, hanswer, hafter⟩ :=
    tryWithName_apply hs field operation action hx
  obtain ⟨hflag, hleft⟩ := orRefused_eq (hfollows.faultFree hs.faultFree) env operation
    (action (SharedName.beforeNul field))
  rw [hengine, hfollows.mergeFunctions] at hflag hleft
  exact ⟨(congrArg Except.isOk hanswer).trans hflag, hafter.trans hleft⟩

theorem tryWithName_told {engine : Engine} {result : Except Refusal Objects}
    (hstep : world.engine.step world.mergeFunctions (action (SharedName.beforeNul field)) =
      engine.attemptFlag result) : (x world).1 = told operation result := by
  obtain ⟨middle, hfollows, hengine, hanswer, -⟩ :=
    tryWithName_apply hs field operation action hx
  rw [← hengine, ← hfollows.mergeFunctions] at hstep
  rw [hanswer]
  exact orRefused_of_attemptFlag (hfollows.faultFree hs.faultFree) env operation hstep

end Named

/-- An operation under a name that succeeds makes its call with the field for a name. -/
theorem step_of_tryWithName {operation : String} {action : String → Engine.Action .flag}
    {env : Handle} (hs : world.Serves env) (hfield : '\x00' ∉ field.toList)
    (h : (do
      ensureOpen env
      tryWithName env field fun name => orRefused env operation (action name) : Attempt Unit) world =
        (.ok (), world')) :
    world.engine.step world.mergeFunctions (action field) = (true, world'.engine) := by
  obtain ⟨hflag, hleft⟩ := tryWithName_eq hs field operation action rfl
  rw [h, SharedName.beforeNul_eq hfield] at hflag hleft
  exact Prod.ext hflag.symm hleft.symm

theorem setWord_eq_ok (hs : world.Serves row.env) (hfield : '\x00' ∉ field.toList)
    {w : UInt64} (h : row.setWord field w world = (.ok (), world')) :
    world.engine.objects.setWord row.handle field w = .ok world'.engine.objects :=
  Engine.attemptFlag_eq_true (step_of_tryWithName hs hfield h)

theorem setBytes_eq_ok (hs : world.Serves row.env) (hfield : '\x00' ∉ field.toList)
    {bytes : Bytes} (h : row.setBytes field bytes world = (.ok (), world')) :
    world.engine.objects.setBytes row.handle field bytes = .ok world'.engine.objects :=
  Engine.attemptFlag_eq_true (step_of_tryWithName hs hfield h)

/-- Setting a field to a value of its kind puts the cell of the value there. -/
theorem set_eq_ok (hs : world.Serves row.env)
    (hrow : world.engine.objects.table.get? row.handle = some (.row r))
    (hdb : world.engine.objects.table.get? r.db = some (.database db)) (hw : WellNamed db.fields)
    {f : Field} (hm : f ∈ db.fields) (hname : '\x00' ∉ f.name.toList) {value : Value}
    (hkind : f.type.isString = (value.kind == .str))
    (h : row.set f.name value world = (.ok (), world')) :
    world'.engine.objects =
      world.engine.objects.setCell row.handle r f.name (value.cellIn f.type) := by
  cases value with
  | int v =>
    have hset := setWord_eq_ok hs hname h
    rw [Objects.setWord_row hrow hdb hw hm hkind] at hset
    exact (Except.ok.inj hset).symm
  | uint v =>
    have hset := setWord_eq_ok hs hname h
    rw [Objects.setWord_row hrow hdb hw hm hkind] at hset
    exact (Except.ok.inj hset).symm
  | str b =>
    have hset := setBytes_eq_ok hs hname h
    rw [Objects.setBytes_row hrow hdb hw hm hkind] at hset
    exact (Except.ok.inj hset).symm

theorem noNul_of_pseudo {name : String} (hp : Engine.isPseudoField name = true) :
    '\x00' ∉ name.toList := by
  rcases Bool.or_eq_true_iff.1 hp with h | h <;> rw [eq_of_beq h] <;> decide

theorem setBytes_pseudo_eq_ok (hs : world.Serves row.env)
    (hrow : world.engine.objects.table.get? row.handle = some (.row r))
    (hp : Engine.isPseudoField field = true) {bytes : Bytes}
    (h : row.setBytes field bytes world = (.ok (), world')) :
    world'.engine.objects = world.engine.objects.setCell row.handle r field (.bytes bytes) := by
  have hname := noNul_of_pseudo hp
  have hset := setBytes_eq_ok hs hname h
  rw [Objects.setBytes_pseudo hrow hp] at hset
  exact (Except.ok.inj hset).symm

/-! ### Reading -/

/-- A read of an environment that is open makes its call with the text before the first NUL. -/
theorem withName_call_eq {kind : Engine.AnswerKind} {env : Handle} (hs : world.Serves env)
    (field : String) (action : String → Engine.Action kind) {x : Client kind.Answer}
    {closed : kind.Answer} (hx : x = do
      if ← isClosed env then return closed
      withName env field fun name => call (action name)) :
    (x world).1 =
        (world.engine.step world.mergeFunctions (action (SharedName.beforeNul field))).1 ∧
      (x world).2.engine =
        (world.engine.step world.mergeFunctions (action (SharedName.beforeNul field))).2 := by
  obtain ⟨middle, hfollows, hengine, hanswer, hafter⟩ :=
    withName_apply env field (fun name => call (action name)) (hs.reachable.faithful env)
  have happly : x world = withName env field (fun name => call (action name)) world := by
    rw [hx, bind_apply, isClosed_apply, hs.isOpen]
    rfl
  rw [happly, hanswer, hafter, call_apply (hfollows.faultFree hs.faultFree), reach_fst,
    reach_engine, hengine, hfollows.mergeFunctions]
  exact ⟨rfl, rfl⟩

/-- A word is read as the engine reads it under the text before the first NUL. -/
theorem getWord_eq (hs : world.Serves row.env) (field : String) :
    (row.getWord field world).1 =
        (world.engine.getWord row.handle (SharedName.beforeNul field)).1 ∧
      (row.getWord field world).2.engine =
        (world.engine.getWord row.handle (SharedName.beforeNul field)).2 :=
  withName_call_eq hs field (fun name => .getWord row.handle name) rfl

/-- Bytes are read as the engine reads them under the text before the first NUL. -/
theorem getBytes_eq (hs : world.Serves row.env) (field : String) :
    (row.getBytes field world).1 =
        (world.engine.getBytes row.handle (SharedName.beforeNul field)).1 ∧
      (row.getBytes field world).2.engine =
        (world.engine.getBytes row.handle (SharedName.beforeNul field)).2 :=
  withName_call_eq hs field (fun name => .getBytes row.handle name) rfl

/-- A word read from a live row. -/
theorem getWord_apply (hs : world.Serves row.env) (hfield : '\x00' ∉ field.toList)
    (hrow : world.engine.objects.table.get? row.handle = some (.row r)) :
    (row.getWord field world).1 = Objects.getWord.word? (r.cells.get? field) ∧
      (row.getWord field world).2.engine.objects = world.engine.objects := by
  obtain ⟨hanswer, hafter⟩ := getWord_eq hs field
  rw [SharedName.beforeNul_eq hfield] at hanswer hafter
  rw [hanswer, hafter]
  exact ⟨Engine.getWord_of_row hrow field, Engine.inquire_objects _⟩

/-- The bytes read from a live row: the image of the cell. -/
theorem getBytes_apply (hs : world.Serves row.env) (hfield : '\x00' ∉ field.toList)
    (herror : field ≠ Engine.diagnosticKey)
    (hrow : world.engine.objects.table.get? row.handle = some (.row r))
    (hdb : world.engine.objects.table.get? r.db = some (.database db)) {f : Field}
    (hf : db.field field = .ok f) :
    (row.getBytes field world).1 = (r.cells.get? field).map (Cell.encode f.type) ∧
      (row.getBytes field world).2.engine.objects = world.engine.objects := by
  obtain ⟨hanswer, hafter⟩ := getBytes_eq hs field
  rw [SharedName.beforeNul_eq hfield, Engine.getBytes_of_ne herror] at hanswer hafter
  rw [hanswer, hafter, Engine.inquire_fst, Objects.getBytes_of_row hrow hdb, hf]
  exact ⟨rfl, Engine.inquire_objects _⟩

theorem get_int_apply (row : Row) (field : String) : row.get field .int world =
    ((row.getWord field world).1.map fun w => .int w.toInt64, (row.getWord field world).2) := rfl

theorem get_uint_apply (row : Row) (field : String) : row.get field .uint world =
    ((row.getWord field world).1.map .uint, (row.getWord field world).2) := rfl

theorem get_str_apply (row : Row) (field : String) : row.get field .str world =
    ((row.getBytes field world).1.map .str, (row.getBytes field world).2) := rfl

/-! ### Judging -/

theorem find?_of_mem {fields : List Field} {record : Record} (hn : (fields.map (·.name)).Nodup)
    (hl : record.length = fields.length) {f : Field} (hm : f ∈ fields) :
    ∃ cell, Record.find? fields record f.name = some (f, cell) := by
  obtain ⟨i, hi, rfl⟩ := List.getElem_of_mem hm
  have hz : (fields[i], record[i]) ∈ fields.zip record := by
    rw [List.mem_iff_getElem]
    exact ⟨i, by rw [List.length_zip]; omega, by rw [List.getElem_zip]⟩
  exact ⟨record[i], Record.find?_of_mem_zip hn hl hz⟩

/-- The row of a record has the cell that the record has in a field. -/
theorem exists_cell_of_mem {record : Record} (hn : (db.fields.map (·.name)).Nodup)
    (hl : record.length = db.fields.length) {f : Field} (hm : f ∈ db.fields) (d : Handle) :
    ∃ cell, Record.find? db.fields record f.name = some (f, cell) ∧
      (db.rowOf d record).cells.get? f.name = some cell := by
  obtain ⟨cell, hfind⟩ := find?_of_mem hn hl hm
  refine ⟨cell, hfind, ?_⟩
  rw [Engine.Database.rowOf_get? hn hl]
  exact congrArg (Option.map (·.2)) hfind

/-- A predicate on a field that a row has judges the cell. -/
theorem judge_of_cell (hs : world.Serves row.env)
    (hrow : world.engine.objects.table.get? row.handle = some (.row r))
    (hdb : world.engine.objects.table.get? r.db = some (.database db))
    (hn : (db.fields.map (·.name)).Nodup) {f : Field} (hm : f ∈ db.fields)
    (hname : '\x00' ∉ f.name.toList) (herror : f.name ≠ Engine.diagnosticKey)
    {predicate : Predicate} (hp : predicate.field = f.name) {cell : Cell}
    (hcell : r.cells.get? f.name = some cell) :
    (row.judge predicate world).1 = predicate.judgeCell f.type cell ∧
      (row.judge predicate world).2.engine.objects = world.engine.objects := by
  obtain ⟨hword, hwordafter⟩ := getWord_apply hs hname hrow
  obtain ⟨hbytes, hbytesafter⟩ := getBytes_apply hs hname herror hrow hdb
    (Engine.Database.field_of_mem hn hm)
  rw [hcell] at hword hbytes
  unfold Row.judge Predicate.judgeCell
  cases htest : predicate.test with
  | all => exact ⟨rfl, rfl⟩
  | signed interval =>
    rw [hp]
    show predicate.judge ((row.getWord f.name world).1.map fun w => interval.locate w.toInt64) = _ ∧
      (row.getWord f.name world).2.engine.objects = _
    rw [hword]
    refine ⟨?_, hwordafter⟩
    cases cell <;> rfl
  | unsigned interval =>
    rw [hp]
    show predicate.judge ((row.getWord f.name world).1.map interval.locate) = _ ∧
      (row.getWord f.name world).2.engine.objects = _
    rw [hword]
    refine ⟨?_, hwordafter⟩
    cases cell <;> rfl
  | bytes interval =>
    rw [hp]
    show predicate.judge ((row.getBytes f.name world).1.map interval.locate) = _ ∧
      (row.getBytes f.name world).2.engine.objects = _
    rw [hbytes]
    exact ⟨rfl, hbytesafter⟩

/-- A predicate on a field judges the row of a record as the record. -/
theorem judge_apply (hs : world.Serves row.env) {d : Handle} {record : Record}
    (hrow : world.engine.objects.table.get? row.handle = some (.row (db.rowOf d record)))
    (hdb : world.engine.objects.table.get? d = some (.database db)) (hw : WellNamed db.fields)
    (hl : record.length = db.fields.length) {f : Field} (hm : f ∈ db.fields)
    (hname : '\x00' ∉ f.name.toList) (herror : f.name ≠ Engine.diagnosticKey)
    {predicate : Predicate} (hp : predicate.field = f.name) :
    (row.judge predicate world).1 = predicate.judgeRecord db.fields record ∧
      (row.judge predicate world).2.engine.objects = world.engine.objects := by
  obtain ⟨cell, hfind, hcell⟩ := exists_cell_of_mem hw.nodup hl hm d
  have hrecord : predicate.judgeRecord db.fields record = predicate.judgeCell f.type cell :=
    Predicate.judgeRecord_of_find? (by rw [hp]; exact hfind)
  rw [hrecord]
  exact judge_of_cell hs hrow hdb hw.nodup hm hname herror hp hcell

end Client.Row
end RowStore
