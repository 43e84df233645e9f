/-
# Rows are judged as their values

A predicate can be asked about a row, which it then reads, and about a value. It reads an integer as
signed or as unsigned, and a string by its image in the engine, each as the interval asks for. A row
that was fetched has a cell for each field of its database, and keeps it: whatever is set in the row
later, no cell of it goes. So there always is a value of the field, and the two verdicts agree, in
whichever sign an integer is presented.

Key definitions: `Engine.Objects.IsFull`, `Client.Row.Fetched`, `Test.Suits`.
Key theorems: `Engine.Objects.Steady.isFull`, `Client.Row.Fetched.isFull`,
`Predicate.On.evaluate_of_read`, `Client.Row.judge_eq_evaluate`.
-/
import RowStore.Proofs.Client.Progress
import RowStore.Proofs.Client.Usable

namespace RowStore

/-! ### Rows with a cell for each field -/

namespace Engine

variable {objects objects' : Objects} {engine engine' : Engine} {h : Handle}

/-- The row has a cell for each field of its database, as long as both are live. -/
def Objects.IsFull (objects : Objects) (h : Handle) : Prop :=
  ∀ r db, objects.table.get? h = some (.row r) → objects.table.get? r.db = some (.database db) →
    WellTyped db.fields → ∀ field ∈ db.fields, (r.cells.get? field.name).isSome = true

/-- No cell goes. -/
theorem Objects.Steady.isFull (hs : objects.Steady objects') (hsound : objects.Sound)
    (hle : h ≤ objects.issued) (hfull : objects.IsFull h) : objects'.IsFull h := by
  intro r' db' hrow' hdb' hw field hm
  obtain ⟨r, hrow, hgrows⟩ := hs.row hle hrow'
  obtain ⟨env, name, fields, houtline, -⟩ := hsound.sound h _ hrow
  obtain ⟨db, hdb, -⟩ := Objects.outline?_eq_database houtline
  rw [hgrows.db] at hdb'
  obtain ⟨own, hown, -, hfields⟩ := hs.database (hsound.le_issued houtline) hdb hdb'
  cases hown
  rw [hfields] at hw hm
  exact hgrows.set field.name (hfull r db hrow hdb hw field hm)

/-- A row of a record that fits is full. -/
theorem Objects.isFull_of_rowOf {db : Database} {d : Handle} {record : Record}
    (hrow : objects.table.get? h = some (.row (db.rowOf d record)))
    (hdb : objects.table.get? d = some (.database db))
    (hfits : WellTyped db.fields → Record.Fits db.fields record) : objects.IsFull h := by
  intro r' db' hrow' hdb' hw field hm
  rw [hrow] at hrow'
  cases hrow'
  rw [show objects.table.get? (db.rowOf d record).db = _ from hdb] at hdb'
  cases hdb'
  obtain ⟨cell, -, hcell⟩ :=
    Client.Row.exists_cell_of_mem hw.nodup (hfits hw).length_eq.symm hm d
  rw [hcell]
  rfl

/-- A row that a fetch finds is full. -/
theorem isFull_fetchNext {cursor row : Handle} (hs : engine.objects.Sound)
    (hfetch : engine.fetchNext cursor row = (some h, engine')) :
    h ≤ engine'.objects.issued ∧ engine'.objects.IsFull h := by
  obtain ⟨r, c, seek, db, e, hf⟩ := finds_of_fetchNext hfetch
  refine ⟨hf.issued.ge, Objects.isFull_of_rowOf (hf.get?_row hs) (hf.get?_database hs) fun hw => ?_⟩
  exact ((hs.sound _ _ hf.scanned).2.2.2 hw e hf.mem).2

theorem Objects.isFull_lookupRow (hs : objects.Sound) {store : Handle} {r : Row}
    (hfound : objects.lookupRow store r = .ok (some h, objects')) :
    h ≤ objects'.issued ∧ objects'.IsFull h := by
  obtain ⟨target, -, hfound⟩ := bind_eq_ok.1 hfound
  obtain ⟨db, hdb, hfound⟩ := bind_eq_ok.1 hfound
  obtain ⟨key, -, hfound⟩ := bind_eq_ok.1 hfound
  obtain ⟨record?, hvisible, hfound⟩ := bind_eq_ok.1 hfound
  rw [database_eq_ok] at hdb
  cases record? with
  | none => cases hfound
  | some record =>
    cases hfound
    have hrow : (objects.add (.row (db.rowOf r.db record))).2.table.get? (objects.issued + 1) =
        some (.row (db.rowOf r.db record)) := by
      rw [get?_add, if_pos rfl]
    exact ⟨Nat.le_refl _, isFull_of_rowOf hrow (hs.get?_add hdb _) (hs.visible hdb hvisible)⟩

/-- A row that a lookup finds is full. -/
theorem isFull_lookup {store row : Handle} (hs : engine.objects.Sound)
    (hlookup : engine.lookup store row = (some h, engine')) :
    h ≤ engine'.objects.issued ∧ engine'.objects.IsFull h := by
  cases hrow : engine.objects.row row with
  | error refusal =>
    unfold lookup consume at hlookup
    rw [hrow] at hlookup
    cases hlookup
  | ok r =>
    have hlive := Objects.row_eq_ok.1 hrow
    rw [lookup_eq hlive] at hlookup
    split at hlookup
    · next found objects hfound =>
      cases hlookup
      exact Objects.isFull_lookupRow (hs.remove (Objects.outline?_of_get hlive)) hfound
    · cases hlookup

end Engine

/-! ### Predicates on a field -/

namespace Predicate

/-- The predicates on a field: those that criteria compile to, and those on the leading bytes. -/
inductive On (field : Field) (predicate : Predicate) : Prop where
  | compiled {criterion : Criterion} {order : ScanOrder} {leading : Bool}
    (compiles : compile field criterion order leading = .ok predicate) : On field predicate
  | starting {bytes : Bytes} {order : ScanOrder}
    (starts : startingWith field bytes order = .ok predicate) : On field predicate

end Predicate

/-- The test reads what fields of the type hold. -/
def Test.Suits (type : FieldType) : Test → Prop
  | .all => True
  | .signed _ => type.isString = false
  | .unsigned _ => type.isString = false
  | .bytes _ => type.isString = true

/-- A value of a cell lies where the cell lies. -/
theorem Test.locate?_of_read {test : Test} {type : FieldType} {cell : Cell} {kind : ValueKind}
    {value : Value} (hsuits : test.Suits type) (hfits : cell.Fits type)
    (hread : cell.read kind = some value) : test.locate? value = test.place? type cell := by
  cases test with
  | all => rfl
  | signed interval =>
    cases cell with
    | word w => cases kind <;> cases hread <;> simp [locate?, place?]
    | bytes b => cases hsuits.symm.trans hfits
  | unsigned interval =>
    cases cell with
    | word w => cases kind <;> cases hread <;> simp [locate?, place?]
    | bytes b => cases hsuits.symm.trans hfits
  | bytes interval =>
    cases cell with
    | word w => cases hfits.1.symm.trans hsuits
    | bytes b =>
      cases kind <;> cases hread
      rfl

namespace Predicate

variable {field : Field} {predicate : Predicate}

theorem On.field_eq (hon : predicate.On field) : predicate.field = field.name := by
  cases hon with
  | compiled hcompiles => exact (places_of_compile hcompiles).1
  | starting hstarts => exact (startingWith_eq_ok hstarts).2.1

theorem On.suits (hon : predicate.On field) : predicate.test.Suits field.type := by
  cases hon with
  | compiled hcompiles =>
    obtain ⟨test, hstands, rfl⟩ := stands_of_compile hcompiles
    dsimp only
    split
    · trivial
    · cases hstands with
      | bytes interval htype _ => exact htype ▸ rfl
      | signed interval htype _ _ => exact htype
      | unsigned interval htype _ _ => exact htype
  | starting hstarts =>
    have htype := (startingWith_eq_ok hstarts).1
    obtain ⟨⟨⟩, -, hstarts⟩ := bind_eq_ok.1 hstarts
    cases hstarts
    exact htype ▸ rfl

/-- A predicate judges a value of a cell as the cell. -/
theorem On.evaluate_of_read (hon : predicate.On field) {cell : Cell} {kind : ValueKind} {value : Value}
    (hfits : cell.Fits field.type) (hread : cell.read kind = some value) :
    predicate.evaluate value = predicate.judgeCell field.type cell :=
  congrArg predicate.judge (Test.locate?_of_read hon.suits hfits hread)

end Predicate

/-! ### Rows that were fetched -/

namespace Client

open Engine (Objects)

variable {world world' : World} {row : Row}

theorem Store.isFull_lookup {store : Store} {key : Row} (hr : world.Reachable)
    (hfound : store.lookup key world = (.ok row, world')) :
    world'.Reachable ∧ row.handle ≤ world'.engine.objects.issued ∧
      world'.engine.objects.IsFull row.handle := by
  obtain ⟨⟨⟩, middle, haccept, hrest⟩ := bind_eq_ok.1 hfound
  have hmiddle : middle.Reachable := by
    have hfollows := (plain_accept store key).tame world
    rw [show (store.accept key).run world = _ from haccept] at hfollows
    exact hfollows.reachable hr
  rw [lift_bind_apply] at hrest
  rcases hcall : call (.lookup store.handle key.handle) middle with ⟨_ | handle, after⟩
  · rw [hcall] at hrest
    dsimp only at hrest
    rw [lift_bind_apply] at hrest
    cases hmessage : (diagnostic? store.env after).1 <;> rw [hmessage] at hrest <;> cases hrest
  · rw [hcall] at hrest
    cases hrest
    exact ⟨(World.move_of_call hcall).reachable hmiddle,
      Engine.isFull_lookup hmiddle.sound (step_of_call hcall)⟩

namespace Cursor

variable {cursor cursor' : Cursor}

/-- The row that a round ends with was fetched in it. -/
theorem isFull_turn (hr : world.Reachable)
    (hturn : cursor.turn world = ((some (.ok (some row)), cursor'), world')) :
    row.handle ≤ world'.engine.objects.issued ∧ world'.engine.objects.IsFull row.handle := by
  cases turned_of_turn hturn with
  | ended hnone _ _ => exact absurd rfl (hnone row)
  | found _ hcall hobjects _ hanswers =>
    cases hanswers _ rfl
    rw [hobjects]
    exact Engine.isFull_fetchNext hr.sound (step_of_call hcall)

theorem isFull_advance : ∀ {fuel : Nat} {cursor : Cursor} {world : World}, world.Reachable →
    cursor.advance fuel world = ((.ok (some row), cursor'), world') →
      world'.Reachable ∧ row.handle ≤ world'.engine.objects.issued ∧
        world'.engine.objects.IsFull row.handle
  | 0, _, _, _, hadvance => by cases hadvance
  | fuel + 1, cursor, world, hr, hadvance => by
    have hfollows := tame_turn cursor world
    rw [advance_succ, bind_apply] at hadvance
    rcases hturn : cursor.turn world with ⟨⟨_ | answer, next⟩, middle⟩
    · rw [hturn] at hadvance hfollows
      exact isFull_advance (hfollows.reachable hr) hadvance
    · rw [hturn] at hadvance hfollows
      cases hadvance
      exact ⟨hfollows.reachable hr, isFull_turn hr hturn⟩

theorem isFull_next (hr : world.Reachable)
    (hnext : cursor.next world = ((.ok (some row), cursor'), world')) :
    world'.Reachable ∧ row.handle ≤ world'.engine.objects.issued ∧
      world'.engine.objects.IsFull row.handle := by
  unfold next at hnext
  split at hnext
  · cases hnext
  · rw [bind_apply, isClosed_apply] at hnext
    dsimp only at hnext
    split at hnext
    · cases hnext
    · exact isFull_advance hr hnext

end Cursor

/-- The rows that were fetched, by a lookup or by a cursor, at once or some time ago. -/
inductive Row.Fetched : World → Row → Prop where
  | lookedUp {world world' : World} {store : Store} {key row : Row} (reachable : world.Reachable)
    (found : store.lookup key world = (.ok row, world')) : Fetched world' row
  | next {world world' : World} {cursor cursor' : Cursor} {row : Row} (reachable : world.Reachable)
    (found : cursor.next world = ((.ok (some row), cursor'), world')) : Fetched world' row
  | later {world world' : World} {row : Row} (earlier : Fetched world row)
    (moves : world.Move world') : Fetched world' row

/-- A row that was fetched has a cell for each field, whatever was done since. -/
theorem Row.Fetched.isFull (hfetched : row.Fetched world) :
    world.Reachable ∧ row.handle ≤ world.engine.objects.issued ∧
      world.engine.objects.IsFull row.handle := by
  induction hfetched with
  | lookedUp hr hfound => exact Store.isFull_lookup hr hfound
  | next hr hfound => exact Cursor.isFull_next hr hfound
  | later _ hm ih =>
    obtain ⟨hr, hissued, hfull⟩ := ih
    have hsteady := hm.steady hr
    exact ⟨hm.reachable hr, hissued.trans hsteady.issued, hsteady.isFull hr.sound hissued hfull⟩

/-! ### Verdicts on rows -/

/-- **A predicate says the same of a row as of the row's value.** A row of a database that was fetched has
a value in every field. A predicate on the field says the same of the row as of the value, and if this is
an integer, also as of the integer of the other sign with the same bits. -/
theorem Row.judge_eq_evaluate {db : Database} {r : Engine.Row} {field : Field} {predicate : Predicate}
    (hd : db.Stands world) (hrow : db.Holds world row r) (hfetched : row.Fetched world)
    (hdistinct : (db.schema.fields.map (·.name)).Nodup)
    (hnames : ∀ field ∈ db.schema.fields, '\x00' ∉ field.name.toList ∧ field.name ≠ orderField ∧
      field.name ≠ prefixField ∧ field.name ≠ Engine.diagnosticKey)
    (hm : field ∈ db.schema.fields) (hon : predicate.On field) :
    (field.type.isString = true → ∃ b,
      (row.get field.name .str world).1 = some (.str b) ∧
        (row.judge predicate world).1 = predicate.evaluate (.str b)) ∧
    (field.type.isString = false → ∃ w : UInt64,
      (row.get field.name .int world).1 = some (.int w.toInt64) ∧
        (row.get field.name .uint world).1 = some (.uint w) ∧
        (row.judge predicate world).1 = predicate.evaluate (.int w.toInt64) ∧
        (row.judge predicate world).1 = predicate.evaluate (.uint w)) := by
  obtain ⟨hnul, horder, hstart, herror⟩ := hnames field hm
  have hs : world.Serves row.env := hrow.env ▸ hd.serves
  have haccessible := Field.accessible_of_name hnul horder hstart herror
  have htyped : WellTyped db.schema.fields := ⟨hdistinct, fun f hf hp => by
    obtain ⟨hnul, horder, hstart, herror⟩ := hnames f hf
    exact (Field.accessible_of_name hnul horder hstart herror).pseudo hp⟩
  obtain ⟨stored, hstored, -, hfields⟩ := hd.found
  have hdb : world.engine.objects.table.get? r.db = some (.database stored) := by
    rw [hrow.own]
    exact hstored
  obtain ⟨cell, hcell⟩ := Option.isSome_iff_exists.1 <|
    hfetched.isFull.2.2 r stored hrow.found hdb (hfields ▸ htyped) field (hfields ▸ hm)
  have hfits : cell.Fits field.type := hd.fits hrow htyped field hm cell hcell
  have hjudge : (row.judge predicate world).1 = predicate.judgeCell field.type cell :=
    (Row.judge_of_cell hs hrow.found hdb (hfields ▸ hdistinct) (hfields ▸ hm) hnul herror
      hon.field_eq hcell).1
  -- Whatever the cell reads as is a value of the field, with the verdict on the cell.
  have hagree : ∀ kind {value}, field.type.Takes kind → cell.read kind = some value →
      (row.get field.name kind world).1 = some value ∧
        (row.judge predicate world).1 = predicate.evaluate value := fun kind _ hkind hread => by
    rw [get_apply hd hrow (hd.fits hrow htyped) hdistinct hm haccessible hkind, hcell, hjudge,
      hon.evaluate_of_read hfits hread]
    exact ⟨hread, rfl⟩
  cases cell with
  | word w =>
    refine ⟨fun hstring => ?_, fun hint => ⟨w, ?_⟩⟩
    · cases hfits.1.symm.trans hstring
    · obtain ⟨hgetInt, hevaluateInt⟩ := hagree .int hint rfl
      obtain ⟨hgetUint, hevaluateUint⟩ := hagree .uint hint rfl
      exact ⟨hgetInt, hgetUint, hevaluateInt, hevaluateUint⟩
  | bytes b =>
    refine ⟨fun hstring => ⟨b, hagree .str hstring rfl⟩, fun hint => ?_⟩
    cases hint.symm.trans hfits

namespace Numbers

/-- The world with a row that holds the number 10. -/
def keyed : World := (call (.setWord 6 "number" 10) (call (.newRow 2) Numbers.world).2).2

/-- The predicate on the numbers above 3 and up to 10, compared without a sign. -/
def upToTen : Predicate where
  field := "number"
  test := .unsigned ⟨.excluded 3, .included 10⟩
  descending := false
  leading := true

/-- The number 10 is looked up, and passes in either sign. -/
theorem judge_ten : ∃ later,
    (Store.database database).lookup ⟨1, 6⟩ keyed = (.ok ⟨1, 7⟩, later) ∧
      Predicate.compile ⟨"number", .int .eight false, true⟩
        (.between (some (.uint 3)) (some (.uint 10))) .gt true = .ok upToTen ∧
      (Row.judge ⟨1, 7⟩ upToTen later).1 = upToTen.evaluate (.int 10) ∧
      (Row.judge ⟨1, 7⟩ upToTen later).1 = upToTen.evaluate (.uint 10) ∧
      upToTen.evaluate (.uint 10) = .pass := by
  have hkeyed : keyed.Reachable := (reachable_world.call _).call _
  obtain ⟨later, hlookup, hserves, hrow, hstored, hten⟩ : ∃ later,
      (Store.database database).lookup ⟨1, 6⟩ keyed = (.ok ⟨1, 7⟩, later) ∧ later.Serves 1 ∧
        later.engine.objects.table.get? 7 = some (.row (stored.rowOf 2 [.word 10])) ∧
        (∃ own : Engine.Database, later.engine.objects.table.get? 2 = some (.database own) ∧
          own.env = 1 ∧ own.fields = schema.fields) ∧
        (Row.get ⟨1, 7⟩ "number" .uint later).1 = some (.uint 10) :=
    ⟨_, rfl, ⟨hkeyed.call (.lookup 2 6), rfl, rfl⟩, rfl, ⟨_, rfl, rfl, rfl⟩, rfl⟩
  have hd : database.Stands later := ⟨hserves, hstored⟩
  have hholds : database.Holds later ⟨1, 7⟩ (stored.rowOf 2 [.word 10]) := ⟨rfl, hrow, rfl⟩
  have hcompiles : Predicate.compile ⟨"number", .int .eight false, true⟩
      (.between (some (.uint 3)) (some (.uint 10))) .gt true = .ok upToTen := rfl
  obtain ⟨-, hint⟩ := Row.judge_eq_evaluate hd hholds (.lookedUp hkeyed hlookup) (by decide)
    (by decide) List.mem_cons_self (.compiled hcompiles)
  obtain ⟨w, -, hget, hsigned, hunsigned⟩ := hint rfl
  rw [show Field.name _ = "number" from rfl, hten] at hget
  cases hget
  exact ⟨later, hlookup, hcompiles, hsigned, hunsigned, rfl⟩

end Numbers

end Client
end RowStore
