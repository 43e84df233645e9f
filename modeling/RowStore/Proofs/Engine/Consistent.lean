/-
# Consistent objects

In every state that calls lead to, whatever handles they are made with, objects refer to live ones, and
what is stored or pending fits the fields of its database, if these are told apart by name. Handles are
issued in order, each to an object that lives at the end of the call. A handle whose object is gone
refers to nothing ever after: what calls put back they put in the place of a live object.

Key definitions: `Engine.Objects.Consistent`, `Engine.Objects.Buries`.
Key theorems: `Engine.Objects.Sound.consistent`, `Engine.Objects.Consistent.toNat_lt`,
`Engine.buries_run`, `Engine.consistent_run`.
-/
import RowStore.Proofs.Engine.Contents
import RowStore.Proofs.Engine.Ending

namespace RowStore.Engine

namespace Objects

variable {objects objects' : Objects} {h : Handle}

/-! ### What objects refer to and store -/

/-- What objects refer to is live, names lead to databases and back, databases have their key fields
first, and what is stored or pending in a live database fits its fields. -/
structure Consistent (objects : Objects) : Prop where
  issued : ∀ h object, objects.table.get? h = some object → 0 < h ∧ h ≤ objects.issued
  row : ∀ h r, objects.table.get? h = some (.row r) →
    ∃ db : Database, objects.table.get? r.db = some (.database db) ∧ r.Fits db.fields
  cursor : ∀ h c, objects.table.get? h = some (.cursor c) →
    ∃ env, objects.table.get? c.env = some (.environment env)
  transaction : ∀ h tx, objects.table.get? h = some (.transaction tx) →
    ∃ env, objects.table.get? tx.env = some (.environment env)
  database : ∀ h db, objects.table.get? h = some (.database db) →
    ∃ env, objects.table.get? db.env = some (.environment env)
  named : ∀ h env, objects.table.get? h = some (.environment env) →
    ∀ name d, env.databases.get? name = some d → name.isEmpty = false ∧ name.contains '.' = false ∧
      ∃ db : Database, objects.table.get? d = some (.database db) ∧ db.env = h ∧ db.name = name
  fields : ∀ h db, objects.table.get? h = some (.database db) →
    ∃ keys values : List Field, db.fields = keys ++ values ∧ keys ≠ [] ∧
      (∀ field ∈ keys, field.isKey = true) ∧ ∀ field ∈ values, field.isKey = false
  records : ∀ h db, objects.table.get? h = some (.database db) → ∀ e ∈ db.records.entries,
    Key.Fits (keyTypes db.fields) e.1 ∧ Record.Fits db.fields e.2
  pending : ∀ h tx, objects.table.get? h = some (.transaction tx) → ∀ place record?,
    tx.writes.get? place = some record? → ∀ db : Database,
      objects.table.get? place.db = some (.database db) →
        Key.Fits (keyTypes db.fields) place.key ∧
          ∀ record, record? = some record → Record.Fits db.fields record

/-- What is stored in an integer field is a word below the size of the width, and so is the part of the
key, which is marked with the direction of the field. -/
theorem Consistent.toNat_lt (hc : objects.Consistent) {db : Database}
    (hdb : objects.table.get? h = some (.database db)) {e : Key × Record}
    (he : e ∈ db.records.entries) {field : Field} {width : Width} {reversed : Bool}
    (htype : field.type = .int width reversed) (i : Nat) :
    (db.fields[i]? = some field →
      ∃ w : UInt64, e.2[i]? = some (.word w) ∧ w.toNat < width.size) ∧
    (db.keyFields[i]? = some field →
      ∃ w : UInt64, e.1[i]? = some (if reversed then .down w else .up w) ∧
        w.toNat < width.size) := by
  obtain ⟨hkey, hrecord⟩ := hc.records h db hdb e he
  constructor
  · intro hfield
    obtain ⟨w, hcell, hcut⟩ := hrecord.getElem?_word hfield htype
    rw [htype] at hcut
    exact ⟨w, hcell, FieldType.truncate_eq_self_iff.1 hcut⟩
  · intro hfield
    have hkind : (keyTypes db.fields)[i]? = some (.int width reversed) := by
      rw [← htype]
      exact List.getElem?_map.trans (congrArg (Option.map (·.type)) hfield)
    obtain ⟨part, hpart, hfits⟩ := hkey.getElem?_part hkind
    obtain ⟨w, rfl, hlt⟩ := KeyPart.fits_int_iff.1 hfits
    exact ⟨w, hpart, hlt⟩

/-- A sound table whose databases have well-named fields is consistent. -/
theorem Sound.consistent (hs : objects.Sound)
    (hnamed : ∀ h db, objects.table.get? h = some (.database db) → WellNamed db.fields) :
    objects.Consistent where
  issued := hs.live
  row h r hr := by
    obtain ⟨env, name, fields, houtline, hfits⟩ := hs.sound h _ hr
    obtain ⟨db, hdb, -, -, rfl⟩ := outline?_eq_database houtline
    exact ⟨db, hdb, hfits (hnamed _ db hdb).wellTyped⟩
  cursor h c hc := outline?_eq_environment (hs.sound h _ hc)
  transaction h tx htx := outline?_eq_environment (hs.sound h _ htx).1
  database h db hdb := outline?_eq_environment (hs.sound h _ hdb).1
  named h env henv name d hd := by
    obtain ⟨hempty, hdot, fields, houtline⟩ := hs.sound h _ henv name d hd
    obtain ⟨db, hdb, hown, hname, -⟩ := outline?_eq_database houtline
    exact ⟨hempty, hdot, db, hdb, hown, hname⟩
  fields h db hdb := by
    obtain ⟨-, hsplit, hany, -⟩ := hs.sound h _ hdb
    obtain ⟨field, hfield, hkey⟩ := List.any_eq_true.1 hany
    refine ⟨_, _, hsplit, List.ne_nil_of_mem (List.mem_filter.2 ⟨hfield, hkey⟩), ?_, ?_⟩
    · exact fun field hm => (List.mem_filter.1 hm).2
    · intro field hm
      simpa using (List.mem_filter.1 hm).2
  records h db hdb := (hs.sound h _ hdb).2.2.2 (hnamed h db hdb).wellTyped
  pending h tx htx place record? hwrite db hdb :=
    ((hs.sound h _ htx).2 place record? hwrite).2 _ _ _ (outline?_of_database hdb)
      (hnamed _ db hdb).wellTyped

/-! ### Handles of objects that are gone -/

/-- No handle is taken back: those whose objects are gone refer to nothing afterwards. -/
structure Buries (objects objects' : Objects) : Prop where
  issued : objects.issued ≤ objects'.issued
  gone : ∀ h, h ≤ objects.issued → objects.table.get? h = none → objects'.table.get? h = none

theorem Steady.buries (hs : objects.Steady objects') : objects.Buries objects' :=
  ⟨hs.issued, fun _ => hs.gone⟩

end Objects

/-! ### Calls -/

section Calls

variable {engine : Engine} {functions : Hook → MergeFn}

/-- An object that is made lives. -/
theorem live_attempt {result : Except Refusal (Handle × Objects)}
    (hr : ∀ h objects, result = .ok (h, objects) → ∃ object, objects.table.get? h = some object)
    {h : Handle} (hanswer : (engine.attempt result).1 = some h) :
    ∃ object, (engine.attempt result).2.objects.table.get? h = some object := by
  cases result with
  | error refusal => cases hanswer
  | ok made =>
    cases hanswer
    exact hr _ _ rfl

theorem live_add (objects : Objects) (object : Object) :
    ∃ object', (objects.add object).2.table.get? (objects.add object).1 = some object' :=
  ⟨object, (Objects.get?_add ..).trans (if_pos rfl)⟩

theorem live_lookup {store row h : Handle} (hanswer : (engine.lookup store row).1 = some h) :
    ∃ object, (engine.lookup store row).2.objects.table.get? h = some object := by
  cases hrow : engine.objects.row row with
  | error refusal =>
    have hnone : (engine.lookup store row).1 = none := by
      unfold lookup consume
      rw [hrow]
      rfl
    rw [hnone] at hanswer
    cases hanswer
  | ok r =>
    rw [lookup_eq (Objects.row_eq_ok.1 hrow)] at hanswer ⊢
    cases hlookup : (engine.objects.remove row).lookupRow store r with
    | error refusal =>
      rw [hlookup] at hanswer
      cases hanswer
    | ok found =>
      obtain ⟨found?, objects⟩ := found
      rw [hlookup] at hanswer
      obtain rfl : found? = some h := hanswer
      obtain ⟨target, -, hlookup⟩ := bind_eq_ok.1 hlookup
      obtain ⟨db, -, hlookup⟩ := bind_eq_ok.1 hlookup
      obtain ⟨key, -, hlookup⟩ := bind_eq_ok.1 hlookup
      obtain ⟨record?, -, hlookup⟩ := bind_eq_ok.1 hlookup
      cases record? <;> cases hlookup
      exact live_add _ _

theorem Objects.live_advance {objects objects' : Objects} {ch h : Handle} {c : Cursor} {seek : Seek}
    (hadvance : objects.advance ch c seek = (.ok (some h), objects')) :
    ∃ object, objects'.table.get? h = some object := by
  unfold advance at hadvance
  split at hadvance
  · cases hadvance
  · split at hadvance <;> cases hadvance
    rw [get?_put]
    split
    · exact ⟨_, rfl⟩
    · exact live_add _ _

theorem live_fetchNext {cursor row h : Handle}
    (hanswer : (engine.fetchNext cursor row).1 = some h) :
    ∃ object, (engine.fetchNext cursor row).2.objects.table.get? h = some object := by
  unfold fetchNext at hanswer ⊢
  split at hanswer
  · cases hanswer
  · next r hrow =>
    split at hanswer
    · next found? objects hfetch =>
      obtain rfl : found? = some h := hanswer
      show ∃ object, objects.table.get? h = some object
      unfold Objects.fetchNext at hfetch
      split at hfetch
      · cases hfetch
      · split at hfetch
        · cases hfetch
        · exact Objects.live_advance hfetch
        · split at hfetch
          · cases hfetch
          · exact Objects.live_advance hfetch
    · cases hanswer

/-- A handle that a call answers is that of a live object. -/
theorem live_of_answer (hs : engine.objects.Sound) (functions : Hook → MergeFn)
    (action : Action .handle) {h : Handle}
    (hanswer : (engine.step functions action).1 = some h) :
    ∃ object, (engine.step functions action).2.objects.table.get? h = some object := by
  cases action with
  | newEnvironment =>
    refine live_attempt (fun _ _ hmade => ?_) hanswer
    cases hmade
    exact live_add _ _
  | resolve env path =>
    have hresolve : (engine.objects.resolve env path).toOption.join = some h :=
      (inquire_fst _).symm.trans hanswer
    show ∃ object, (engine.inquire _).2.objects.table.get? h = some object
    rw [inquire_objects]
    cases hfound : engine.objects.resolve env path with
    | error refusal =>
      rw [hfound] at hresolve
      cases hresolve
    | ok found? =>
      rw [hfound] at hresolve
      obtain rfl : found? = some h := hresolve
      obtain ⟨own, hown, hfound⟩ := bind_eq_ok.1 hfound
      split at hfound
      · have hname : own.databases.get? _ = some h := Except.ok.inj hfound
        obtain ⟨-, -, fields, houtline⟩ :=
          hs.sound env _ (Objects.environment_eq_ok.1 hown) _ _ hname
        obtain ⟨db, hdb, -⟩ := Objects.outline?_eq_database houtline
        exact ⟨_, hdb⟩
      · cases hfound
  | newRow d =>
    refine live_attempt (fun _ _ hmade => ?_) hanswer
    obtain ⟨_, -, hmade⟩ := bind_eq_ok.1 hmade
    cases hmade
    exact live_add _ _
  | lookup store row => exact live_lookup hanswer
  | newCursor env =>
    refine live_attempt (fun _ _ hmade => ?_) hanswer
    obtain ⟨_, -, hmade⟩ := bind_eq_ok.1 hmade
    cases hmade
    exact live_add _ _
  | fetchNext cursor row => exact live_fetchNext hanswer
  | begin env =>
    refine live_attempt (fun _ _ hmade => ?_) hanswer
    obtain ⟨_, -, hmade⟩ := bind_eq_ok.1 hmade
    cases hmade
    exact live_add _ _

end Calls

/-! ### Runs -/

/-- What a run buries stays buried. -/
theorem buries_run (requests : List Request) {engine : Engine} (h : engine.Reachable) :
    engine.objects.Buries (engine.run requests).objects :=
  (steady_run h requests).buries

/-- After every run of calls the objects are consistent if the live databases have well-named fields; and
a handle that was issued, as every handle that a call answers was, and whose object is gone refers to
nothing after any further calls. -/
theorem consistent_run (requests : List Request)
    (hnamed : ∀ d db, (run {} requests).objects.table.get? d = some (.database db) →
      WellNamed db.fields) :
    (run {} requests).objects.Consistent ∧
      (∀ (functions : Hook → MergeFn) (action : Action .handle) h,
        ((run {} requests).step functions action).1 = some h →
          h ≤ ((run {} requests).step functions action).2.objects.issued) ∧
      ∀ h, h ≤ (run {} requests).objects.issued →
        (run {} requests).objects.table.get? h = none → ∀ later : List Request,
          (run {} (requests ++ later)).objects.table.get? h = none := by
  have hreachable := Reachable.start.run requests
  refine ⟨hreachable.sound.consistent hnamed, fun functions action h hanswer => ?_,
    fun h hle hgone later => ?_⟩
  · obtain ⟨object, hlive⟩ := live_of_answer hreachable.sound functions action hanswer
    exact ((hreachable.step functions action).sound.live h object hlive).2
  · rw [run_append]
    exact (buries_run later hreachable).gone h hle hgone

namespace Octets

open Numbers (idle)

/-- The key field of the database, of one byte. -/
def octet : Field := ⟨"octet", .int .one false, true⟩

/-- The calls that declare the database and put a word of more than one byte. -/
def putting : List Request := [
  ⟨idle, .newEnvironment⟩, ⟨idle, .declare 1 "octets" [octet]⟩, ⟨idle, .openEnvironment 1⟩,
  ⟨idle, .newRow 2⟩, ⟨idle, .setWord 3 "octet" 263⟩, ⟨idle, .put 2 3⟩]

/-- The database once the word is put, cut to the byte of its field. -/
def stored : Database where
  env := 1
  name := "octets"
  fields := [octet]
  records := Table.ofList [([.up 7], [.word 7])]

theorem objects_putting : (run {} putting).objects = {
    issued := 3
    table := Table.ofList [
      (1, .environment { opened := true, databases := Table.ofList [("octets", 2)] }),
      (2, .database stored)] } := by
  show (run ((newEnvironment {}).2.attemptFlag
    ((newEnvironment {}).2.objects.declare 1 "octets" [octet])).2 (putting.drop 2)).objects = _
  rw [Objects.declare_eq (by simp)]
  rfl

/-- The row of the word is written, and nothing is under its handle any more. -/
theorem row_stays_gone : (run {} putting).objects.Consistent ∧
    (run {} putting).objects.table.get? 2 = some (.database stored) ∧
    ∀ later : List Request,
      (run {} (putting ++ later)).objects.table.get? 3 = none := by
  obtain ⟨hconsistent, -, hgone⟩ := consistent_run putting fun d db hdb => by
    rw [objects_putting, Table.get?_eq_some_iff] at hdb
    have hstored : db = stored := by
      cases hdb with
      | tail _ hdb => exact Object.database.inj (Prod.ext_iff.1 (List.mem_singleton.1 hdb)).2
    rw [hstored]
    exact ⟨by decide, by decide⟩
  rw [objects_putting] at hconsistent hgone ⊢
  exact ⟨hconsistent, rfl, hgone 3 (Nat.le_refl 3) rfl⟩

end Octets

end RowStore.Engine
