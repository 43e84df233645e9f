/-
# Advancing a cursor comes to an end

The loop of `next` fetches until a row matches. Nothing in the loop counts down: what gets less is the
records that the engine's cursor has ahead. A round makes one fetch at most, and if it is not the last
there are fewer records ahead after it. A cursor is on its way through its database from when it is
opened, whatever others do between its rounds, so the loop ends by itself, and `next` answers as the
loop does.

Key definitions: `World.fetches`, `Client.Cursor.turn`, `Client.Cursor.Loops`,
`Client.Cursor.Returns`, `Client.Cursor.At`, `Client.Cursor.Underway`.
Key theorems: `Client.Cursor.Underway.turn`, `Client.Cursor.Underway.advance`,
`Client.Cursor.At.underway`, `Client.Cursor.next_returns`.
-/
import RowStore.Proofs.Client.Custody
import RowStore.Proofs.Client.Matching
import RowStore.Proofs.Client.Telling
import RowStore.Proofs.Engine.Progress

namespace RowStore

open Engine (Objects)

/-! ### Counting fetches -/

/-- The call reads a field. -/
def Engine.Action.IsReading : Engine.Action kind → Prop
  | .getBytes .. => True
  | .getWord .. => True
  | _ => False

/-- Reading a field changes no object. -/
theorem Engine.Action.IsReading.step_objects {engine : Engine} {functions : Engine.Hook → MergeFn}
    {kind : Engine.AnswerKind} {action : Engine.Action kind} (hreading : action.IsReading) :
    (engine.step functions action).2.objects = engine.objects := by
  cases action with
  | getBytes h name =>
    show (engine.getBytes h name).2.objects = engine.objects
    unfold Engine.getBytes
    split
    · rfl
    · exact Engine.inquire_objects _
  | getWord h name => exact Engine.inquire_objects _
  | _ => exact hreading.elim

namespace World

variable {kind : Engine.AnswerKind}

/-- How many fetches reached the engine. -/
def fetches (world : World) : Nat :=
  world.calls.countP fun call => call.2.primitive == .fetchNext

theorem fetches_call_le (world : World) (action : Engine.Action kind) :
    (Client.call action world).2.fetches ≤ world.fetches + 1 := by
  have hreach : ∀ world : World, (world.reach action).2.fetches ≤ world.fetches + 1 := fun world => by
    show List.countP _ (_ :: world.calls) ≤ _
    rw [List.countP_cons]
    exact Nat.add_le_add_left (by split <;> omega) _
  unfold Client.call
  split
  · exact hreach world
  · exact hreach (world.plan _ _)
  · exact Nat.le_succ _

/-- Only a call of the primitive is a fetch. -/
theorem fetches_call (world : World) (action : Engine.Action kind)
    (hother : action.primitive ≠ .fetchNext) :
    (Client.call action world).2.fetches = world.fetches := by
  have hreach : ∀ world : World, (world.reach action).2.fetches = world.fetches := fun world => by
    show List.countP _ (_ :: world.calls) = _
    exact List.countP_cons_of_neg (by simpa using hother)
  unfold Client.call
  split
  · exact hreach world
  · exact hreach (world.plan _ _)
  · rfl

end World

namespace Client

variable {world world' : World}

/-- A routine that only reads changes no object and fetches nothing. -/
theorem Routine.reads {α : Type} {x : Client α} (hx : Routine (fun call => call.2.IsReading) x)
    (world : World) : (x world).2.engine.objects = world.engine.objects ∧
      (x world).2.fetches = world.fetches := by
  induction hx generalizing world with
  | pure a => exact ⟨rfl, rfl⟩
  | @bind _ _ x f _ _ ihx ihf =>
    obtain ⟨hobjects, hfetches⟩ := ihx world
    obtain ⟨hobjects', hfetches'⟩ := ihf (x world).1 (x world).2
    exact ⟨hobjects'.trans hobjects, hfetches'.trans hfetches⟩
  | @call _ action hreading =>
    refine ⟨?_, world.fetches_call action ?_⟩
    · unfold Client.call
      split
      · exact hreading.step_objects
      · exact hreading.step_objects
      · rfl
    · intro hfetch
      cases action <;> first | exact hreading.elim | cases hfetch
  | @withName _ env key body _ ihbody =>
    obtain ⟨hobjects, hfetches⟩ := ihbody _ (acquireName env key world).2
    exact ⟨hobjects, hfetches⟩
  | isClosed env => exact ⟨rfl, rfl⟩
  | fetchBound => exact ⟨rfl, rfl⟩

/-- Releasing a row fetches nothing. -/
theorem Row.fetches_release (row : Row) (world : World) :
    (row.release world).2.fetches = world.fetches := by
  unfold release
  rw [bind_apply, isClosed_apply]
  dsimp only
  cases (world.link row.env).closed with
  | true => rfl
  | false => exact world.fetches_call (.destroy row.handle) nofun

/-- A cursor scans what it did after a call that does not advance it. -/
theorem traverses_call (hr : world.Reachable) {kind : Engine.AnswerKind}
    (action : Engine.Action kind) {cursor d : Handle} (halone : ¬action.advances cursor)
    (hle : cursor ≤ world.engine.objects.issued)
    (ht : world.engine.objects.Traverses cursor d) :
    (call action world).2.engine.objects.Traverses cursor d := by
  intro c seek hget hscanning
  refine ht c seek ?_ hscanning
  unfold call at hget
  split at hget
  · exact Engine.cursor_step hr.sound _ halone hle hget
  · exact Engine.cursor_step hr.sound _ halone hle hget
  · exact hget

/-- A row that is made of a database is one of it. -/
theorem isRowOf_newRow {db : Database} {row : Row} (hr : world.Reachable)
    (hnew : db.newRow world = (.ok row, world')) :
    world'.Reachable ∧ row.handle ≤ world'.engine.objects.issued ∧
      world'.engine.objects.IsRowOf row.handle db.handle := by
  obtain ⟨⟨⟩, opened, hopen, hrest⟩ := bind_eq_ok.1 hnew
  obtain rfl := ensureOpen_eq_ok hopen
  obtain ⟨handle, after, hmakes, hrest⟩ := bind_eq_ok.1 hrest
  cases hrest
  have hcall := call_of_handleOrRefused hmakes
  have hreachable := (World.move_of_call hcall).reachable hr
  have hget : world'.engine.objects.table.get? handle = some (.row { db := db.handle }) :=
    Engine.get?_of_made (step_of_call hcall)
  refine ⟨hreachable, (hreachable.sound.live handle _ hget).2, fun r hrow => ?_⟩
  rw [show _ = some (Engine.Object.row { db := db.handle }) from hget] at hrow
  cases hrow
  rfl

namespace Cursor

variable {cursor cursor' : Cursor} {db : Database} {criteria : CriteriaSet} {d : Handle}
  {answer? : Option (Except Failure (Option Row))}

/-! ### The loop -/

/-- One round of the loop of `next`: its answer, if it is the last, and the cursor after it. -/
def turn (cursor : Cursor) : Client (Option (Except Failure (Option Row)) × Cursor) := do
  match cursor.takeRow with
  | (none, cursor) => return (some (.ok none), { cursor with exhausted := true })
  | (some previous, cursor) =>
    match ← call (.fetchNext cursor.handle previous.handle) with
    | none =>
      let cursor := { cursor with exhausted := true }
      match ← diagnostic? cursor.env with
      | some message => return (some (.error (.engine "fetch next row" message)), cursor)
      | none => return (some (.ok none), cursor)
    | some handle =>
      let row : Row := ⟨cursor.env, handle⟩
      match ← cursor.judge row with
      | .pass => return (some (.ok (some row)), { cursor with current? := some row })
      | .skip => return (none, { cursor with current? := some row })
      | .stop =>
        row.release
        return (some (.ok none), { cursor with exhausted := true })

/-- What the loop of `next` comes to if nothing bounds it. -/
inductive Loops : World → Cursor → Except Failure (Option Row) × Cursor → World → Prop where
  | last {world world' : World} {cursor cursor' : Cursor} {answer : Except Failure (Option Row)}
    (turn : cursor.turn world = ((some answer, cursor'), world')) :
    Loops world cursor (answer, cursor') world'
  | again {world middle world' : World} {cursor next : Cursor}
    {result : Except Failure (Option Row) × Cursor}
    (turn : cursor.turn world = ((none, next), middle)) (rest : Loops middle next result world') :
    Loops world cursor result world'

/-- What `next` returns if nothing bounds its loop. -/
inductive Returns (world : World) (cursor : Cursor) :
    Except Failure (Option Row) × Cursor → World → Prop where
  | ended (ended : cursor.closed = true ∨ cursor.exhausted = true) :
    Returns world cursor (.ok none, cursor) world
  | environmentClosed (unfinished : cursor.closed = false ∧ cursor.exhausted = false)
    (closed : (world.link cursor.env).closed = true) :
    Returns world cursor (.error .environmentClosed, cursor) world
  | looped {world' : World} {result : Except Failure (Option Row) × Cursor}
    (unfinished : cursor.closed = false ∧ cursor.exhausted = false)
    (isOpen : (world.link cursor.env).closed = false) (loops : Loops world cursor result world') :
    Returns world cursor result world'

/-- An advance goes round the loop as often as it is let. -/
theorem advance_succ (fuel : Nat) (cursor : Cursor) : cursor.advance (fuel + 1) = (do
    match ← cursor.turn with
    | (some answer, cursor) => return (answer, cursor)
    | (none, cursor) => cursor.advance fuel) := by
  funext world
  rw [advance]
  unfold turn
  rcases cursor.takeRow with ⟨_ | previous, cursor⟩
  · rfl
  · simp only [bind_apply]
    cases (call (.fetchNext cursor.handle previous.handle) world).1 with
    | none =>
      simp only [bind_apply]
      cases (diagnostic? cursor.env (call (.fetchNext cursor.handle previous.handle) world).2).1 <;>
        rfl
    | some handle =>
      simp only [bind_apply]
      cases (cursor.judge ⟨cursor.env, handle⟩
        (call (.fetchNext cursor.handle previous.handle) world).2).1 <;> rfl

theorem tame_turn (cursor : Cursor) : Tame cursor.turn := by
  intro world
  have hone : (cursor.advance 1 world).2 = (cursor.turn world).2 := by
    rw [advance_succ, bind_apply]
    rcases cursor.turn world with ⟨⟨_ | answer, next⟩, after⟩ <;> rfl
  rw [← hone]
  exact (plain_advance 1 cursor).tame world

/-- What a round comes to. It ends the loop with no row, and has fetched once at most; or it has found a
row, which the cursor holds and the round has only read. -/
inductive Turned (world : World) (cursor : Cursor) :
    Option (Except Failure (Option Row)) → Cursor → World → Prop where
  | ended {answer : Except Failure (Option Row)} {cursor' : Cursor} {world' : World}
    (none : ∀ row, answer ≠ .ok (some row)) (exhausted : cursor'.exhausted = true)
    (fetches : world'.fetches ≤ world.fetches + 1) : Turned world cursor (some answer) cursor' world'
  | found {previous : Row} {taken : Cursor} {found : Handle} {fetched world' : World}
    {answer? : Option (Except Failure (Option Row))}
    (took : cursor.takeRow = (some previous, taken))
    (call : call (.fetchNext taken.handle previous.handle) world = (some found, fetched))
    (objects : world'.engine.objects = fetched.engine.objects)
    (fetches : world'.fetches = fetched.fetches)
    (answers : ∀ answer ∈ answer?, answer = .ok (some ⟨taken.env, found⟩)) :
    Turned world cursor answer? { taken with current? := some ⟨taken.env, found⟩ } world'

theorem turned_of_turn (hturn : cursor.turn world = ((answer?, cursor'), world')) :
    Turned world cursor answer? cursor' world' := by
  unfold turn at hturn
  rcases htake : cursor.takeRow with ⟨_ | previous, taken⟩
  · rw [htake] at hturn
    cases hturn
    exact .ended nofun rfl (Nat.le_succ _)
  rw [htake] at hturn
  dsimp only at hturn
  rw [bind_apply] at hturn
  have hfetches := world.fetches_call_le (.fetchNext taken.handle previous.handle)
  rcases hcall : call (.fetchNext taken.handle previous.handle) world with ⟨_ | found, fetched⟩
  · rw [hcall] at hturn hfetches
    dsimp only at hturn
    rw [bind_apply] at hturn
    have hdiagnostic : Routine (fun call => call.2.IsReading) (diagnostic? taken.env) :=
      routine_diagnostic taken.env trivial
    have hread := hdiagnostic.reads fetched
    rcases hmessage : diagnostic? taken.env fetched with ⟨_ | message, last⟩
    all_goals
      rw [hmessage] at hturn hread
      cases hturn
      exact .ended nofun rfl (hread.2.trans_le hfetches)
  · rw [hcall] at hturn hfetches
    dsimp only at hturn
    rw [bind_apply] at hturn
    have hjudge : Routine (fun call => call.2.IsReading) (taken.judge ⟨taken.env, found⟩) :=
      routine_judge (fun _ => trivial) (fun _ => trivial) taken
    have hread := hjudge.reads fetched
    rcases hverdict : taken.judge ⟨taken.env, found⟩ fetched with ⟨_ | _ | _, judged⟩
    all_goals
      rw [hverdict] at hturn hread
      cases hturn
    · exact .found htake hcall hread.1 hread.2 fun answer hanswer => (Option.some.inj hanswer).symm
    · exact .found htake hcall hread.1 hread.2 nofun
    · exact .ended nofun rfl
        ((Row.fetches_release _ judged).trans_le (hread.2.trans_le hfetches))

theorem next_eq_of_open (hunfinished : cursor.closed = false ∧ cursor.exhausted = false)
    (hopen : (world.link cursor.env).closed = false) :
    cursor.next world = cursor.advance (world.engine.objects.recordCount + 1) world := by
  unfold next
  rw [hunfinished.1, hunfinished.2]
  simp only [Bool.or_self, Bool.false_eq_true, if_false]
  rw [bind_apply, isClosed_apply, hopen]
  rfl

/-! ### Rounds -/

/-- The cursor is on its way through a database: what the engine's cursor scans is the database, and so
are the rows to fetch from rows of it. -/
structure Underway (cursor : Cursor) (d : Handle) (world : World) : Prop where
  reachable : world.Reachable
  issued : cursor.handle ≤ world.engine.objects.issued
  traverses : world.engine.objects.Traverses cursor.handle d
  rows : ∀ row ∈ cursor.rows, row.handle ≤ world.engine.objects.issued ∧
    world.engine.objects.IsRowOf row.handle d

/-- A cursor stays on its way as long as what it scans does not change. -/
theorem Underway.of_steady (h : cursor.Underway d world) (hr : world'.Reachable)
    (hs : world.engine.objects.Steady world'.engine.objects)
    (ht : world'.engine.objects.Traverses cursor.handle d) : cursor.Underway d world' where
  reachable := hr
  issued := h.issued.trans hs.issued
  traverses := ht
  rows row hm := by
    obtain ⟨hissued, hrow⟩ := h.rows row hm
    exact ⟨hissued.trans hs.issued, hs.isRowOf hissued hrow⟩

theorem Underway.of_objects (h : cursor.Underway d world) (hr : world'.Reachable)
    (hobjects : world'.engine.objects = world.engine.objects) : cursor.Underway d world' :=
  h.of_steady hr (hobjects ▸ .refl _) (hobjects ▸ h.traverses)

/-- A cursor that found a row holds it in place of the one that it fetched from, and has less ahead. -/
theorem Underway.fetched (h : cursor.Underway d world) {previous : Row} {found : Handle}
    (htake : cursor.takeRow = (some previous, cursor'))
    (hcall : call (.fetchNext cursor'.handle previous.handle) world = (some found, world'))
    (env : Handle) : { cursor' with current? := some ⟨env, found⟩ }.Underway d world' ∧
      (world'.engine.objects.ahead cursor.handle d).length <
        (world.engine.objects.ahead cursor.handle d).length := by
  obtain ⟨hrows, hcurrent, -, hhandle, -⟩ := rows_of_takeRow htake
  have hmove := World.move_of_call hcall
  have hreachable := hmove.reachable h.reachable
  have hsteady := hmove.steady h.reachable
  have hstep := step_of_call hcall
  rw [hhandle] at hstep
  have hprevious : previous ∈ cursor.rows := by
    rw [hrows]
    exact List.mem_cons_self
  obtain ⟨htraverses, hissued, hrow, hless⟩ := Engine.length_ahead_fetchNext h.reachable.sound
    h.traverses (h.rows previous hprevious).2 hstep
  refine ⟨⟨hreachable, ?_, ?_, fun row hm => ?_⟩, hless⟩
  · show cursor'.handle ≤ _
    rw [hhandle]
    exact h.issued.trans hsteady.issued
  · show world'.engine.objects.Traverses cursor'.handle d
    rw [hhandle]
    exact htraverses
  · rcases List.mem_cons.1 (show row ∈ ⟨env, found⟩ :: cursor'.seed?.toList from hm) with rfl | hseed
    · exact ⟨hissued, hrow⟩
    · have hkept : row ∈ cursor.rows := by
        rw [hrows]
        refine List.mem_append_right _ ?_
        unfold Cursor.rows
        rw [hcurrent]
        exact hseed
      obtain ⟨hlive, hold⟩ := h.rows row hkept
      exact ⟨hlive.trans hsteady.issued, hsteady.isRowOf hlive hold⟩

/-- A round fetches once at most. Unless the cursor is exhausted then, which ends the loop, it is still
on its way, with less ahead. -/
theorem Underway.turn (h : cursor.Underway d world)
    (hturn : cursor.turn world = ((answer?, cursor'), world')) :
    world'.Reachable ∧ world'.fetches ≤ world.fetches + 1 ∧
      (answer? ≠ none ∧ cursor'.exhausted = true ∨
        cursor'.handle = cursor.handle ∧ cursor'.Underway d world' ∧
          (world'.engine.objects.ahead cursor.handle d).length <
            (world.engine.objects.ahead cursor.handle d).length) := by
  have hreachable : world'.Reachable := by
    have hfollows := tame_turn cursor world
    rw [hturn] at hfollows
    exact hfollows.reachable h.reachable
  cases turned_of_turn hturn with
  | ended _ hexhausted hfetches => exact ⟨hreachable, hfetches, .inl ⟨nofun, hexhausted⟩⟩
  | @found previous taken found fetched _ _ htook hcall hobjects hfetches _ =>
    obtain ⟨-, -, -, hhandle, -⟩ := rows_of_takeRow htook
    obtain ⟨hunderway, hless⟩ := h.fetched htook hcall taken.env
    have honce := world.fetches_call_le (.fetchNext taken.handle previous.handle)
    rw [hcall] at honce
    refine ⟨hreachable, hfetches.trans_le honce, .inr ⟨hhandle, ?_, ?_⟩⟩
    · exact hunderway.of_objects hreachable hobjects
    · rw [hobjects]
      exact hless

/-! ### The whole loop -/

/-- An advance that may go round once more than there are records ahead comes to what the loop comes to.
It fetches at most once for each of the records, and once more. -/
theorem Underway.advance : ∀ {fuel : Nat} {cursor : Cursor} {world : World}, cursor.Underway d world →
    (world.engine.objects.ahead cursor.handle d).length < fuel →
      Loops world cursor (cursor.advance fuel world).1 (cursor.advance fuel world).2 ∧
        (cursor.advance fuel world).2.fetches ≤
          world.fetches + (world.engine.objects.ahead cursor.handle d).length + 1 ∧
        (cursor.advance fuel world).2.Reachable ∧
        ((cursor.advance fuel world).1.2.exhausted = false →
          (cursor.advance fuel world).1.2.Underway d (cursor.advance fuel world).2)
  | 0, _, _, _, hfuel => absurd hfuel (Nat.not_lt_zero _)
  | fuel + 1, cursor, world, h, hfuel => by
    rw [advance_succ, bind_apply]
    rcases hturn : cursor.turn world with ⟨⟨_ | answer, next⟩, middle⟩
    · obtain ⟨-, hfetches, ⟨hlast, -⟩ | ⟨hhandle, hunderway, hless⟩⟩ := h.turn hturn
      · exact absurd rfl hlast
      rw [← hhandle] at hless
      rw [← hhandle] at hfuel
      have hless' := Nat.lt_of_lt_of_le hless (Nat.le_of_lt_succ hfuel)
      obtain ⟨hloops, hmore, hafter⟩ := hunderway.advance hless'
      refine ⟨.again hturn hloops, ?_, hafter⟩
      rw [← hhandle]
      dsimp only
      omega
    · obtain ⟨hreachable, hfetches, hlast⟩ := h.turn hturn
      refine ⟨.last hturn, Nat.le_trans hfetches (by omega), hreachable, fun hexhausted => ?_⟩
      rcases hlast with ⟨-, htrue⟩ | ⟨-, hunderway, -⟩
      · exact absurd (htrue.symm.trans hexhausted) nofun
      · exact hunderway

/-- A cursor has no more records ahead than there are in all. -/
theorem length_ahead_le_recordCount (objects : Objects) (h d : Handle) :
    (objects.ahead h d).length ≤ objects.recordCount := by
  refine (objects.length_ahead_le h d).trans ?_
  unfold Objects.records
  split
  · next db hdb => exact Objects.size_le_recordCount hdb
  · exact Nat.zero_le _

/-! ### From opening on -/

/-- The points of a scan: the cursor as it was opened, and as `next` left it, and at any time in between,
whatever clients do but to fetch through the cursor. -/
inductive At (db : Database) (criteria : CriteriaSet) : World → Cursor → Prop where
  | opened {before world : World} {cursor : Cursor} (reachable : before.Reachable)
    (opens : db.openCursor criteria before = (.ok cursor, world)) : At db criteria world cursor
  | next {world : World} {cursor : Cursor} (earlier : At db criteria world cursor) :
    At db criteria (cursor.next world).2 (cursor.next world).1.2
  | between {world world' : World} {cursor : Cursor} (earlier : At db criteria world cursor)
    (moves : world.Move world')
    (alone : ∀ row, world' ≠ (call (.fetchNext cursor.handle row) world).2) :
    At db criteria world' cursor

/-- A cursor that was just opened is on its way, with all records ahead. -/
theorem underway_of_openCursor {before : World} (hr : before.Reachable)
    (hopens : db.openCursor criteria before = (.ok cursor, world)) :
    cursor.Underway db.handle world ∧
      world.engine.objects.ahead cursor.handle db.handle =
        (world.engine.objects.records db.handle).entries := by
  obtain ⟨seed, start, hnew, hrest⟩ := bind_eq_ok.1 hopens
  have hseeds := tryCatch_eq_ok (fun failure w => ⟨failure, _, rfl⟩) hrest
  obtain ⟨predicates, middle, hseeding, hrest⟩ := bind_eq_ok.1 hseeds
  obtain ⟨handle, after, hcursor, hrest⟩ := bind_eq_ok.1 hrest
  have hpair : ((.ok { env := db.env, handle, seed? := some seed, predicates
                       order := criteria.order
                       termination := criteria.termination?.getD db.termination }, after) :
    Except Failure Cursor × World) = (.ok cursor, world) := hrest
  cases hpair
  obtain ⟨hstart, hseed, hseedRow⟩ := isRowOf_newRow hr hnew
  have hleads : start.Leads middle := by
    have hgoes := (honest_seedScan criteria db.schema seed).goes start
    rw [show (seedScan criteria db.schema seed).run start = _ from hseeding] at hgoes
    exact hgoes
  have hcall := call_of_handleOrRefused hcursor
  have hmove := World.move_of_call hcall
  have hreachable := hmove.reachable (hleads.reachable hstart)
  have hsteady := (hleads.steady hstart).trans (hmove.steady (hleads.reachable hstart))
  have hget : world.engine.objects.table.get? handle = some (.cursor { env := db.env }) :=
    Engine.get?_of_made (step_of_call hcall)
  refine ⟨⟨hreachable, ?_, ?_, fun row hm => ?_⟩, Objects.ahead_of_unstarted hget _⟩
  · show handle ≤ world.engine.objects.issued
    exact (hreachable.sound.live handle _ hget).2
  · intro c seek hcursor hscanning
    rw [show _ = some (Engine.Object.cursor { env := db.env }) from hget] at hcursor
    cases hcursor
    cases hscanning
  · obtain rfl := List.mem_singleton.1 hm
    exact ⟨hseed.trans hsteady.issued, hsteady.isRowOf hseed hseedRow⟩

/-- Whatever clients do but to fetch through it leaves a cursor on its way. -/
theorem Underway.move (h : cursor.Underway d world) (hm : world.Move world')
    (halone : ∀ row, world' ≠ (call (.fetchNext cursor.handle row) world).2) :
    cursor.Underway d world' := by
  refine h.of_steady (hm.reachable h.reachable) (hm.steady h.reachable) ?_
  cases hm with
  | call action =>
    refine traverses_call h.reachable action (fun hadvances => ?_) h.issued h.traverses
    cases action with
    | fetchNext handle row =>
      obtain rfl : cursor.handle = handle := hadvances
      exact halone row rfl
    | _ => exact hadvances
  | acquireName env key _ => exact h.traverses
  | releaseName env key => exact h.traverses
  | create handle policy _ =>
    exact traverses_call h.reachable .newEnvironment id h.issued h.traverses
  | register env registry => exact h.traverses
  | close env => exact h.traverses
  | advance ns => exact h.traverses

/-- What `next` does, in each of its cases. -/
theorem next_of_underway (hr : world.Reachable)
    (h : cursor.exhausted = false → cursor.Underway d world) :
    cursor.Returns world (cursor.next world).1 (cursor.next world).2 ∧
      (cursor.next world).2.fetches ≤
        world.fetches + (world.engine.objects.ahead cursor.handle d).length + 1 ∧
      (cursor.next world).2.Reachable ∧
      ((cursor.next world).1.2.exhausted = false →
        (cursor.next world).1.2.Underway d (cursor.next world).2) := by
  by_cases hended : cursor.closed = true ∨ cursor.exhausted = true
  · have hnext : cursor.next world = ((.ok none, cursor), world) := by
      unfold Cursor.next
      rw [if_pos (by simpa using hended)]
      rfl
    rw [hnext]
    refine ⟨.ended hended, ?_, hr, h⟩
    show world.fetches ≤ _
    omega
  · simp only [not_or, Bool.not_eq_true] at hended
    cases hclosed : (world.link cursor.env).closed with
    | true =>
      have hnext : cursor.next world = ((.error .environmentClosed, cursor), world) := by
        unfold Cursor.next
        rw [hended.1, hended.2]
        simp only [Bool.or_self, Bool.false_eq_true, if_false]
        rw [bind_apply, isClosed_apply, hclosed]
        rfl
      rw [hnext]
      refine ⟨.environmentClosed hended hclosed, ?_, hr, h⟩
      show world.fetches ≤ _
      omega
    | false =>
      have hfuel := length_ahead_le_recordCount world.engine.objects cursor.handle d
      rw [next_eq_of_open hended hclosed]
      obtain ⟨hloops, hrest⟩ := (h hended.2).advance (Nat.lt_succ_of_le hfuel)
      exact ⟨.looped hended hclosed hloops, hrest⟩

/-- At every point of a scan a cursor that is not exhausted is on its way through its database. -/
theorem At.underway (hat : At db criteria world cursor) :
    world.Reachable ∧ (cursor.exhausted = false → cursor.Underway db.handle world) := by
  induction hat with
  | opened hr hopens =>
    have hunderway := (underway_of_openCursor hr hopens).1
    exact ⟨hunderway.reachable, fun _ => hunderway⟩
  | next _ ih => exact (next_of_underway ih.1 ih.2).2.2
  | between _ hm halone ih =>
    exact ⟨hm.reachable ih.1, fun hexhausted => (ih.2 hexhausted).move hm halone⟩

/-- **Calling `next` terminates within the remaining data.** At every point of a scan `next` returns what
its loop comes to, and has made one more fetch than there are records past the key that the cursor is
at, at most. These are all records when the cursor was just opened. -/
theorem next_returns (hat : At db criteria world cursor) :
    cursor.Returns world (cursor.next world).1 (cursor.next world).2 ∧
      (cursor.next world).2.fetches ≤
        world.fetches + (world.engine.objects.ahead cursor.handle db.handle).length + 1 ∧
      ∀ before : World, before.Reachable → db.openCursor criteria before = (.ok cursor, world) →
        world.engine.objects.ahead cursor.handle db.handle =
          (world.engine.objects.records db.handle).entries := by
  obtain ⟨hreachable, hunderway⟩ := hat.underway
  obtain ⟨hreturns, hfetches, -⟩ := next_of_underway hreachable hunderway
  exact ⟨hreturns, hfetches, fun before hr hopens => (underway_of_openCursor hr hopens).2⟩

end Cursor

namespace Numbers

/-- A cursor over three numbers fetches four times at most to find the first. -/
theorem fetches_aboveThree : ∃ cursor after,
    database.openCursor aboveThree Numbers.world = (.ok cursor, after) ∧
      Cursor.At database aboveThree after cursor ∧
      cursor.Returns after (cursor.next after).1 (cursor.next after).2 ∧
      (cursor.next after).2.fetches ≤ after.fetches + 4 := by
  obtain ⟨cursor, after, hopens⟩ : ∃ cursor after,
      (database.openCursor aboveThree).run Numbers.world = (.ok cursor, after) := ⟨_, _, rfl⟩
  have hat : Cursor.At database aboveThree after cursor := .opened reachable_world hopens
  obtain ⟨hreturns, hfetches, hall⟩ := Cursor.next_returns hat
  obtain ⟨hready, -⟩ := database.opened_of_openCursor ready hopens
  rw [hall Numbers.world reachable_world hopens,
    Objects.records_eq (Objects.database_eq_ok.1 hready.found)] at hfetches
  exact ⟨cursor, after, hopens, hat, hreturns, hfetches⟩

end Numbers

end Client
end RowStore
