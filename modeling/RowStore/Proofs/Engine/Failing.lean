/-
# What failed calls leave

A call that fails leaves its refusal as the diagnostic and the objects as they were, but for the row
that it takes, which is gone. Two calls leave less when they come upon a database that is gone. A
commit that comes upon a place in it has ended the transaction and made the writes before that place;
what is left of the transaction is lost. A cursor that scans it forgets its position.

Key definitions: `Engine.Fails`, `Engine.Objects.without`, `Engine.Objects.Loses`.
Key theorems: `Engine.failed_of_fails`, `Engine.leaves_of_fails`.
-/
import RowStore.Proofs.Engine.Changes
import RowStore.Proofs.Engine.Fetching

namespace RowStore.Engine

open Client (WriteKind)

/-- The row that a call takes. -/
def Action.row? : Action kind → Option Handle
  | .put _ row => some row
  | .upsert _ row => some row
  | .delete _ row => some row
  | .lookup _ row => some row
  | .fetchNext _ row => some row
  | _ => none

/-- A call fails: it answers no, or nothing and there is a diagnostic, or with the commit status of
failure. -/
def Fails : (kind : AnswerKind) → kind.Answer → Engine → Prop
  | .flag, answer, _ => answer = false
  | .handle, answer, after => answer = none ∧ after.diagnostic?.isSome = true
  | .bytes, answer, after => answer = none ∧ after.diagnostic?.isSome = true
  | .word, answer, after => answer = none ∧ after.diagnostic?.isSome = true
  | .status, answer, _ => answer = commitError

namespace Objects

variable {objects left : Objects} {refusal : Refusal}

/-- The objects without a row, if it is live. -/
def without (objects : Objects) : Option Handle → Objects
  | some row =>
    match objects.row row with
    | .ok _ => objects.remove row
    | .error _ => objects
  | none => objects

theorem without_of_ok {row : Handle} {r : Row} (h : objects.row row = .ok r) :
    objects.without (some row) = objects.remove row := by
  unfold without
  dsimp only
  rw [h]

theorem without_of_error {row : Handle} (h : objects.row row = .error refusal) :
    objects.without (some row) = objects := by
  unfold without
  dsimp only
  rw [h]

/-- What is left of the objects by a call that comes upon a database that is gone. -/
inductive Loses (objects : Objects) : {kind : AnswerKind} → Action kind → Objects → Prop where
  /-- The transaction is gone, and the writes before the place are made. -/
  | commit {t : Handle} {tx : Transaction} {made rest : List (Place × Option Record)} {place : Place}
    {record? : Option Record} {left : Objects} {refusal : Refusal}
    (live : objects.table.get? t = some (.transaction tx))
    (opened : objects.ensureOpened tx.env = .ok ())
    (writes : tx.writes.entries = made ++ (place, record?) :: rest)
    (makes : writeAll made (objects.remove t) = (.ok (), left))
    (gone : left.database place.db = .error refusal) : Loses objects (.commit t) left
  /-- The row is gone, and the cursor is at its start. -/
  | fetchNext {cursor row : Handle} {c : Cursor} {r : Row} {seek : Seek} {refusal : Refusal}
    (taken : objects.table.get? row = some (.row r))
    (live : objects.table.get? cursor = some (.cursor c))
    (scans : c.progress = .scanning seek)
    (gone : (objects.remove row).database seek.db = .error refusal) :
    Loses objects (.fetchNext cursor row)
      ((objects.remove row).put cursor (.cursor { c with progress := .unstarted }))

/-! ### Writes up to one that cannot be made -/

theorem writeThrough_eq_error {place : Place} {record? : Option Record} :
    objects.writeThrough place record? = .error refusal ↔
      objects.database place.db = .error refusal := by
  unfold writeThrough
  cases objects.database place.db with
  | error refusal' =>
    show (Except.error refusal' : Except Refusal Objects) = .error refusal ↔ _
    rw [Except.error.injEq, Except.error.injEq]
  | ok db => exact iff_of_false nofun nofun

theorem writeAll_append : ∀ (made : List (Place × Option Record))
    {rest : List (Place × Option Record)} {objects left : Objects},
    writeAll made objects = (.ok (), left) →
    writeAll (made ++ rest) objects = writeAll rest left
  | [], _, _, _, h => by
    cases h
    rfl
  | (place, record?) :: made, rest, objects, left, h => by
    rw [List.cons_append, writeAll]
    rw [writeAll] at h
    split at h
    · exact writeAll_append made h
    · cases h

/-- Writes stop at the first whose database is gone, and those before it stay made. -/
theorem writeAll_eq_error : ∀ {writes : List (Place × Option Record)} {objects : Objects},
    writeAll writes objects = (.error refusal, left) ↔
      ∃ made place record? rest, writes = made ++ (place, record?) :: rest ∧
        writeAll made objects = (.ok (), left) ∧ left.database place.db = .error refusal
  | [], objects => by
    refine iff_of_false nofun ?_
    rintro ⟨made, place, record?, rest, hwrites, -⟩
    simp at hwrites
  | (place, record?) :: writes, objects => by
    constructor
    · intro h
      rw [writeAll] at h
      split at h
      · next next hwrite =>
        obtain ⟨made, place', record', rest, rfl, hmade, hgone⟩ := writeAll_eq_error.1 h
        refine ⟨(place, record?) :: made, place', record', rest, rfl, ?_, hgone⟩
        rw [writeAll, hwrite]
        exact hmade
      · next hwrite =>
        cases h
        exact ⟨[], place, record?, writes, rfl, rfl, writeThrough_eq_error.1 hwrite⟩
    · rintro ⟨made, place', record', rest, hwrites, hmade, hgone⟩
      rw [hwrites, writeAll_append made hmade, writeAll, writeThrough_eq_error.2 hgone]

/-- Writes make no handle live. -/
theorem writeAll_get?_eq_none {h : Handle} : ∀ (writes : List (Place × Option Record))
    {objects : Objects}, objects.table.get? h = none →
    (writeAll writes objects).2.table.get? h = none
  | [], _, hnone => hnone
  | (place, record?) :: writes, objects, hnone => by
    rw [writeAll]
    split
    · next next hwrite =>
      refine writeAll_get?_eq_none writes ?_
      obtain ⟨db, hdb, hwrite⟩ := bind_eq_ok.1 hwrite
      rw [database_eq_ok] at hdb
      cases hwrite
      rw [get?_put, if_neg, hnone]
      rintro rfl
      rw [hnone] at hdb
      cases hdb
    · exact hnone

/-! ### Fetches that are refused -/

theorem advance_eq_error {h : Handle} {c : Cursor} {seek : Seek}
    (he : objects.advance h c seek = (.error refusal, left)) :
    objects.database seek.db = .error refusal ∧
      left = objects.put h (.cursor { c with progress := .unstarted }) := by
  unfold advance at he
  split at he
  · next hdb =>
    cases he
    exact ⟨hdb, rfl⟩
  · split at he <;> cases he

/-- A fetch that is refused changes nothing, unless its cursor scans a database that is gone. -/
theorem fetchNext_eq_error {h : Handle} {r : Row}
    (he : objects.fetchNext h r = (.error refusal, left)) :
    (left = objects ∧ ∀ c seek, objects.cursor h = .ok c → c.progress = .scanning seek →
        ∀ refusal', objects.database seek.db ≠ .error refusal') ∨
      ∃ c seek, objects.cursor h = .ok c ∧ c.progress = .scanning seek ∧
        objects.database seek.db = .error refusal ∧
        left = objects.put h (.cursor { c with progress := .unstarted }) := by
  unfold fetchNext at he
  split at he
  · next hcursor =>
    cases he
    refine .inl ⟨rfl, fun c seek hc => ?_⟩
    rw [hcursor] at hc
    cases hc
  · next c hcursor =>
    split at he
    · cases he
    · next seek hprogress =>
      obtain ⟨hdb, hleft⟩ := advance_eq_error he
      exact .inr ⟨c, seek, hcursor, hprogress, hdb, hleft⟩
    · next hprogress =>
      split at he
      · cases he
        refine .inl ⟨rfl, fun c' seek hc hscans => ?_⟩
        rw [hcursor] at hc
        cases hc
        rw [hprogress] at hscans
        cases hscans
      · next seek hseek =>
        obtain ⟨hdb, -⟩ := advance_eq_error he
        obtain ⟨db, order, startsWith?, hlive, -, -, -, rfl⟩ := seek_eq_ok_iff.1 hseek
        cases hlive.symm.trans hdb

/-! ### Losses -/

variable {kind : AnswerKind} {action : Action kind}

/-- What is left by a call that comes upon a database that is gone is determined. -/
theorem Loses.unique {left' : Objects} (h : objects.Loses action left)
    (h' : objects.Loses action left') : left' = left := by
  cases h with
  | commit hlive _ hwrites hmakes hgone =>
    cases h' with
    | commit hlive' _ hwrites' hmakes' hgone' =>
      rw [hlive] at hlive'
      cases hlive'
      have hall := writeAll_eq_error.2 ⟨_, _, _, _, hwrites, hmakes, hgone⟩
      rw [writeAll_eq_error.2 ⟨_, _, _, _, hwrites', hmakes', hgone'⟩] at hall
      exact congrArg Prod.snd hall
  | fetchNext _ hlive _ _ =>
    cases h' with
    | fetchNext _ hlive' _ _ =>
      rw [hlive] at hlive'
      cases hlive'
      rfl

/-- A call that comes upon a database that is gone leaves something else than the objects without its
row. -/
theorem Loses.ne_without (h : objects.Loses action left) : left ≠ objects.without action.row? := by
  intro heq
  cases h with
  | @commit t tx made _ _ _ _ _ hlive _ _ hmakes _ =>
    have hremoved : (objects.remove t).table.get? t = none := (get?_remove t).trans (if_pos rfl)
    have hnone := writeAll_get?_eq_none made hremoved
    rw [hmakes, heq] at hnone
    exact Option.some_ne_none _ (hlive.symm.trans hnone)
  | @fetchNext cursor row c r _ _ htaken hlive hscans _ =>
    rw [show (Action.fetchNext cursor row).row? = some row from rfl,
      without_of_ok (row_eq_ok.2 htaken)] at heq
    have hput := congrArg (fun objects => objects.table.get? cursor) heq
    rw [get?_put, if_pos rfl, get?_remove_row (row_eq_ok.2 htaken) hlive nofun] at hput
    have hprogress := congrArg Cursor.progress (Object.cursor.inj (Option.some.inj hput))
    exact Progress.noConfusion (hprogress.trans hscans)

end Objects

/-! ### Calls -/

/-- What a call that failed leaves: its refusal, and the objects but for the row that it took. -/
structure Failed (before after : Engine) (row? : Option Handle) : Prop where
  objects : after.objects = before.objects.without row?
  refused : after.diagnostic?.isSome = true

variable {engine : Engine}

theorem failed_attempt {α : Type} {result : Except Refusal (α × Objects)}
    (h : (engine.attempt result).1 = none) : Failed engine (engine.attempt result).2 none := by
  cases result with
  | error refusal => exact ⟨rfl, rfl⟩
  | ok result => cases h

theorem failed_attemptFlag {result : Except Refusal Objects}
    (h : (engine.attemptFlag result).1 = false) :
    Failed engine (engine.attemptFlag result).2 none := by
  cases result with
  | error refusal => exact ⟨rfl, rfl⟩
  | ok objects => cases h

theorem failed_inquire {α : Type} {result : Except Refusal (Option α)}
    (h : (engine.inquire result).2.diagnostic?.isSome = true) :
    Failed engine (engine.inquire result).2 none :=
  ⟨inquire_objects result, h⟩

/-- Reading the diagnostic does not fail. -/
theorem not_fails_getBytes (h : Handle) :
    ¬ Fails .bytes (engine.getBytes h diagnosticKey).1 (engine.getBytes h diagnosticKey).2 := by
  rintro ⟨hnone, hsome⟩
  unfold getBytes at hnone hsome
  rw [if_pos rfl] at hnone hsome
  rw [Option.map_eq_none_iff.1 (Option.map_eq_none_iff.1 hnone)] at hsome
  cases hsome

theorem failed_getBytes {h : Handle} {name : String} (hnone : (engine.getBytes h name).1 = none)
    (hsome : (engine.getBytes h name).2.diagnostic?.isSome = true) :
    Failed engine (engine.getBytes h name).2 none := by
  by_cases hname : name = diagnosticKey
  · subst hname
    exact absurd ⟨hnone, hsome⟩ (not_fails_getBytes h)
  · rw [getBytes_of_ne hname] at hsome ⊢
    exact failed_inquire hsome

theorem failed_write (functions : Hook → MergeFn) (kind : WriteKind) {store row : Handle}
    (h : (engine.step functions (kind.action store row)).1 = false) :
    Failed engine (engine.step functions (kind.action store row)).2 (some row) := by
  cases hrow : engine.objects.row row with
  | error refusal =>
    rw [step_write_of_error functions hrow]
    exact ⟨(Objects.without_of_error hrow).symm, rfl⟩
  | ok r =>
    rw [step_write functions (Objects.row_eq_ok.1 hrow)] at h ⊢
    obtain ⟨hobjects, hrefused⟩ := failed_attemptFlag h
    exact ⟨hobjects.trans (Objects.without_of_ok hrow).symm, hrefused⟩

theorem failed_lookup {store row : Handle}
    (hsome : (engine.lookup store row).2.diagnostic?.isSome = true) :
    Failed engine (engine.lookup store row).2 (some row) := by
  cases hrow : engine.objects.row row with
  | error refusal =>
    unfold lookup consume
    rw [hrow]
    exact ⟨(Objects.without_of_error hrow).symm, rfl⟩
  | ok r =>
    rw [lookup_eq (Objects.row_eq_ok.1 hrow)] at hsome ⊢
    split at hsome
    · cases hsome
    · exact ⟨(Objects.without_of_ok hrow).symm, rfl⟩

/-- A commit that fails is refused at once, or it comes upon a database that is gone. -/
theorem failed_commit {t : Handle} (h : (engine.commit t).1 = commitError) :
    (Failed engine (engine.commit t).2 none ∧ ∀ left, ¬ engine.objects.Loses (.commit t) left) ∨
      (engine.commit t).2.diagnostic?.isSome = true ∧
        engine.objects.Loses (.commit t) (engine.commit t).2.objects := by
  unfold commit at *
  cases hcommit : engine.objects.commit t with
  | mk result left =>
    rw [hcommit] at h
    cases result with
    | ok => cases h
    | error refusal =>
      unfold Objects.commit at hcommit
      split at hcommit
      · next hchecked =>
        cases hcommit
        refine .inl ⟨⟨rfl, rfl⟩, ?_⟩
        rintro left (⟨hlive, hopened, -, -, -⟩ | _)
        rw [Objects.transaction_eq_ok.2 hlive] at hchecked
        dsimp only [bind, Except.bind] at hchecked
        rw [hopened] at hchecked
        cases hchecked
      · next tx hchecked =>
        obtain ⟨tx', htx, hchecked⟩ := bind_eq_ok.1 hchecked
        obtain ⟨⟨⟩, hopened, hchecked⟩ := bind_eq_ok.1 hchecked
        obtain rfl : tx' = tx := Except.ok.inj hchecked
        obtain ⟨made, place, record?, rest, hwrites, hmakes, hgone⟩ :=
          Objects.writeAll_eq_error.1 hcommit
        exact .inr ⟨rfl, .commit (Objects.transaction_eq_ok.1 htx) hopened hwrites hmakes hgone⟩

/-- A fetch that fails is refused at once, or it comes upon a database that is gone. -/
theorem failed_fetchNext {cursor row : Handle}
    (h : (engine.fetchNext cursor row).2.diagnostic?.isSome = true) :
    (Failed engine (engine.fetchNext cursor row).2 (some row) ∧
        ∀ left, ¬ engine.objects.Loses (.fetchNext cursor row) left) ∨
      (engine.fetchNext cursor row).2.diagnostic?.isSome = true ∧
        engine.objects.Loses (.fetchNext cursor row) (engine.fetchNext cursor row).2.objects := by
  cases hrow : engine.objects.row row with
  | error refusal =>
    unfold fetchNext
    rw [hrow]
    refine .inl ⟨⟨(Objects.without_of_error hrow).symm, rfl⟩, ?_⟩
    rintro left (_ | ⟨htaken, -, -, -⟩)
    rw [Objects.row_eq_ok.2 htaken] at hrow
    cases hrow
  | ok r =>
    have htaken := Objects.row_eq_ok.1 hrow
    unfold fetchNext at *
    rw [hrow] at h ⊢
    dsimp only at h ⊢
    cases hfetch : (engine.objects.remove row).fetchNext cursor r with
    | mk result left =>
      rw [hfetch] at h
      cases result with
      | ok found => cases h
      | error refusal =>
        rcases Objects.fetchNext_eq_error hfetch with
          ⟨rfl, hfound⟩ | ⟨c, seek, hc, hscans, hgone, rfl⟩
        · refine .inl ⟨⟨(Objects.without_of_ok hrow).symm, rfl⟩, ?_⟩
          rintro left (_ | ⟨htaken', hlive, hscans, hgone⟩)
          have hc := Objects.get?_remove_row hrow hlive nofun
          exact hfound _ _ (Objects.cursor_eq_ok.2 hc) hscans _ hgone
        · rw [Objects.cursor_eq_ok, Objects.get?_remove] at hc
          split at hc
          · simp at hc
          · exact .inr ⟨rfl, .fetchNext htaken hc hscans hgone⟩

/-- A call that fails is refused at once, or it comes upon a database that is gone. -/
theorem failed_of_fails (functions : Hook → MergeFn) {kind : AnswerKind} (action : Action kind)
    (hfails : Fails kind (engine.step functions action).1 (engine.step functions action).2) :
    (Failed engine (engine.step functions action).2 action.row? ∧
        ∀ left, ¬ engine.objects.Loses action left) ∨
      (engine.step functions action).2.diagnostic?.isSome = true ∧
        engine.objects.Loses action (engine.step functions action).2.objects := by
  cases action with
  | newEnvironment => exact .inl ⟨failed_attempt hfails.1, nofun⟩
  | setBytes h name bytes => exact .inl ⟨failed_attemptFlag hfails, nofun⟩
  | setWord h name w => exact .inl ⟨failed_attemptFlag hfails, nofun⟩
  | getBytes h name => exact .inl ⟨failed_getBytes hfails.1 hfails.2, nofun⟩
  | getWord h name => exact .inl ⟨failed_inquire hfails.2, nofun⟩
  | resolve h path => exact .inl ⟨failed_inquire hfails.2, nofun⟩
  | declare env name fields => exact .inl ⟨failed_attemptFlag hfails, nofun⟩
  | installHook db hook => exact .inl ⟨failed_attemptFlag hfails, nofun⟩
  | openEnvironment env => exact .inl ⟨failed_attemptFlag hfails, nofun⟩
  | destroy h => exact .inl ⟨failed_attemptFlag hfails, nofun⟩
  | newRow db => exact .inl ⟨failed_attempt hfails.1, nofun⟩
  | put store row => exact .inl ⟨failed_write functions .put hfails, nofun⟩
  | upsert store row => exact .inl ⟨failed_write functions .upsert hfails, nofun⟩
  | delete store row => exact .inl ⟨failed_write functions .delete hfails, nofun⟩
  | lookup store row => exact .inl ⟨failed_lookup hfails.2, nofun⟩
  | newCursor env => exact .inl ⟨failed_attempt hfails.1, nofun⟩
  | fetchNext cursor row => exact failed_fetchNext hfails.2
  | begin env => exact .inl ⟨failed_attempt hfails.1, nofun⟩
  | commit tx => exact failed_commit hfails

/-! ### The diagnostic of a call -/

theorem attempt_of_diagnostic (engine : Engine) {α : Type} (diagnostic? : Option Refusal)
    (result : Except Refusal (α × Objects)) :
    { engine with diagnostic? }.attempt result = engine.attempt result := by
  cases result <;> rfl

theorem attemptFlag_of_diagnostic (engine : Engine) (diagnostic? : Option Refusal)
    (result : Except Refusal Objects) :
    { engine with diagnostic? }.attemptFlag result = engine.attemptFlag result := by
  cases result <;> rfl

theorem inquire_of_diagnostic (engine : Engine) {α : Type} (diagnostic? : Option Refusal)
    (result : Except Refusal (Option α)) :
    { engine with diagnostic? }.inquire result = engine.inquire result := by
  cases result <;> rfl

theorem step_write_of_diagnostic (functions : Hook → MergeFn) (diagnostic? : Option Refusal)
    (kind : WriteKind) (store row : Handle) :
    { engine with diagnostic? }.step functions (kind.action store row) =
      engine.step functions (kind.action store row) := by
  cases hrow : engine.objects.row row with
  | error refusal =>
    rw [step_write_of_error functions hrow, step_write_of_error functions]
    exact hrow
  | ok r =>
    rw [step_write functions (Objects.row_eq_ok.1 hrow), step_write functions]
    · exact attemptFlag_of_diagnostic { engine with
        objects := engine.objects.remove row
        journal := engine.journal ++
          ((engine.objects.remove row).written functions store r kind).2 } diagnostic? _
    · exact Objects.row_eq_ok.1 hrow

/-- What a call does is not decided by the diagnostic before it, unless it reads the diagnostic. -/
theorem step_of_diagnostic (functions : Hook → MergeFn) (diagnostic? : Option Refusal)
    {kind : AnswerKind} (action : Action kind)
    (hreads : ∀ h, (⟨kind, action⟩ : Call) ≠ ⟨_, .getBytes h diagnosticKey⟩) :
    { engine with diagnostic? }.step functions action = engine.step functions action := by
  cases action with
  | newEnvironment => rfl
  | setBytes h name bytes => exact attemptFlag_of_diagnostic engine diagnostic? _
  | setWord h name w => exact attemptFlag_of_diagnostic engine diagnostic? _
  | getBytes h name =>
    have hname : name ≠ diagnosticKey := by
      rintro rfl
      exact hreads h rfl
    show getBytes _ h name = engine.getBytes h name
    rw [getBytes_of_ne hname, getBytes_of_ne hname]
    exact inquire_of_diagnostic engine diagnostic? _
  | getWord h name => exact inquire_of_diagnostic engine diagnostic? _
  | resolve h path => exact inquire_of_diagnostic engine diagnostic? _
  | declare env name fields => exact attemptFlag_of_diagnostic engine diagnostic? _
  | installHook db hook => exact attemptFlag_of_diagnostic engine diagnostic? _
  | openEnvironment env => exact attemptFlag_of_diagnostic engine diagnostic? _
  | destroy h => exact attemptFlag_of_diagnostic engine diagnostic? _
  | newRow db => exact attempt_of_diagnostic engine diagnostic? _
  | put store row => exact step_write_of_diagnostic functions diagnostic? .put store row
  | upsert store row => exact step_write_of_diagnostic functions diagnostic? .upsert store row
  | delete store row => exact step_write_of_diagnostic functions diagnostic? .delete store row
  | lookup store row =>
    show lookup _ store row = engine.lookup store row
    unfold lookup consume
    dsimp only
    split
    · rfl
    · exact congrArg (fun result : Option (Option Handle) × Engine => (result.1.join, result.2))
        (attempt_of_diagnostic { engine with objects := engine.objects.remove row } diagnostic? _)
  | newCursor env => exact attempt_of_diagnostic engine diagnostic? _
  | fetchNext cursor row =>
    show fetchNext _ cursor row = engine.fetchNext cursor row
    unfold fetchNext
    rfl
  | begin env => exact attempt_of_diagnostic engine diagnostic? _
  | commit tx =>
    show commit _ tx = engine.commit tx
    unfold commit
    rfl

/-- A call that fails leaves a refusal of its own as the diagnostic, whatever the diagnostic was. The
objects are as they were without the row that it took exactly if it did not come upon a database that
is gone; a call that did leaves what such a call leaves. -/
theorem leaves_of_fails (functions : Hook → MergeFn) {kind : AnswerKind} (action : Action kind)
    (hfails : Fails kind (engine.step functions action).1 (engine.step functions action).2) :
    (∃ refusal, ∀ diagnostic? : Option Refusal,
        ({ engine with diagnostic? }.step functions action).2.diagnostic? = some refusal) ∧
      ((engine.step functions action).2.objects = engine.objects.without action.row? ↔
        ∀ left, ¬ engine.objects.Loses action left) ∧
      ∀ left, engine.objects.Loses action left →
        (engine.step functions action).2.objects = left := by
  have hreads : ∀ h, (⟨kind, action⟩ : Call) ≠ ⟨_, .getBytes h diagnosticKey⟩ := by
    rintro h ⟨⟩
    exact not_fails_getBytes h hfails
  have hdiagnostic (hsome : (engine.step functions action).2.diagnostic?.isSome = true) :
      ∃ refusal, ∀ diagnostic? : Option Refusal,
        ({ engine with diagnostic? }.step functions action).2.diagnostic? = some refusal := by
    obtain ⟨refusal, hrefusal⟩ := Option.isSome_iff_exists.1 hsome
    refine ⟨refusal, fun diagnostic? => ?_⟩
    rw [step_of_diagnostic functions diagnostic? action hreads, hrefusal]
  rcases failed_of_fails functions action hfails with ⟨hfailed, hnone⟩ | ⟨hrefused, hloses⟩
  · exact ⟨hdiagnostic hfailed.refused, iff_of_true hfailed.objects hnone,
      fun left hleft => absurd hleft (hnone left)⟩
  · exact ⟨hdiagnostic hrefused, iff_of_false hloses.ne_without fun hnone => hnone _ hloses,
      fun left hleft => hleft.unique hloses⟩

/-! ### A commit that is made by half -/

namespace Halves

open Numbers (idle number)

/-- The calls that declare a database in each of two environments. -/
def declaring : List Request := [
  ⟨idle, .newEnvironment⟩, ⟨idle, .newEnvironment⟩,
  ⟨idle, .declare 1 "left" [number]⟩, ⟨idle, .declare 2 "right" [number]⟩]

/-- The engine with the databases declared. -/
def declared : Engine where
  objects := {
    issued := 4
    table := Table.ofList [
      (1, .environment { databases := Table.ofList [("left", 3)] }),
      (2, .environment { databases := Table.ofList [("right", 4)] }),
      (3, .database { env := 1, name := "left", fields := [number] }),
      (4, .database { env := 2, name := "right", fields := [number] })] }

theorem run_declaring (requests : List Request) :
    run {} (declaring ++ requests) = declared.run requests := by
  have h : (((newEnvironment (newEnvironment {}).2).2.declare 1 "left" [number]).2.declare 2 "right"
      [number]).2 = declared := by
    unfold declare
    rw [Objects.declare_eq (by simp), Objects.declare_eq (by simp)]
    rfl
  rw [run_append, ← h]
  rfl

/-- The calls that put a row of each database into a transaction of the first environment and destroy
the second one. -/
def pending : List Request := [
  ⟨idle, .openEnvironment 1⟩, ⟨idle, .openEnvironment 2⟩, ⟨idle, .begin 1⟩,
  ⟨idle, .newRow 3⟩, ⟨idle, .setWord 6 "number" 1⟩, ⟨idle, .put 5 6⟩,
  ⟨idle, .newRow 4⟩, ⟨idle, .setWord 7 "number" 2⟩, ⟨idle, .put 5 7⟩,
  ⟨idle, .destroy 2⟩]

/-- The commit fails, and yet the row of the first database is in it. -/
theorem half_is_committed :
    Fails .status (((run {} (declaring ++ pending)).step idle (.commit 5)).1)
        ((run {} (declaring ++ pending)).step idle (.commit 5)).2 ∧
      (run {} (declaring ++ pending)).objects.recordCount = 0 ∧
      ((run {} (declaring ++ pending)).step idle (.commit 5)).2.objects.recordCount = 1 := by
  rw [run_declaring]
  have hfails : Fails .status ((declared.run pending).step idle (.commit 5)).1
      ((declared.run pending).step idle (.commit 5)).2 := rfl
  refine ⟨hfails, rfl, ?_⟩
  rw [(leaves_of_fails idle (.commit 5) hfails).2.2 _ (.commit rfl rfl rfl rfl rfl)]
  rfl

end Halves

end RowStore.Engine
