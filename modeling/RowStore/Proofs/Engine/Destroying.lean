/-
# Destroying an environment

Every database, cursor and transaction was made by a call for one environment, and stays with it. So
what an environment owns can be told by the calls that were made: itself, the databases declared in it,
the rows of those, and the cursors and transactions begun in it. Destroying it removes that and nothing
else. A database goes with its environment only.

Key definitions: `Engine.Action.origin?`, `Engine.made`, `Engine.Owns`.
Key theorems: `Engine.origin_step`, `Engine.origin_run`, `Engine.owner?_eq_some_iff_owns`,
`Engine.destroy_removes_owned`.
-/
import RowStore.Proofs.Engine.Ending

namespace RowStore.Engine

/-- What a call makes and the environment that it makes it for, if it makes a database, a cursor or a
transaction. -/
def Action.origin? : Action kind → Option Title
  | .declare e _ _ => some ⟨.database, e⟩
  | .newCursor e => some ⟨.cursor, e⟩
  | .begin e => some ⟨.transaction, e⟩
  | _ => none

theorem Action.makes.origin?_eq : ∀ {kind : AnswerKind} {action : Action kind} {object : Object},
    action.makes object → object.origin? = action.origin?
  | _, .newEnvironment, .environment _, _ => rfl
  | _, .declare e _ _, .database db, hmakes => by
    have henv : db.env = e := hmakes
    simp only [Object.origin?, Action.origin?, henv]
  | _, .newRow _, .row _, _ => rfl
  | _, .lookup _ _, .row _, _ => rfl
  | _, .newCursor e, .cursor c, hmakes => by
    have henv : c.env = e := hmakes
    simp only [Object.origin?, Action.origin?, henv]
  | _, .fetchNext _ _, .row _, _ => rfl
  | _, .begin e, .transaction tx, hmakes => by
    have henv : tx.env = e := hmakes
    simp only [Object.origin?, Action.origin?, henv]

/-- An object that is live after a call was live before, with the origin it has, or the call made it, and
the origin is that of the call. -/
theorem origin_step {engine : Engine} (hs : engine.objects.Sound) (functions : Hook → MergeFn)
    {kind : AnswerKind} (action : Action kind) {h : Handle} {object' : Object}
    (hget' : (engine.step functions action).2.objects.table.get? h = some object') :
    (∃ object, engine.objects.table.get? h = some object ∧ object.origin? = object'.origin?) ∨
      (engine.objects.issued < h ∧ action.origin? = object'.origin?) := by
  rcases (changes_step hs functions action).evolves.becomes h object' hget' with
    ⟨object, hget, hbecomes⟩ | ⟨hnew, object, hmakes, hbecomes⟩
  · exact .inl ⟨object, hget, hbecomes.origin⟩
  · exact .inr ⟨hnew, hmakes.origin?_eq.symm.trans hbecomes.origin⟩

/-! ### Runs -/

/-- The databases, cursors and transactions that calls make: what they were made as, and the environment
they were made for. -/
def made (engine : Engine) : List Request → Handle → Option Title
  | [], _ => none
  | request :: requests, h =>
    let next := (engine.step request.functions request.action).2
    if engine.objects.issued < h ∧ h ≤ next.objects.issued then request.action.origin?
    else next.made requests h

/-- After some calls a live object was there before, with the origin it has, or it was made by one of
the calls, and has the origin of that call. -/
theorem exists_origin_run : ∀ (requests : List Request) {engine : Engine}, engine.Reachable →
    ∀ h object', (engine.run requests).objects.table.get? h = some object' →
      (∃ object, engine.objects.table.get? h = some object ∧ object.origin? = object'.origin?) ∨
        (engine.objects.issued < h ∧ engine.made requests h = object'.origin?)
  | [], _, _, _, object, hget => .inl ⟨object, hget, rfl⟩
  | request :: requests, engine, hr, h, object', hget' => by
    have hnext := hr.step request.functions request.action
    rcases exists_origin_run requests hnext h object' hget' with ⟨object, hget, hsame⟩ | ⟨hnew, hmade⟩
    · have hle := (hnext.sound.live h object hget).2
      rcases origin_step hr.sound _ _ hget with ⟨old, hold, hsame'⟩ | ⟨hnew, horigin⟩
      · exact .inl ⟨old, hold, hsame'.trans hsame⟩
      · refine .inr ⟨hnew, ?_⟩
        rw [made, if_pos ⟨hnew, hle⟩, horigin, hsame]
    · have hsteady := steady_step hr.sound request.functions request.action
      refine .inr ⟨Nat.lt_of_le_of_lt hsteady.issued hnew, ?_⟩
      rw [made, if_neg fun hin => Nat.not_le_of_lt hnew hin.2, hmade]

/-- The origin of a live object is told by the calls that were made. -/
theorem origin_run {requests : List Request} {h : Handle} {object : Object}
    (hget : (run {} requests).objects.table.get? h = some object) :
    made {} requests h = object.origin? := by
  rcases exists_origin_run requests .start h object hget with ⟨old, hold, -⟩ | ⟨-, hmade⟩
  · cases hold
  · exact hmade

/-! ### What an environment owns -/

/-- What an environment owns after some calls: itself, the databases that were declared in it and the
cursors and transactions that were made in it, and the rows of its databases, whatever call they come
from. -/
inductive Owns (requests : List Request) (e : Handle) : Handle → Prop where
  | self : Owns requests e e
  | made {h : Handle} {kind : Kind} (origin : made {} requests h = some ⟨kind, e⟩) : Owns requests e h
  | row {h : Handle} {r : Row} (live : (run {} requests).objects.table.get? h = some (.row r))
    (declared : made {} requests r.db = some ⟨.database, e⟩) : Owns requests e h

section Owners

variable {requests : List Request} {h e : Handle} {object : Object} {env : Environment}

/-- A database, a cursor or a transaction that is live is owned by the environment that it was made
for. -/
theorem owns_iff_of_origin (henv : (run {} requests).objects.table.get? e = some (.environment env))
    (hget : (run {} requests).objects.table.get? h = some object) {title : Title}
    (horigin : object.origin? = some title) : Owns requests e h ↔ title.env = e := by
  have hmade := origin_run hget
  constructor
  · rintro (_ | hmade' | ⟨hrow, -⟩)
    · rw [henv, Option.some.injEq] at hget
      rw [← hget] at horigin
      cases horigin
    · rw [hmade', horigin, Option.some.injEq] at hmade
      rw [← hmade]
    · rw [hget, Option.some.injEq] at hrow
      rw [hrow] at horigin
      cases horigin
  · rintro rfl
    exact .made (hmade.trans horigin)

/-- An environment owns no other. -/
theorem owns_environment_iff {own : Environment}
    (hget : (run {} requests).objects.table.get? h = some (.environment own)) :
    Owns requests e h ↔ h = e := by
  constructor
  · rintro (_ | hmade | ⟨hrow, -⟩)
    · rfl
    · rw [origin_run hget] at hmade
      cases hmade
    · rw [hget] at hrow
      cases hrow
  · rintro rfl
    exact .self

/-- A live row is owned by the environment that its database was declared in. -/
theorem owns_row_iff (henv : (run {} requests).objects.table.get? e = some (.environment env)) {r : Row}
    (hget : (run {} requests).objects.table.get? h = some (.row r)) :
    Owns requests e h ↔ (run {} requests).objects.title? r.db = some ⟨.database, e⟩ := by
  have hs : (run {} requests).objects.Sound := (Reachable.start.run requests).sound
  obtain ⟨own, name, fields, houtline, -⟩ := hs.sound h _ hget
  obtain ⟨db, hdb, -⟩ := Objects.outline?_eq_database houtline
  have hmade : made {} requests r.db = some ⟨.database, db.env⟩ := origin_run hdb
  rw [Objects.title?_eq_database]
  constructor
  · rintro (_ | hmade' | ⟨hrow, hdeclared⟩)
    · rw [henv] at hget
      cases hget
    · rw [origin_run hget] at hmade'
      cases hmade'
    · rw [hget] at hrow
      cases hrow
      rw [hmade] at hdeclared
      cases hdeclared
      exact ⟨db, hdb, rfl⟩
  · rintro ⟨db', hdb', rfl⟩
    exact .row hget (origin_run hdb')

/-- What an environment owns is what is found to be owned by it. -/
theorem owner?_eq_some_iff_owns
    (henv : (run {} requests).objects.table.get? e = some (.environment env))
    (hget : (run {} requests).objects.table.get? h = some object) :
    (run {} requests).objects.owner? h object = some e ↔ Owns requests e h := by
  cases object with
  | environment own => rw [owns_environment_iff hget, Objects.owner?, Option.some.injEq]
  | database db => rw [owns_iff_of_origin henv hget rfl, Objects.owner?, Option.some.injEq]
  | row r => rw [owns_row_iff henv hget, Objects.owner?_row_eq_some]
  | cursor c => rw [owns_iff_of_origin henv hget rfl, Objects.owner?, Option.some.injEq]
  | transaction tx => rw [owns_iff_of_origin henv hget rfl, Objects.owner?, Option.some.injEq]

/-- What is live is owned by one live environment only. -/
theorem Owns.unique {e' : Handle} {env' : Environment} (howns : Owns requests e h)
    (howns' : Owns requests e' h)
    (hget : (run {} requests).objects.table.get? h = some object)
    (henv : (run {} requests).objects.table.get? e = some (.environment env))
    (henv' : (run {} requests).objects.table.get? e' = some (.environment env')) : e = e' := by
  have howner := (owner?_eq_some_iff_owns henv hget).2 howns
  have howner' := (owner?_eq_some_iff_owns henv' hget).2 howns'
  exact Option.some.inj (howner.symm.trans howner')

/-- Whatever is live is owned by an environment that is live. -/
theorem Objects.Sound.exists_owner {objects : Objects} (hs : objects.Sound)
    (hget : objects.table.get? h = some object) :
    ∃ e env, objects.owner? h object = some e ∧ objects.table.get? e = some (.environment env) := by
  have howner {d : Handle} {db : Database} (hdb : objects.table.get? d = some (.database db)) :
      ∃ env, objects.table.get? db.env = some (.environment env) :=
    Objects.outline?_eq_environment (hs.sound d _ hdb).1
  cases object with
  | environment env => exact ⟨h, env, rfl, hget⟩
  | database db =>
    obtain ⟨env, henv⟩ := howner hget
    exact ⟨db.env, env, rfl, henv⟩
  | row r =>
    obtain ⟨own, name, fields, houtline, -⟩ := hs.sound h _ hget
    obtain ⟨db, hdb, -⟩ := Objects.outline?_eq_database houtline
    obtain ⟨env, henv⟩ := howner hdb
    refine ⟨db.env, env, ?_, henv⟩
    rw [Objects.owner?_row_eq_some, Objects.title?_eq_database]
    exact ⟨db, hdb, rfl⟩
  | cursor c =>
    obtain ⟨env, henv⟩ := Objects.outline?_eq_environment (hs.sound h _ hget)
    exact ⟨c.env, env, rfl, henv⟩
  | transaction tx =>
    obtain ⟨env, henv⟩ := Objects.outline?_eq_environment (hs.sound h _ hget).1
    exact ⟨tx.env, env, rfl, henv⟩

/-! ### Destruction -/

/-- Destroying an environment takes what is found to be owned by it. -/
theorem get?_destroy_environment {engine : Engine}
    (henv : engine.objects.table.get? e = some (.environment env)) :
    (engine.destroy e).1 = true ∧ ∀ h, (engine.destroy e).2.objects.table.get? h =
      (engine.objects.table.get? h).filter fun object => engine.objects.owner? h object != some e := by
  rw [destroy, Objects.destroy_eq_ok.2 (.inl ⟨env, henv, rfl⟩)]
  refine ⟨rfl, fun h => Option.ext fun object => ?_⟩
  rw [Option.filter_eq_some_iff]
  exact Objects.get?_filter

theorem get?_destroy_of_owns
    (henv : (run {} requests).objects.table.get? e = some (.environment env))
    (howns : Owns requests e h) : ((run {} requests).destroy e).2.objects.table.get? h = none := by
  rw [(get?_destroy_environment henv).2]
  cases hget : (run {} requests).objects.table.get? h with
  | none => rfl
  | some object =>
    have howner := (owner?_eq_some_iff_owns henv hget).2 howns
    exact Option.filter_some_neg (by simp [howner])

theorem get?_destroy_of_not_owns
    (henv : (run {} requests).objects.table.get? e = some (.environment env))
    (hnot : ¬Owns requests e h) : ((run {} requests).destroy e).2.objects.table.get? h =
      (run {} requests).objects.table.get? h := by
  rw [(get?_destroy_environment henv).2]
  cases hget : (run {} requests).objects.table.get? h with
  | none => rfl
  | some object =>
    have hother : (run {} requests).objects.owner? h object ≠ some e := fun howner =>
      hnot ((owner?_eq_some_iff_owns henv hget).1 howner)
    exact Option.filter_some_pos (bne_iff_ne.2 hother)

/-- What another environment owns is as it was. -/
theorem get?_destroy_of_owns_other {e' : Handle} {env' : Environment}
    (henv : (run {} requests).objects.table.get? e = some (.environment env))
    (henv' : (run {} requests).objects.table.get? e' = some (.environment env')) (hne : e' ≠ e)
    (howns' : Owns requests e' h) : ((run {} requests).destroy e).2.objects.table.get? h =
      (run {} requests).objects.table.get? h := by
  cases hget : (run {} requests).objects.table.get? h with
  | none =>
    rw [(get?_destroy_environment henv).2, hget]
    rfl
  | some object =>
    rw [← hget]
    exact get?_destroy_of_not_owns henv fun howns => hne (howns'.unique howns hget henv' henv)

end Owners

/-- A database is not destroyed on its own. -/
theorem destroy_database {engine : Engine} {d : Handle} {db : Database}
    (hdb : engine.objects.table.get? d = some (.database db)) :
    engine.destroy d = (false, { engine with diagnostic? := some (.notDestroyable "database") }) := by
  have hdestroy : engine.objects.destroy d = .error (.notDestroyable "database") := by
    rw [Objects.destroy, Objects.find_eq_ok.2 hdb]
    rfl
  rw [destroy, hdestroy]
  rfl

/-- **Destroying an environment removes exactly what it owns.** After any calls, destroying a live
environment succeeds and removes what it owns and nothing else. What another environment owns is as it
was, and whatever is live is owned by one live environment. A database is refused to be destroyed, and
nothing changes. -/
theorem destroy_removes_owned (requests : List Request) (functions : Hook → MergeFn) {e : Handle}
    {env : Environment} (henv : (run {} requests).objects.table.get? e = some (.environment env)) :
    let before := run {} requests
    let after := (before.step functions (.destroy e)).2
    (before.step functions (.destroy e)).1 = true ∧
      (∀ h, Owns requests e h → after.objects.table.get? h = none) ∧
      (∀ h, ¬Owns requests e h → after.objects.table.get? h = before.objects.table.get? h) ∧
      (∀ e' env', e' ≠ e → before.objects.table.get? e' = some (.environment env') →
        ∀ h, Owns requests e' h → after.objects.table.get? h = before.objects.table.get? h) ∧
      (∀ h object, before.objects.table.get? h = some object → ∃! e', Owns requests e' h ∧
        ∃ env', before.objects.table.get? e' = some (.environment env')) ∧
      ∀ d db, before.objects.table.get? d = some (.database db) →
        (before.step functions (.destroy d)).1 = false ∧
          (before.step functions (.destroy d)).2.objects = before.objects := by
  intro before after
  have hs : before.objects.Sound := (Reachable.start.run requests).sound
  refine ⟨(get?_destroy_environment henv).1, fun h howns => get?_destroy_of_owns henv howns,
    fun h hnot => get?_destroy_of_not_owns henv hnot,
    fun e' env' hne henv' h howns' => get?_destroy_of_owns_other henv henv' hne howns',
    fun h object hget => ?_, fun d db hdb => ?_⟩
  · obtain ⟨owner, env', howner, hlive⟩ := hs.exists_owner hget
    have howns := (owner?_eq_some_iff_owns hlive hget).1 howner
    refine ⟨owner, ⟨howns, env', hlive⟩, ?_⟩
    rintro e' ⟨howns', env'', hlive'⟩
    exact howns'.unique howns hget hlive' hlive
  · have hrefused := destroy_database hdb
    exact ⟨congrArg Prod.fst hrefused, congrArg (fun answer => answer.2.objects) hrefused⟩

namespace Numbers

/-- The calls that make a row, a second environment, and a cursor in each environment. -/
def doubling : List Request := [⟨idle, .newRow 2⟩, ⟨idle, .newEnvironment⟩, ⟨idle, .newCursor 1⟩,
  ⟨idle, .newCursor 4⟩]

/-- The second environment keeps its cursor when the first one goes with its database, its row and its
cursor. -/
theorem second_survives :
    let before := run {} (declaring idle ++ doubling)
    let after := (before.step idle (.destroy 1)).2
    (before.step idle (.destroy 1)).1 = true ∧
      (∀ h ∈ [1, 2, 3, 5], after.objects.table.get? h = none) ∧
      after.objects.table.get? 6 = some (.cursor { env := 4 }) ∧
      (before.step idle (.destroy 2)).1 = false := by
  have hbefore : run {} (declaring idle ++ doubling) = declared.run doubling :=
    run_declaring idle doubling
  have hlive : ∀ h object, (declared.run doubling).objects.table.get? h = some object →
      (run {} (declaring idle ++ doubling)).objects.table.get? h = some object := fun _ _ hget => by
    rw [hbefore, hget]
  have hdb := hlive 2 (.database { env := 1, name := "numbers", fields := [number] }) rfl
  have hrow := hlive 3 (.row { db := 2 }) rfl
  have hcursor := hlive 5 (.cursor { env := 1 }) rfl
  have hother := hlive 6 (.cursor { env := 4 }) rfl
  obtain ⟨hanswer, hgone, -, hkept, -, hdatabase⟩ := destroy_removes_owned (declaring idle ++ doubling)
    idle (hlive 1 (.environment { databases := Table.ofList [("numbers", 2)] }) rfl)
  refine ⟨hanswer, ?_, ?_, (hdatabase 2 _ hdb).1⟩
  · intro h hmem
    have howns : Owns (declaring idle ++ doubling) 1 h := by
      simp only [List.mem_cons, List.not_mem_nil, or_false] at hmem
      rcases hmem with rfl | rfl | rfl | rfl
      · exact .self
      · exact .made (origin_run hdb)
      · exact .row hrow (origin_run hdb)
      · exact .made (origin_run hcursor)
    exact hgone h howns
  · have henv := hlive 4 (.environment {}) rfl
    exact (hkept 4 _ (by decide) henv 6 (.made (origin_run hother))).trans hother

end Numbers

end RowStore.Engine
