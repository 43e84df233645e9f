/-
# Sessions beside each other

Two sessions are alike if their worlds are, and their slots hold the same but for the policies of the
caches. A command carried out in both has the same answer, or fails for the same reason, also if it
creates an environment with one cache here and another there; only what it tells about a cache differs.
So two programs that differ in the caches they ask for and in the time they let pass have the same
results, one for one, and leave the engine in the same state.

Key definitions: `Session.Alike`, `Session.InStep`, `Session.Command.Alike`, `Session.Answer.Alike`.
Key theorems: `Session.inStep_perform`, `Session.alike_run`, `Session.run_transparent`.
-/
import RowStore.Proofs.Client.Transparency
import RowStore.Session.Step

namespace RowStore.Session

open Client

/-! ### Alike sessions -/

/-- The slots hold the same, but for the policy of a cache. -/
inductive Holding.Alike : Holding → Holding → Prop where
  | same (holding : Holding) : Alike holding holding
  | environment {env env' : Environment} :
    env.Alike env' → Alike (.environment env) (.environment env')

/-- The worlds of the sessions are alike, and so is what their slots hold. -/
structure Alike (session session' : Session) : Prop where
  world : session.world.Alike session'.world
  slots : ∀ slot, Option.Rel Holding.Alike (session.slots.get? slot) (session'.slots.get? slot)

theorem alike_start : Alike {} {} := ⟨World.alike_start, fun _ => .none⟩

/-- Letting time pass makes no difference. -/
theorem Alike.advance {session session' : Session} (h : session.Alike session') (ns ns' : Nat) :
    Alike { session with world := session.world.advance ns }
      { session' with world := session'.world.advance ns' } := ⟨h.world.advance ns ns', h.slots⟩

/-! ### Steps beside each other -/

section InStep

variable {α α' β β' : Type} {R : α → α' → Prop} {R' : β → β' → Prop} {slot : Slot}

/-- In alike sessions both steps fail for the same reason, or both succeed with values that `R`
relates, and they leave alike sessions. -/
abbrev InStep (R : α → α' → Prop) (x : Step α) (x' : Step α') : Prop :=
  Coupled Alike (Outcome R) x.run x'.run

theorem InStep.bind {x : Step α} {x' : Step α'} {f : α → Step β} {f' : α' → Step β'}
    (hx : InStep R x x') (hf : ∀ a a', R a a' → InStep R' (f a) (f' a')) :
    InStep R' (x >>= f) (x' >>= f') := Coupled.run_bind hx hf

/-- Steps that have the same value go on alike. -/
theorem InStep.bind_eq {x x' : Step α} {f : α → Step β} {f' : α → Step β'} (hx : InStep Eq x x')
    (hf : ∀ a, InStep R' (f a) (f' a)) : InStep R' (x >>= f) (x' >>= f') := by
  refine hx.bind fun a a' ha => ?_
  cases ha
  exact hf a

theorem inStep_pure {a : α} {a' : α'} (h : R a a') : InStep R (pure a) (pure a') :=
  coupled_run_pure h

theorem inStep_throw (trouble : Trouble) : InStep R (throw trouble) (throw trouble) :=
  coupled_run_throw trouble

theorem inStep_get : InStep Alike get get := fun _ _ h => ⟨.ok h, h⟩

theorem inStep_modify {f f' : Session → Session}
    (h : ∀ session session', session.Alike session' → (f session).Alike (f' session')) :
    InStep Eq (modify f) (modify f') := (coupled_modify h).run_lift

theorem inStep_lift {x : Client α} {x' : Client α'} (hx : Coupled World.Alike R x x') :
    InStep R (lift x) (lift x') := fun session session' h => by
  obtain ⟨ha, hw⟩ := hx session.world session'.world h.world
  exact ⟨.ok ha, hw, h.slots⟩

theorem inStep_attempt {x : Attempt α} {x' : Attempt α'}
    (hx : Coupled World.Alike (Outcome R) x.run x'.run) : InStep R (attempt x) (attempt x') := by
  refine (inStep_lift hx).bind fun result result' hresult => ?_
  cases hresult with
  | ok ha => exact inStep_pure ha
  | error failure => exact inStep_throw _

theorem inStep_criteria (clauses : List Clause) : InStep Eq (criteria clauses) (criteria clauses) := by
  unfold criteria
  cases CriteriaSet.build clauses with
  | ok asked => exact inStep_pure rfl
  | error fault => exact inStep_throw _

/-! ### Slots beside each other -/

theorem inStep_hold (slot : Slot) {holding holding' : Holding} (hh : holding.Alike holding') :
    InStep Eq (hold slot holding) (hold slot holding') :=
  inStep_modify fun session session' h => ⟨h.world, fun slot' => by
    show Option.Rel _ ((session.slots.insert slot holding).get? slot')
      ((session'.slots.insert slot holding').get? slot')
    rw [Table.get?_insert, Table.get?_insert]
    split
    · exact .some hh
    · exact h.slots slot'⟩

theorem inStep_empty (slot : Slot) : InStep Eq (empty slot) (empty slot) :=
  inStep_modify fun session session' h => ⟨h.world, fun slot' => by
    show Option.Rel _ ((session.slots.erase slot).get? slot') ((session'.slots.erase slot).get? slot')
    rw [Table.get?_erase, Table.get?_erase]
    split
    · exact .none
    · exact h.slots slot'⟩

theorem inStep_held (slot : Slot) :
    InStep (Option.Rel Holding.Alike) (held? slot) (held? slot) :=
  fun _ _ h => ⟨.ok (h.slots slot), h⟩

theorem Holding.Alike.release {holding holding' : Holding} (h : holding.Alike holding') :
    Coupled World.Alike Eq holding.release holding'.release := by
  cases h with
  | same =>
    cases holding with
    | environment env => exact env.blind_release
    | database db => exact coupled_pure rfl
    | row row => exact row.plain_release.blind
    | cursor cursor schema => exact cursor.plain_release.blind
    | transaction tx => exact tx.plain_release.blind
  | @environment env env' halike =>
    obtain ⟨policy, rfl⟩ := halike
    exact env.blind_release

theorem inStep_drop (slot : Slot) : InStep Eq (drop slot) (drop slot) := by
  refine (inStep_held slot).bind fun held held' hheld => ?_
  cases hheld with
  | none => exact inStep_pure rfl
  | some hh =>
    exact (inStep_empty slot).bind_eq fun _ => (inStep_lift hh.release).bind_eq fun _ =>
      inStep_pure rfl

/-- What is picked from a slot is related if what is picked from any two environments that differ in
policy is. -/
theorem inStep_look {select : Holding → Option α} {select' : Holding → Option α'}
    (h : ∀ holding holding', Holding.Alike holding holding' →
      Option.Rel R (select holding) (select' holding')) :
    InStep R (look slot select) (look slot select') := by
  refine (inStep_held slot).bind fun held held' hheld => ?_
  cases hheld with
  | none => exact inStep_throw _
  | some hh =>
    dsimp only [Option.bind_some]
    have hselect := h _ _ hh
    generalize select _ = picked at hselect
    generalize select' _ = picked' at hselect
    cases hselect with
    | none => exact inStep_throw _
    | some ha => exact inStep_pure ha

/-- No policy is seen by what picks nothing from an environment. -/
theorem inStep_look_eq {select : Holding → Option α}
    (h : ∀ env, select (.environment env) = none) : InStep Eq (look slot select) (look slot select) :=
  inStep_look fun holding holding' hh => by
    cases hh with
    | same =>
      cases select holding with
      | none => exact .none
      | some a => exact .some rfl
    | environment _ =>
      rw [h, h]
      exact .none

theorem inStep_environment (slot : Slot) :
    InStep Environment.Alike (environment slot) (environment slot) :=
  inStep_look fun holding holding' hh => by
    cases hh with
    | same =>
      cases holding with
      | environment env => exact .some ⟨env.policy, rfl⟩
      | _ => exact .none
    | environment h => exact .some h

theorem inStep_database (slot : Slot) : InStep Eq (database slot) (database slot) :=
  inStep_look_eq fun _ => rfl

theorem inStep_row (slot : Slot) : InStep Eq (row slot) (row slot) := inStep_look_eq fun _ => rfl

theorem inStep_cursor (slot : Slot) : InStep Eq (cursor slot) (cursor slot) :=
  inStep_look_eq fun _ => rfl

theorem inStep_transaction (slot : Slot) : InStep Eq (transaction slot) (transaction slot) :=
  inStep_look_eq fun _ => rfl

theorem inStep_takeRow (slot : Slot) : InStep Eq (takeRow slot) (takeRow slot) :=
  (inStep_row slot).bind_eq fun _ => (inStep_empty slot).bind_eq fun _ => inStep_pure rfl

/-- An operation on the environment in a slot that does not depend on the policy of its cache. -/
theorem inStep_environment_bind {f : Environment → Step β} {f' : Environment → Step β'}
    (hf : ∀ (env : Environment) policy, InStep R' (f env) (f' { env with policy })) :
    InStep R' (environment slot >>= f) (environment slot >>= f') :=
  (inStep_environment slot).bind fun env _ ⟨policy, h⟩ => h ▸ hf env policy

theorem inStep_releasing {x : Step α} (hx : InStep Eq x x) (row : Row) :
    InStep Eq (tryCatch x fun trouble => do lift row.release; throw trouble)
      (tryCatch x fun trouble => do lift row.release; throw trouble) :=
  hx.run_tryCatch fun trouble =>
    (inStep_lift row.plain_release.blind).bind_eq fun _ => inStep_throw trouble

theorem inStep_storeFor (taken : Row) (slot : Slot) :
    InStep Eq (storeFor taken slot) (storeFor taken slot) :=
  inStep_releasing (inStep_look_eq fun _ => rfl) taken

theorem inStep_filledRow (db : Database) (fields : Assignments) :
    InStep Eq (filledRow db fields) (filledRow db fields) :=
  (inStep_attempt db.plain_newRow.blind.run).bind_eq fun made => inStep_releasing
    ((inStep_attempt (made.quiet_setAll fields).blind.run).bind_eq fun _ => inStep_pure rfl) made

end InStep

/-! ### Commands beside each other -/

/-- The answers are the same but for what they tell about a cache. -/
inductive Answer.Alike : Answer → Answer → Prop where
  | same (answer : Answer) : Alike answer answer
  | environment (path? : Option String) (policy policy' : CachePolicy) (termination : Termination) :
    Alike (.environment path? policy termination) (.environment path? policy' termination)
  | cache (size size' : Nat) (refs refs' : List (Option Nat)) (stats stats' : CacheStats) :
    Alike (.cache size refs stats) (.cache size' refs' stats')

/-- The commands are the same but for the cache that they ask for. -/
inductive Command.Alike : Command → Command → Prop where
  | same (command : Command) : Alike command command
  | create (into : Slot) (path? : Option String) (policy policy' : CachePolicy)
      (termination : Termination) :
    Alike (.createEnvironment into path? policy termination)
      (.createEnvironment into path? policy' termination)

section Perform

variable {α : Type} {x : Step α} {answer : α → Answer}

theorem inStep_answer (answer : Answer) :
    InStep Answer.Alike (pure answer : Step Answer) (pure answer) := inStep_pure (.same answer)

/-- An operation of a client that can fail, and what the command answers. -/
theorem inStep_attempt_answer {x : Attempt α} (hx : Blind x.run) {f : α → Step Answer}
    (hf : ∀ a, InStep Answer.Alike (f a) (f a)) :
    InStep Answer.Alike (attempt x >>= f) (attempt x >>= f) := (inStep_attempt hx.run).bind_eq hf

theorem inStep_createEnvironment (into : Slot) (path? : Option String) (policy policy' : CachePolicy)
    (termination : Termination) :
    InStep Answer.Alike (perform (.createEnvironment into path? policy termination))
      (perform (.createEnvironment into path? policy' termination)) := by
  refine (inStep_drop into).bind_eq fun _ => ?_
  refine (inStep_attempt (Environment.coupled_create path? policy policy' termination)).bind
    fun env env' henv => ?_
  refine (inStep_hold into (.environment henv)).bind_eq fun _ => ?_
  obtain ⟨policy', rfl⟩ := henv
  exact inStep_pure (.environment ..)

theorem inStep_callRegistry (env : Environment) (call : RegistryCall) :
    InStep Eq (callRegistry env call) (callRegistry env call) := by
  cases call with
  | register f => exact (inStep_lift (env.blind_register f)).bind_eq fun _ => inStep_pure rfl
  | unregister token => exact (inStep_lift (env.blind_unregister token)).bind_eq fun _ => inStep_pure rfl
  | clear => exact (inStep_lift env.blind_clearRegistry).bind_eq fun _ => inStep_pure rfl
  | look => exact inStep_pure rfl

theorem inStep_advance (slot : Slot) : InStep Eq (advance slot) (advance slot) := by
  refine (inStep_cursor slot).bind_eq fun (current, schema) => ?_
  refine (inStep_lift current.plain_next.blind).bind_eq fun (result, current) => ?_
  refine (inStep_hold slot (.same _)).bind_eq fun _ => ?_
  rcases result with failure | _ | found
  · exact inStep_throw _
  · exact inStep_pure rfl
  · exact (inStep_lift (found.quiet_dump schema).blind).bind_eq fun _ => inStep_pure rfl

theorem inStep_visit (slot : Slot) (field : String) :
    InStep Eq (visit slot field) (visit slot field) := by
  refine (inStep_cursor slot).bind_eq fun (current, schema) => ?_
  have hcollect : Plain (current.collect fun found => liftM (found.getText field)) :=
    Cursor.plain_collect (fun found => (found.quiet_getText field).run_lift.plain) current
  refine (inStep_lift hcollect.blind).bind_eq fun (result, current) => ?_
  refine (inStep_hold slot (.same _)).bind_eq fun _ => ?_
  cases result with
  | error failure => exact inStep_throw _
  | ok texts => exact inStep_pure rfl

theorem inStep_scanAll (db : Database) (asked : CriteriaSet) :
    InStep Eq (scanAll db asked) (scanAll db asked) := by
  refine (inStep_attempt (db.plain_openCursor asked).blind.run).bind_eq fun opened => ?_
  have hcollect : Plain (opened.collect fun found => liftM (found.dump db.schema)) :=
    Cursor.plain_collect (fun found => (found.quiet_dump db.schema).run_lift.plain) opened
  refine (inStep_lift hcollect.blind).bind_eq fun (result, opened) => ?_
  cases result with
  | error failure =>
    exact (inStep_lift opened.plain_release.blind).bind_eq fun _ => inStep_throw _
  | ok dumps =>
    refine (inStep_lift opened.plain_close.blind).bind_eq fun (result, _) => ?_
    cases result with
    | error failure => exact inStep_throw _
    | ok _ => exact inStep_pure rfl

/-- An answer that does not tell about a cache. -/
theorem InStep.alike {x : Step Answer} (hx : InStep Eq x x) : InStep Answer.Alike x x := by
  have h : InStep Answer.Alike (x >>= pure) (x >>= pure) := hx.bind_eq inStep_answer
  rwa [bind_pure] at h

/-- Every command goes side by side with itself. -/
theorem inStep_perform_self (command : Command) :
    InStep Answer.Alike (perform command) (perform command) := by
  cases command with
  | createEnvironment into path? policy termination =>
    exact inStep_createEnvironment into path? policy policy termination
  | setSetting env path value =>
    refine inStep_environment_bind fun env _ => ?_
    exact inStep_attempt_answer (env.quiet_set path value).blind fun _ => inStep_answer _
  | getSetting env path =>
    refine inStep_environment_bind fun env _ => ?_
    refine (inStep_lift (env.quiet_getText path).blind).bind_eq fun text? => ?_
    exact (inStep_lift (env.quiet_getInt path).blind).bind_eq fun _ => inStep_answer _
  | declareDatabase env into name fields? merge? =>
    refine (inStep_drop into).bind_eq fun _ => inStep_environment_bind fun env _ => ?_
    refine inStep_attempt_answer (routine_check _ : Plain _).blind fun schema => ?_
    refine inStep_attempt_answer (env.blind_newDatabase name schema merge?) fun db => ?_
    exact (inStep_hold into (.same _)).bind_eq fun _ => inStep_answer _
  | openEnvironment env =>
    refine inStep_environment_bind fun env _ => ?_
    exact inStep_attempt_answer env.quiet_openUp.blind fun _ => inStep_answer _
  | closeEnvironment env =>
    refine inStep_environment_bind fun env _ => ?_
    exact inStep_attempt_answer env.blind_close fun _ => inStep_answer _
  | diagnostic env =>
    refine inStep_environment_bind fun env _ => ?_
    refine (inStep_lift env.quiet_error.blind).bind_eq fun text? => ?_
    exact (inStep_lift (blind_isClosed env.handle)).bind_eq fun _ => inStep_answer _
  | registry env call =>
    refine inStep_environment_bind fun env _ => ?_
    refine (inStep_callRegistry env call).bind_eq fun answer => ?_
    refine inStep_get.bind fun session session' h => ?_
    rw [(h.world.links env.handle).registry]
    exact inStep_answer _
  | cache env keys =>
    exact inStep_environment_bind fun env _ => inStep_get.bind fun _ _ _ => inStep_pure (.cache ..)
  | advance ns =>
    exact (inStep_modify fun _ _ h => h.advance ns ns).bind_eq fun _ => inStep_answer _
  | plan primitive entries =>
    refine (inStep_modify fun _ _ h => ?_).bind_eq fun _ => inStep_answer _
    exact ⟨h.world.plan primitive entries, h.slots⟩
  | drop slot =>
    refine (inStep_drop slot).bind_eq fun dropped => ?_
    cases dropped
    · exact inStep_throw _
    · exact inStep_answer _
  | summary slot => exact (inStep_look_eq fun _ => rfl).alike
  | newRow db into =>
    refine (inStep_drop into).bind_eq fun _ => (inStep_database db).bind_eq fun db => ?_
    refine inStep_attempt_answer db.plain_newRow.blind fun made => ?_
    exact (inStep_hold into (.same _)).bind_eq fun _ => inStep_answer _
  | setField slot field value =>
    refine (inStep_row slot).bind_eq fun row => ?_
    exact inStep_attempt_answer (row.quiet_set field value).blind fun _ => inStep_answer _
  | getField slot field kind =>
    refine (inStep_row slot).bind_eq fun row => ?_
    exact (inStep_lift (row.quiet_get field kind).blind).bind_eq fun _ => inStep_answer _
  | readField slot field =>
    refine (inStep_row slot).bind_eq fun row => ?_
    refine (inStep_lift (row.quiet_getWord field).blind).bind_eq fun int? => ?_
    refine (inStep_lift (row.quiet_getWord field).blind).bind_eq fun uint? => ?_
    refine (inStep_lift (row.quiet_getBytes field).blind).bind_eq fun bytes? => ?_
    exact (inStep_lift (row.quiet_getText field).blind).bind_eq fun _ => inStep_answer _
  | destroyRow slot =>
    refine (inStep_takeRow slot).bind_eq fun taken => ?_
    exact inStep_attempt_answer taken.plain_destroy.blind fun _ => inStep_answer _
  | write slot into kind =>
    refine (inStep_takeRow slot).bind_eq fun taken => ?_
    refine (inStep_storeFor taken into).bind_eq fun store => ?_
    exact inStep_attempt_answer (store.plain_write taken kind).blind fun _ => inStep_answer _
  | lookup key source into =>
    refine (inStep_drop into).bind_eq fun _ => (inStep_takeRow key).bind_eq fun taken => ?_
    refine (inStep_storeFor taken source).bind_eq fun store => ?_
    refine inStep_attempt_answer (store.plain_lookup taken).blind fun found => ?_
    exact (inStep_hold into (.same _)).bind_eq fun _ => inStep_answer _
  | put db into fields kind =>
    refine (inStep_database db).bind_eq fun db => (inStep_filledRow db fields).bind_eq fun made => ?_
    refine (inStep_storeFor made into).bind_eq fun store => ?_
    exact inStep_attempt_answer (store.plain_write made kind).blind fun _ => inStep_answer _
  | find db source fields =>
    refine (inStep_database db).bind_eq fun db => (inStep_filledRow db fields).bind_eq fun key => ?_
    refine (inStep_storeFor key source).bind_eq fun store => ?_
    refine inStep_attempt_answer (store.plain_lookup key).blind fun found => ?_
    refine (inStep_lift (found.quiet_dump db.schema).blind).bind_eq fun dump => ?_
    exact (inStep_lift found.plain_release.blind).bind_eq fun _ => inStep_answer _
  | openCursor db into clauses =>
    refine (inStep_drop into).bind_eq fun _ => (inStep_criteria clauses).bind_eq fun asked => ?_
    refine (inStep_database db).bind_eq fun db => ?_
    refine inStep_attempt_answer (db.plain_openCursor asked).blind fun opened => ?_
    exact (inStep_hold into (.same _)).bind_eq fun _ => inStep_answer _
  | next slot => exact (inStep_advance slot).alike
  | forEach slot field => exact (inStep_visit slot field).alike
  | closeCursor slot =>
    refine (inStep_cursor slot).bind_eq fun (opened, schema) => ?_
    refine (inStep_lift opened.plain_close.blind).bind_eq fun (result, opened) => ?_
    refine (inStep_hold slot (.same _)).bind_eq fun _ => ?_
    cases result with
    | error failure => exact inStep_throw _
    | ok _ => exact inStep_answer _
  | cursorState slot => exact (inStep_cursor slot).bind_eq fun _ => inStep_answer _
  | scan db clauses =>
    refine (inStep_criteria clauses).bind_eq fun asked => (inStep_database db).bind_eq fun db => ?_
    exact (inStep_scanAll db asked).alike
  | begin env into =>
    refine (inStep_drop into).bind_eq fun _ => inStep_environment_bind fun env _ => ?_
    refine inStep_attempt_answer env.plain_begin.blind fun tx => ?_
    exact (inStep_hold into (.same _)).bind_eq fun _ => inStep_answer _
  | commit slot =>
    refine (inStep_transaction slot).bind_eq fun tx => ?_
    refine (inStep_lift tx.plain_commit.blind).bind_eq fun (status, tx) => ?_
    exact (inStep_hold slot (.same _)).bind_eq fun _ => inStep_answer _
  | rollback slot =>
    refine (inStep_transaction slot).bind_eq fun tx => (inStep_empty slot).bind_eq fun _ => ?_
    exact inStep_attempt_answer tx.plain_rollback.blind fun _ => inStep_answer _

/-- Commands that are alike go side by side. -/
theorem inStep_perform {command command' : Command} (h : command.Alike command') :
    InStep Answer.Alike (perform command) (perform command') := by
  cases h with
  | same => exact inStep_perform_self command
  | create into path? policy policy' termination =>
    exact inStep_createEnvironment into path? policy policy' termination

end Perform

/-! ### Programs beside each other -/

/-- The command lets time pass. -/
def Command.isAdvance : Command → Bool
  | .advance _ => true
  | _ => false

/-- The commands that do more than let time pass. -/
def operations (commands : List Command) : List Command :=
  commands.filter fun command => !command.isAdvance

/-- What these commands answer, or fail with, in a run. -/
def results (session : Session) (commands : List Command) : List (Except Trouble Answer) :=
  ((commands.zip (session.run commands).1).filter fun e => !e.1.isAdvance).map (·.2)

variable {session session' : Session} {command command' : Command} {commands commands' : List Command}

theorem operations_cons (command : Command) (commands : List Command) :
    operations (command :: commands) =
      if command.isAdvance then operations commands else command :: operations commands := by
  unfold operations
  rw [List.filter_cons]
  cases command.isAdvance <;> rfl

theorem results_cons (session : Session) (command : Command) (commands : List Command) :
    session.results (command :: commands) =
      if command.isAdvance then (session.step command).2.results commands
      else (session.step command).1 :: (session.step command).2.results commands := by
  show ((List.filter _ ((command, (session.step command).1) :: _)).map _ : List _) = _
  rw [List.filter_cons]
  cases command.isAdvance <;> rfl

theorem run_cons (session : Session) (command : Command) (commands : List Command) :
    (session.run (command :: commands)).2 = ((session.step command).2.run commands).2 := rfl

theorem Alike.step (h : session.Alike session') (hc : command.Alike command') :
    Outcome Answer.Alike (session.step command).1 (session'.step command').1 ∧
      (session.step command).2.Alike (session'.step command').2 := inStep_perform hc _ _ h

/-- Time passes on one side only. -/
theorem Alike.pass (h : session.Alike session') (hc : command.isAdvance = true) :
    (session.step command).2.Alike session' ∧ session.Alike (session'.step command).2 := by
  cases command with
  | advance ns => exact ⟨h.advance ns 0, h.advance 0 ns⟩
  | _ => cases hc

/-- Programs whose operations are alike, one for one, have alike results, one for one, and end alike:
time that one of them lets pass is skipped, and an operation is carried out in both. -/
theorem alike_run (commands commands' : List Command) {session session' : Session}
    (hs : session.Alike session')
    (h : List.Forall₂ Command.Alike (operations commands) (operations commands')) :
    List.Forall₂ (Outcome Answer.Alike) (session.results commands) (session'.results commands') ∧
      (session.run commands).2.Alike (session'.run commands').2 := by
  match commands, commands' with
  | [], [] => exact ⟨.nil, hs⟩
  | command :: commands, commands' =>
    by_cases hpass : command.isAdvance = true
    · rw [operations_cons, if_pos hpass] at h
      rw [results_cons, if_pos hpass, run_cons]
      exact alike_run commands commands' (hs.pass hpass).1 h
    match commands' with
    | [] =>
      rw [operations_cons, if_neg hpass] at h
      cases h
    | command' :: commands' =>
      rw [operations_cons command'] at h
      rw [results_cons session', run_cons session']
      by_cases hpass' : command'.isAdvance = true
      · rw [if_pos hpass'] at h ⊢
        exact alike_run (command :: commands) commands' (hs.pass hpass').2 h
      · rw [operations_cons, if_neg hpass, if_neg hpass'] at h
        rw [results_cons, if_neg hpass, if_neg hpass', run_cons]
        cases h with
        | cons hc h =>
          obtain ⟨hanswer, hafter⟩ := hs.step hc
          obtain ⟨hresults, hend⟩ := alike_run commands commands' hafter h
          exact ⟨.cons hanswer hresults, hend⟩
  | [], command' :: commands' =>
    by_cases hpass' : command'.isAdvance = true
    · rw [operations_cons, if_pos hpass'] at h
      rw [results_cons, if_pos hpass', run_cons session']
      exact alike_run [] commands' (hs.pass hpass').2 h
    · rw [operations_cons, if_neg hpass'] at h
      cases h
termination_by commands.length + commands'.length

/-- Which caches a program asks for, and when it lets time pass, makes no difference to the results of
its operations or to the engine: only what it is told about a cache differs. -/
theorem run_transparent (commands commands' : List Command)
    (h : List.Forall₂ Command.Alike (operations commands) (operations commands')) :
    List.Forall₂ (Outcome Answer.Alike) (results {} commands) (results {} commands') ∧
      (run {} commands).2.world.engine = (run {} commands').2.world.engine ∧
      (run {} commands).2.Alike (run {} commands').2 := by
  obtain ⟨hresults, hend⟩ := alike_run commands commands' alike_start h
  exact ⟨hresults, hend.world.engine, hend⟩

namespace Numbers

/-- A number is put into a database and read from it, the names kept for good. -/
def keeping : List Command :=
  [.createEnvironment "env" (some "store") .static .early,
    .declareDatabase "env" "db" "numbers" (some [⟨"number", .int .eight false, true⟩]) none,
    .openEnvironment "env", .put "db" "db" [("number", .uint 3)] .put,
    .find "db" "db" [("number", .uint 3)], .cache "env" ["number"], .find "db" "db" []]

/-- The same, the names given up after five nanoseconds, and made anew in between. -/
def forgetting : List Command :=
  [.createEnvironment "env" (some "store") (.ttl 5) .early,
    .declareDatabase "env" "db" "numbers" (some [⟨"number", .int .eight false, true⟩]) none,
    .openEnvironment "env", .advance 4, .put "db" "db" [("number", .uint 3)] .put, .advance 6,
    .find "db" "db" [("number", .uint 3)], .cache "env" ["number"], .advance 6, .find "db" "db" []]

/-- The two programs beside each other: one finds the number and then has a lookup refused with the
names it has kept, the other with names made anew. -/
theorem keeping_forgetting :
    List.Forall₂ Command.Alike (operations keeping) (operations forgetting) ∧
      List.Forall₂ (Outcome Answer.Alike) (results {} keeping) (results {} forgetting) ∧
      (run {} keeping).2.world.engine = (run {} forgetting).2.world.engine ∧
      (run {} keeping).2.Alike (run {} forgetting).2 :=
  have h : List.Forall₂ Command.Alike (operations keeping) (operations forgetting) :=
    .cons (.create ..) (.cons (.same _) (.cons (.same _) (.cons (.same _) (.cons (.same _)
      (.cons (.same _) (.cons (.same _) .nil))))))
  ⟨h, run_transparent keeping forgetting h⟩

end Numbers
end RowStore.Session
