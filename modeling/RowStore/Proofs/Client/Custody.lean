/-
# Rows, stores and cursors in the books

What a client holds has tokens: a row one, a transaction one until it is finished, a cursor that is not
closed its own and those of its seed and its current row. An operation that gives something up gives up
its tokens, whatever comes of it, and one that makes something adds the tokens of what it made. A store
takes the token of every row that it is given, provided that the row is of its environment.

Key definitions: `Client.Row.token`, `Client.Transaction.tokens`, `Client.Cursor.tokens`,
`Client.Cursor.Homely`, `Client.Cursor.Kept`.
Key theorems: `Client.Store.accounts_write`, `Client.Store.accounts_lookup`,
`Client.Transaction.accounts_commit`, `Client.Database.accounts_openCursor`,
`Client.Cursor.kept_next`, `Client.Cursor.accounts_close`.
-/
import RowStore.Proofs.Client.Books
import RowStore.Proofs.Client.Draining
import RowStore.Proofs.Client.Isolation

namespace RowStore

open World (Accounts Conserves)

namespace Client

/-- The token of a row. -/
def Row.token (row : Row) : Token := (row.handle, ⟨.row, row.env⟩)

/-- The token of a database, which nobody gives up. -/
def Database.token (db : Database) : Token := (db.handle, ⟨.database, db.env⟩)

/-- The token of a transaction, until it is finished. -/
def Transaction.tokens (tx : Transaction) : List Token :=
  if tx.finished then [] else [(tx.handle, ⟨.transaction, tx.env⟩)]

theorem Transaction.tokens_of_unfinished {tx : Transaction} (hfinished : tx.finished = false) :
    tx.tokens = [(tx.handle, ⟨.transaction, tx.env⟩)] := by
  rw [tokens, hfinished]
  rfl

/-- The tokens of a store. -/
def Store.tokens : Store → List Token
  | .database db => [db.token]
  | .transaction tx => tx.tokens

/-- The tokens of a cursor and its rows, until it is closed. -/
def Cursor.tokens (cursor : Cursor) : List Token :=
  if cursor.closed then []
  else (cursor.handle, ⟨.cursor, cursor.env⟩) :: cursor.rows.map Row.token

/-- The rows of a cursor are of its environment. -/
def Cursor.Homely (cursor : Cursor) : Prop := ∀ row ∈ cursor.rows, row.env = cursor.env

/-- The tokens of what an operation made, if it did. -/
def made {ε α : Type} (tokensOf : α → List Token) : Except ε α → List Token
  | .ok a => tokensOf a
  | .error _ => []

variable {world : World} {rest : List Token}

@[simp] theorem made_nil {ε α : Type} (result : Except ε α) : made (fun _ => []) result = [] := by
  cases result <;> rfl

/-! ### Calls that can be refused -/

/-- Asking why a call was refused is no matter of the books. -/
theorem accounts_orRefused {action : Engine.Action .flag} (ha : (call action world).2.Accounts rest)
    (env : Handle) (operation : String) :
    (orRefused env operation action world).2.Accounts rest := by
  rw [orRefused_apply]
  generalize call action world = answer at ha
  obtain ⟨_ | _, after⟩ := answer
  · exact ha.along ((routine_refused env trivial operation).along)
  · exact ha

theorem accounts_handleOrRefused {action : Engine.Action .handle} {tokensOf : Handle → List Token}
    (ha : (call action world).2.Accounts
      ((call action world).1.toList.flatMap tokensOf ++ rest)) (env : Handle) (operation : String) :
    (handleOrRefused env operation action world).2.Accounts
      (made tokensOf (handleOrRefused env operation action world).1 ++ rest) := by
  rw [handleOrRefused_apply]
  generalize call action world = answer at ha
  obtain ⟨_ | h, after⟩ := answer
  · exact ha.along ((routine_refused env trivial operation).along)
  · rw [Option.toList_some, List.flatMap_singleton] at ha
    exact ha

/-- Destroying what a token stands for. -/
theorem accounts_destroy {token : Token} (ha : world.Accounts (token :: rest))
    (hopen : (world.link token.2.env).closed = false)
    (hkind : token.2.kind ≠ .environment ∧ token.2.kind ≠ .database) :
    (call (.destroy token.1) world).2.Accounts rest :=
  ha.gives hopen rfl
    (Engine.retitles_destroy (ha.balanced.title_eq List.mem_cons_self hopen) hkind).2

/-! ### Rows -/

namespace Row

variable {row : Row}

theorem accounts_release (ha : world.Accounts (row.token :: rest)) :
    (row.release world).2.Accounts rest := by
  unfold release
  rw [bind_apply, isClosed_apply]
  dsimp only
  cases hclosed : (world.link row.env).closed with
  | true => exact ha.dead hclosed
  | false => exact accounts_destroy ha hclosed ⟨nofun, nofun⟩

theorem accounts_destroy (ha : world.Accounts (row.token :: rest)) :
    (row.destroy world).2.Accounts rest := by
  unfold destroy
  rw [lift_bind_apply, isClosed_apply]
  dsimp only
  cases hclosed : (world.link row.env).closed with
  | true => exact ha.dead hclosed
  | false => exact accounts_orRefused (Client.accounts_destroy ha hclosed ⟨nofun, nofun⟩) _ _

end Row

/-- A row that is made has a token. -/
theorem Database.accounts_newRow {db : Database} (ha : world.Accounts rest)
    (hdb : db.token ∈ rest) :
    (db.newRow world).2.Accounts (made (fun row => [row.token]) (db.newRow world).1 ++ rest) := by
  unfold newRow
  rw [attempt_bind_apply]
  cases hclosed : (world.link db.env).closed with
  | true =>
    rw [ensureOpen_of_closed hclosed]
    exact ha
  | false =>
    rw [ensureOpen_apply hclosed]
    dsimp only
    obtain ⟨hnew, hretitles⟩ := Engine.retitles_newRow ha.reachable.sound
      (ha.balanced.title_eq hdb hclosed)
    have hmade : (call (.newRow db.handle) world).2.Accounts _ :=
      ha.gains hclosed (k := .row) nofun rfl hretitles
    have hstep : (world.engine.step world.mergeFunctions (.newRow db.handle)).1 =
      some (world.engine.objects.issued + 1) := hnew
    rw [attempt_bind_apply, handleOrRefused_of_some ha.faultFree hstep]
    rw [call_apply ha.faultFree] at hmade
    exact hmade

/-! ### Stores -/

namespace Store

variable {store : Store} {row : Row}

/-- A store that takes rows, of an environment that is not closed, is live. -/
theorem title_of_not_isShut (ha : world.Accounts rest) (hstore : store.tokens ⊆ rest)
    (hshut : ¬ store.IsShut world) :
    world.engine.objects.title? store.handle = some ⟨.database, store.env⟩ ∨
      world.engine.objects.title? store.handle = some ⟨.transaction, store.env⟩ := by
  obtain ⟨hfinished, hopen⟩ := not_isShut hshut
  cases store with
  | database db =>
    have hheld : db.token ∈ rest := hstore List.mem_cons_self
    exact .inl (ha.balanced.title_eq hheld hopen)
  | transaction tx =>
    rw [tokens, Transaction.tokens_of_unfinished hfinished] at hstore
    exact .inr (ha.balanced.title_eq (hstore List.mem_cons_self) hopen)

/-- A row that is written is given up. -/
theorem accounts_write (ha : world.Accounts (row.token :: rest)) (hstore : store.tokens ⊆ rest)
    (henv : row.env = store.env) (kind : WriteKind) :
    (store.write row kind world).2.Accounts rest := by
  unfold write
  rw [attempt_bind_apply]
  by_cases hshut : store.IsShut world
  · obtain ⟨failure, haccept⟩ := accept_of_isShut hshut row
    rw [haccept]
    exact Row.accounts_release ha
  · obtain ⟨hfinished, hopen⟩ := not_isShut hshut
    rw [accept_of_open (ha.serves hopen) hfinished]
    have hrow : (world.link row.token.2.env).closed = false := by
      rw [Row.token, henv]
      exact hopen
    refine accounts_orRefused (ha.gives hrow ?_ ?_) _ _
    · cases kind <;> rfl
    · refine Engine.retitles_write _ (e := store.env) ?_
        (title_of_not_isShut ha (List.subset_cons_of_subset _ hstore) hshut) kind
      rw [← henv]
      exact ha.balanced.title_eq List.mem_cons_self hrow

/-- A row to look up is given up, and a row that is found is of the environment of the store. -/
theorem accounts_lookup (ha : world.Accounts (row.token :: rest)) (henv : row.env = store.env) :
    (store.lookup row world).2.Accounts
      (made (fun row => [row.token]) (store.lookup row world).1 ++ rest) := by
  unfold lookup
  rw [attempt_bind_apply]
  by_cases hshut : store.IsShut world
  · obtain ⟨failure, haccept⟩ := accept_of_isShut hshut row
    rw [haccept]
    exact Row.accounts_release ha
  · obtain ⟨hfinished, hopen⟩ := not_isShut hshut
    rw [accept_of_open (ha.serves hopen) hfinished]
    have hrow : (world.link row.token.2.env).closed = false := by
      rw [Row.token, henv]
      exact hopen
    have htitle : world.engine.objects.title? row.handle = some ⟨.row, row.env⟩ :=
      ha.balanced.title_eq List.mem_cons_self hrow
    have hcall : (call (.lookup store.handle row.handle) world).2.Accounts _ :=
      ha.exchanges hrow rfl (Engine.exchanges_lookup ha.reachable.sound htitle store.handle)
    dsimp only
    rw [lift_bind_apply]
    generalize call (.lookup store.handle row.handle) world = answer at hcall
    obtain ⟨_ | found, after⟩ := answer
    · dsimp only
      rw [lift_bind_apply]
      have hdiagnostic := hcall.along (routine_diagnostic store.env trivial).along
      generalize diagnostic? store.env after = message at hdiagnostic
      obtain ⟨_ | text, final⟩ := message
      · exact hdiagnostic
      · exact hdiagnostic
    · rw [henv] at hcall
      exact hcall

end Store

/-! ### Transactions -/

/-- A transaction that begins has a token. -/
theorem Environment.accounts_begin {env : Environment} (ha : world.Accounts rest) :
    (env.begin world).2.Accounts (made Transaction.tokens (env.begin world).1 ++ rest) := by
  unfold begin
  rw [attempt_bind_apply]
  cases hclosed : (world.link env.handle).closed with
  | true =>
    rw [ensureOpen_of_closed hclosed]
    exact ha
  | false =>
    rw [ensureOpen_apply hclosed]
    have hcall : (call (.begin env.handle) world).2.Accounts
        ((call (.begin env.handle) world).1.toList.flatMap
          (fun h => [(h, ⟨.transaction, env.handle⟩)]) ++ rest) := by
      have hanswer : (call (.begin env.handle) world).1 = (world.engine.begin env.handle).1 := by
        rw [call_apply ha.faultFree, reach_fst]
        rfl
      rw [hanswer]
      rcases Engine.retitles_begin ha.reachable.sound env.handle with ⟨hnone, hsame⟩ | ⟨hsome, hmade⟩
      · rw [hnone]
        refine ha.call _ ?_ ha.balanced
        show world.engine.objects.Retitles _ _ (world.engine.begin env.handle).2.objects
        rw [hsame]
        exact .refl _
      · rw [hsome]
        exact ha.gains hclosed (k := .transaction) nofun rfl hmade
    have hhandle := accounts_handleOrRefused hcall env.handle "begin transaction"
    dsimp only
    rw [attempt_bind_apply]
    generalize handleOrRefused env.handle "begin transaction" (.begin env.handle) world = answer
      at hhandle
    obtain ⟨_ | h, after⟩ := answer
    · exact hhandle
    · exact hhandle

namespace Transaction

variable {tx : Transaction}

theorem accounts_commit (ha : world.Accounts (tx.tokens ++ rest)) :
    (tx.commit world).2.Accounts ((tx.commit world).1.2.tokens ++ rest) := by
  cases hfinished : tx.finished with
  | true =>
    rw [commit_of_finished hfinished]
    exact ha
  | false =>
    unfold commit
    rw [bind_apply, isClosed_apply]
    dsimp only
    rw [hfinished, Bool.false_or]
    cases hclosed : (world.link tx.env).closed with
    | true => exact ha
    | false =>
      rw [tokens_of_unfinished hfinished] at ha
      obtain ⟨hcode, hretitles⟩ := Engine.retitles_commit ha.homely
        (ha.balanced.title_eq List.mem_cons_self hclosed)
      have hcall : (call (.commit tx.handle) world).2.Accounts rest := ha.gives hclosed rfl hretitles
      have hanswer : (call (.commit tx.handle) world).1 = Engine.commitOk := by
        rw [call_apply ha.faultFree, reach_fst]
        exact hcode
      rw [if_neg Bool.false_ne_true, bind_apply, hanswer]
      exact hcall

theorem accounts_rollback (ha : world.Accounts (tx.tokens ++ rest)) :
    (tx.rollback world).2.Accounts rest := by
  cases hfinished : tx.finished with
  | true =>
    rw [rollback_of_finished hfinished]
    rw [tokens, hfinished] at ha
    exact ha
  | false =>
    rw [tokens_of_unfinished hfinished] at ha
    unfold rollback
    rw [hfinished]
    show (((ensureOpen tx.env >>= fun _ => _) : Attempt Unit) world).2.Accounts rest
    rw [attempt_bind_apply]
    cases hclosed : (world.link tx.env).closed with
    | true =>
      rw [ensureOpen_of_closed hclosed]
      exact ha.dead hclosed
    | false =>
      rw [ensureOpen_apply hclosed]
      exact accounts_orRefused (accounts_destroy ha hclosed ⟨nofun, nofun⟩) _ _

theorem accounts_release (ha : world.Accounts (tx.tokens ++ rest)) :
    (tx.release world).2.Accounts rest := by
  cases hfinished : tx.finished with
  | true =>
    rw [release_of_finished hfinished]
    rw [tokens, hfinished] at ha
    exact ha
  | false =>
    rw [tokens_of_unfinished hfinished] at ha
    unfold release
    rw [bind_apply, isClosed_apply]
    dsimp only
    rw [hfinished, Bool.false_or]
    cases hclosed : (world.link tx.env).closed with
    | true => exact ha.dead hclosed
    | false => exact accounts_destroy ha hclosed ⟨nofun, nofun⟩

end Transaction

/-! ### Opening a cursor -/

theorem Database.env_of_newRow {db : Database} {row : Row} {world' : World}
    (h : db.newRow world = (.ok row, world')) : row.env = db.env := by
  obtain ⟨-, middle, -, h⟩ := bind_eq_ok.1 h
  obtain ⟨handle, after, -, h⟩ := bind_eq_ok.1 h
  have hpair : ((.ok ⟨db.env, handle⟩, after) : Except Failure Row × World) = (.ok row, world') := h
  cases hpair
  rfl

theorem accounts_newCursor {e : Handle} (ha : world.Accounts rest)
    (hopen : (world.link e).closed = false) :
    ∃ handle after, handleOrRefused e "create cursor" (.newCursor e) world = (.ok handle, after) ∧
      after.Accounts ((handle, ⟨.cursor, e⟩) :: rest) := by
  obtain ⟨hnew, hretitles⟩ := Engine.retitles_newCursor ha.reachable.sound
    (ha.balanced.environment hopen)
  have hstep : (world.engine.step world.mergeFunctions (.newCursor e)).1 =
    some (world.engine.objects.issued + 1) := hnew
  have hmade : (call (.newCursor e) world).2.Accounts _ :=
    ha.gains hopen (k := .cursor) nofun rfl hretitles
  rw [call_apply ha.faultFree] at hmade
  exact ⟨_, _, handleOrRefused_of_some ha.faultFree hstep e "create cursor", hmade⟩

/-- The books balance with the tokens of the cursor, and its rows are of its environment. -/
structure Cursor.Kept (cursor : Cursor) (rest : List Token) (world : World) : Prop where
  accounts : world.Accounts (cursor.tokens ++ rest)
  homely : cursor.Homely

/-- A cursor that is opened has its token and that of its seed row, which is released if the cursor is
not opened. -/
theorem Database.accounts_openCursor {db : Database} (ha : world.Accounts rest)
    (hdb : db.token ∈ rest) (criteria : CriteriaSet) :
    match db.openCursor criteria world with
    | (.ok cursor, after) => cursor.Kept rest after
    | (.error _, after) => after.Accounts rest := by
  unfold openCursor
  rw [attempt_bind_apply]
  have hrow := accounts_newRow ha hdb
  have hfollows := db.plain_newRow.tame world
  rw [show db.newRow.run world = db.newRow world from rfl] at hfollows
  cases hclosed : (world.link db.env).closed with
  | true =>
    rw [newRow, attempt_bind_apply, ensureOpen_of_closed hclosed]
    exact ha
  | false =>
  rcases hnew : db.newRow world with ⟨_ | seed, middle⟩
  · rw [hnew] at hrow
    exact hrow
  rw [hnew] at hrow hfollows
  dsimp only
  rw [tryCatch_apply, attempt_bind_apply]
  have hseeded := hrow.along_run (quiet_seedScan criteria db.schema seed).along
  have hcontinues := ((quiet_seedScan criteria db.schema seed).along middle : Conserves _ _).continues
  rw [show (seedScan criteria db.schema seed).run middle = seedScan criteria db.schema seed middle
    from rfl] at hcontinues
  generalize seedScan criteria db.schema seed middle = answer at hseeded hcontinues
  obtain ⟨_ | predicates, after⟩ := answer
  · exact Row.accounts_release hseeded
  · have hopen : (after.link db.env).closed = false := by
      rw [hcontinues.closed, hfollows.closed, hclosed]
    obtain ⟨handle, final, hcursor, hfinal⟩ := accounts_newCursor hseeded hopen
    dsimp only
    rw [attempt_bind_apply, hcursor]
    refine ⟨hfinal, fun row hm => ?_⟩
    obtain rfl : row = seed := List.mem_singleton.1 hm
    exact env_of_newRow hnew

/-! ### Advancing a cursor -/

namespace Cursor

variable {cursor : Cursor} {row : Row}

theorem tokens_of_open (hopen : cursor.closed = false) :
    cursor.tokens = (cursor.handle, ⟨.cursor, cursor.env⟩) :: cursor.rows.map Row.token := by
  rw [tokens, hopen]
  rfl

/-- A cursor that is as another, but for whether it is at its end, holds what the other holds. -/
theorem Kept.exhausted (hk : cursor.Kept rest world) :
    { cursor with exhausted := true }.Kept rest world := ⟨hk.accounts, hk.homely⟩

/-- The row to fetch from is one of the rows of the cursor, which keeps the others. -/
theorem rows_of_takeRow {cursor' : Cursor} {row? : Option Row}
    (h : cursor.takeRow = (row?, cursor')) :
    cursor.rows = row?.toList ++ cursor'.rows ∧ cursor'.current? = none ∧
      cursor'.env = cursor.env ∧ cursor'.handle = cursor.handle ∧ cursor'.closed = cursor.closed := by
  unfold takeRow at h
  unfold rows
  cases hcurrent : cursor.current? with
  | some row =>
    rw [hcurrent] at h
    cases h
    exact ⟨rfl, rfl, rfl, rfl, rfl⟩
  | none =>
    rw [hcurrent] at h
    cases h
    exact ⟨(List.append_nil _).symm, rfl, rfl, rfl, rfl⟩

/-- The row to fetch from is of the environment of the cursor, and in hand. -/
theorem Kept.takeRow {cursor' : Cursor} {row? : Option Row} (hk : cursor.Kept rest world)
    (hopen : cursor.closed = false) (h : cursor.takeRow = (row?, cursor')) :
    cursor'.Homely ∧ (∀ row ∈ row?, row.env = cursor'.env) ∧
      world.Accounts (row?.toList.map Row.token ++ (cursor'.tokens ++ rest)) := by
  obtain ⟨hrows, -, henv, hhandle, hclosed⟩ := rows_of_takeRow h
  refine ⟨fun row hm => ?_, fun row hm => ?_, ?_⟩
  · rw [henv]
    exact hk.homely row (hrows ▸ List.mem_append_right _ hm)
  · rw [henv]
    exact hk.homely row (hrows ▸ List.mem_append_left _ (Option.mem_toList.2 hm))
  · have htokens : cursor.tokens.Perm (row?.toList.map Row.token ++ cursor'.tokens) := by
      rw [tokens_of_open hopen, tokens_of_open (hclosed.trans hopen), hrows, List.map_append, henv,
        hhandle]
      exact List.perm_middle.symm
    rw [← List.append_assoc]
    exact hk.accounts.perm (htokens.append_right rest)

/-- A cursor without a current row that gets one holds it, too. -/
theorem Kept.current {found : Handle} (hcurrent : cursor.current? = none)
    (hopen : cursor.closed = false) (hk : cursor.Homely)
    (ha : world.Accounts ((found, ⟨.row, cursor.env⟩) :: (cursor.tokens ++ rest))) :
    { cursor with current? := some ⟨cursor.env, found⟩ }.Kept rest world where
  accounts := by
    have hnow : ({ cursor with current? := some ⟨cursor.env, found⟩ } : Cursor).tokens =
        (cursor.handle, ⟨.cursor, cursor.env⟩) :: (found, ⟨.row, cursor.env⟩) ::
          cursor.seed?.toList.map Row.token := tokens_of_open hopen
    rw [tokens_of_open hopen, rows, hcurrent] at ha
    rw [hnow]
    exact ha.perm (.swap ..)
  homely row hm := by
    rcases List.mem_cons.1 hm with rfl | hm
    · rfl
    · exact hk row (List.mem_append_right _ hm)

/-- A fetch takes the row that it is made from and may hand out another. -/
theorem accounts_fetchNext (ha : world.Accounts (row.token :: (cursor.tokens ++ rest)))
    (hopen : cursor.closed = false) (hlink : (world.link cursor.env).closed = false)
    (henv : row.env = cursor.env) :
    (call (.fetchNext cursor.handle row.handle) world).2.Accounts
      ((call (.fetchNext cursor.handle row.handle) world).1.toList.map
        (fun found => (found, ⟨.row, cursor.env⟩)) ++ (cursor.tokens ++ rest)) := by
  rw [Row.token, henv] at ha
  refine ha.exchanges hlink rfl (Engine.exchanges_fetchNext ha.reachable.sound ha.homely ?_ ?_)
  · have hheld : (cursor.handle, ⟨.cursor, cursor.env⟩) ∈ cursor.tokens := by
      rw [tokens_of_open hopen]
      exact List.mem_cons_self
    exact ha.balanced.title_eq (List.mem_cons_of_mem _ (List.mem_append_left _ hheld)) hlink
  · exact ha.balanced.title_eq List.mem_cons_self hlink

theorem kept_advance : ∀ (fuel : Nat) {cursor : Cursor} {world : World}, cursor.Kept rest world →
    cursor.closed = false → (world.link cursor.env).closed = false →
    (cursor.advance fuel world).1.2.Kept rest (cursor.advance fuel world).2
  | 0, _, _, hk, _, _ => hk
  | fuel + 1, cursor, world, hk, hopen, hlink => by
    unfold advance
    rcases htake : cursor.takeRow with ⟨row?, cursor'⟩
    obtain ⟨-, hcurrent, henv, -, hclosed⟩ := rows_of_takeRow htake
    obtain ⟨hhomely, hprevious, ha⟩ := hk.takeRow hopen htake
    have hopen' : cursor'.closed = false := hclosed.trans hopen
    cases row? with
    | none => exact Kept.exhausted ⟨ha, hhomely⟩
    | some previous =>
      rw [← henv] at hlink
      have hfetch := accounts_fetchNext ha hopen' hlink (hprevious previous rfl)
      have hfollows := tame_call (.fetchNext cursor'.handle previous.handle) world
      dsimp only
      rw [bind_apply]
      generalize call (.fetchNext cursor'.handle previous.handle) world = answer at hfetch hfollows
      obtain ⟨_ | found, after⟩ := answer
      · dsimp only
        rw [bind_apply]
        have hdiagnostic := hfetch.along (routine_diagnostic cursor'.env trivial).along
        generalize diagnostic? cursor'.env after = message at hdiagnostic
        obtain ⟨_ | text, final⟩ := message
        · exact Kept.exhausted ⟨hdiagnostic, hhomely⟩
        · exact Kept.exhausted ⟨hdiagnostic, hhomely⟩
      · dsimp only
        rw [bind_apply]
        have hjudged := hfetch.along (quiet_judge cursor' ⟨cursor'.env, found⟩).along
        have hcontinues :=
          ((quiet_judge cursor' ⟨cursor'.env, found⟩).along after : Conserves _ _).continues
        generalize cursor'.judge ⟨cursor'.env, found⟩ after = verdict at hjudged hcontinues
        obtain ⟨_ | _ | _, final⟩ := verdict
        · exact Kept.current hcurrent hopen' hhomely hjudged
        · refine kept_advance fuel (Kept.current hcurrent hopen' hhomely hjudged) hopen' ?_
          rw [hcontinues.closed, hfollows.closed]
          exact hlink
        · exact Kept.exhausted ⟨Row.accounts_release hjudged, hhomely⟩

/-- Advancing a cursor keeps track of its rows. -/
theorem kept_next (hk : cursor.Kept rest world) :
    (cursor.next world).1.2.Kept rest (cursor.next world).2 := by
  unfold next
  by_cases hdone : (cursor.closed || cursor.exhausted) = true
  · rw [if_pos hdone]
    exact hk
  · rw [if_neg hdone, bind_apply, isClosed_apply]
    dsimp only
    cases hlink : (world.link cursor.env).closed with
    | true => exact hk
    | false =>
      refine kept_advance _ hk ?_ hlink
      rw [Bool.or_eq_true, not_or, Bool.not_eq_true] at hdone
      exact hdone.1

theorem kept_collectGo {α : Type} {visit : Row → Attempt α}
    (hvisit : ∀ row, Along Conserves (visit row).run) : ∀ (fuel : Nat) {cursor : Cursor}
    {world : World}, cursor.Kept rest world →
      (collect.go visit fuel cursor world).1.2.Kept rest (collect.go visit fuel cursor world).2
  | 0, _, _, hk => hk
  | fuel + 1, cursor, world, hk => by
    unfold collect.go
    rw [bind_apply]
    have hnext := kept_next hk
    generalize cursor.next world = answer at hnext
    obtain ⟨⟨_ | _ | row, cursor'⟩, after⟩ := answer
    · exact hnext
    · exact hnext
    · dsimp only
      rw [bind_apply]
      have hvisited : cursor'.Kept rest ((visit row).run after).2 :=
        ⟨hnext.accounts.along (hvisit row), hnext.homely⟩
      generalize (visit row).run after = result at hvisited
      obtain ⟨_ | a, final⟩ := result
      · exact hvisited
      · exact kept_collectGo hvisit fuel hvisited

/-- Visits that neither make, take nor close anything keep track of the rows of the cursor. -/
theorem kept_collect {α : Type} {visit : Row → Attempt α}
    (hvisit : ∀ row, Along Conserves (visit row).run) (hk : cursor.Kept rest world) :
    (cursor.collect visit world).1.2.Kept rest (cursor.collect visit world).2 :=
  kept_collectGo hvisit _ hk

/-! ### Closing a cursor -/

theorem accounts_releaseAll : ∀ (rows : List Row) {world : World},
    world.Accounts (rows.map Row.token ++ rest) → (rows.forM Row.release world).2.Accounts rest
  | [], _, ha => ha
  | row :: rows, world, ha => by
    show ((row.release >>= fun _ => rows.forM Row.release) world).2.Accounts rest
    rw [bind_apply]
    exact accounts_releaseAll rows (Row.accounts_release ha)

/-- A cursor that is closed holds nothing. -/
theorem kept_close (hk : cursor.Kept rest world) :
    (cursor.close world).1.2.Kept rest (cursor.close world).2 ∧
      (cursor.close world).1.2.closed = true := by
  cases hopen : cursor.closed with
  | true =>
    unfold close
    rw [hopen]
    exact ⟨hk, hopen⟩
  | false =>
    rw [close_of_open hopen, bind_apply]
    have ha := hk.accounts
    rw [tokens_of_open hopen] at ha
    have hrows := accounts_releaseAll cursor.rows (ha.perm List.perm_middle.symm)
    generalize (cursor.rows.forM Row.release world).2 = middle at hrows
    unfold shut
    rw [bind_apply, isClosed_apply]
    dsimp only
    cases hclosed : (middle.link cursor.env).closed with
    | true => exact ⟨⟨hrows.dead hclosed, nofun⟩, rfl⟩
    | false =>
      exact ⟨⟨accounts_orRefused (accounts_destroy hrows hclosed ⟨nofun, nofun⟩) _ _, nofun⟩, rfl⟩

theorem accounts_close (hk : cursor.Kept rest world) : (cursor.close world).2.Accounts rest := by
  obtain ⟨hclosed, hshut⟩ := kept_close hk
  have ha := hclosed.accounts
  rw [tokens, hshut] at ha
  exact ha

/-- A cursor that is released gives up all that it holds. -/
theorem accounts_release (hk : cursor.Kept rest world) : (cursor.release world).2.Accounts rest := by
  unfold release
  cases hopen : cursor.closed with
  | true =>
    have ha := hk.accounts
    rw [tokens, hopen] at ha
    exact ha
  | false => exact accounts_close hk

end Cursor

end Client
end RowStore
