/-
# Cursors

A cursor over the rows of a database that match criteria. Opening one compiles the criteria to
predicates and writes their start into a seed row: the bounds that the scan starts from, the
leading bytes, and the order, the seed always included. Advancing fetches rows, each from the one
before, until one matches; a row past the range of the leading key ends the scan, unless the
termination is exhaustive. A cursor holds its seed or its current row. Closing it releases them
and the cursor.

Key definitions: `Client.Cursor`, `Client.Database.openCursor`, `Client.Cursor.next`,
`Client.Cursor.close`.
-/
import RowStore.Client.Store
import RowStore.Scan.Predicate

namespace RowStore.Client

/-- The verdict of a predicate on a row: where the field lies, read as the kind that the interval is
of. A predicate that constrains nothing does not read the row, and one without the field is
skipped. -/
def Row.judge (row : Row) (predicate : Predicate) : Client Verdict := do
  match predicate.test with
  | .all => return .pass
  | .signed interval =>
    let word? ← row.getWord predicate.field
    return predicate.judge (word?.map fun w => interval.locate w.toInt64)
  | .unsigned interval =>
    let word? ← row.getWord predicate.field
    return predicate.judge (word?.map interval.locate)
  | .bytes interval =>
    let bytes? ← row.getBytes predicate.field
    return predicate.judge (bytes?.map interval.locate)

/-- The predicate on the leading bytes, which are written to the seed. -/
def seedStart (criteria : CriteriaSet) (schema : Schema) (seed : Row) :
    Attempt (List Predicate) := do
  match criteria.startsWith? with
  | none => return []
  | some bytes =>
    let some leading := schema.leading?
      | throw (.invalidOperation "prefix scan without a key field")
    if (criteria.get? leading.name).isSome then
      throw (.invalidOperation
        s!"prefix cannot be combined with criteria on leading key '{leading.name}'")
    let predicate ← check (Predicate.startingWith leading bytes criteria.order)
    seed.setBytes prefixField bytes
    return [predicate]

/-- The predicate of a field, if it is constrained; the bound that the scan starts from is written
to the seed. -/
def seedField (criteria : CriteriaSet) (schema : Schema) (seed : Row) (field : Field) :
    Attempt (List Predicate) := do
  match criteria.get? field.name with
  | none => return []
  | some criterion =>
    let leading := (schema.leading?.map (·.name)) == some field.name
    let predicate ← check (Predicate.compile field criterion criteria.order leading)
    if let some value := criterion.seed predicate.descending then
      seed.set field.name value
    return if predicate.isUnconstrained then [] else [predicate]

/-- Compiles criteria for a schema and writes their start into a seed row. The predicates keep
the order of the schema, the one on the leading bytes first. -/
def seedScan (criteria : CriteriaSet) (schema : Schema) (seed : Row) :
    Attempt (List Predicate) := do
  if let some (field, _) := criteria.fields.find? fun (f, _) => (schema.field? f).isNone then
    throw (.unknownField field)
  let start ← seedStart criteria schema seed
  let rest ← schema.fields.mapM (seedField criteria schema seed)
  seed.setBytes orderField (Bytes.ofText criteria.order.inclusive.symbol)
  return start ++ rest.flatten

/-- A cursor. -/
structure Cursor where
  env : Handle
  handle : Handle
  seed? : Option Row
  current? : Option Row := none
  predicates : List Predicate
  order : ScanOrder
  termination : Termination
  exhausted : Bool := false
  closed : Bool := false
  deriving DecidableEq, Inhabited

/-- Opens a cursor. If that fails, the seed row is released. -/
def Database.openCursor (db : Database) (criteria : CriteriaSet) : Attempt Cursor := do
  let seed ← db.newRow
  tryCatch (do
    let predicates ← seedScan criteria db.schema seed
    let handle ← handleOrRefused db.env "create cursor" (.newCursor db.env)
    return {
      env := db.env
      handle
      seed? := some seed
      predicates
      order := criteria.order
      termination := criteria.termination?.getD db.termination })
    fun failure => do
      seed.release
      throw failure

namespace Cursor

/-- The verdict of all predicates on a row. Under early termination the first that stops the scan
decides; otherwise a row that one of them does not pass is skipped. -/
def judge (cursor : Cursor) (row : Row) : Client Verdict :=
  go .pass cursor.predicates
where
  /-- The verdict of the remaining predicates, given that of those before. -/
  go (verdict : Verdict) : List Predicate → Client Verdict
    | [] => return verdict
    | predicate :: rest => do
      match ← row.judge predicate with
      | .pass => go verdict rest
      | .skip => go .skip rest
      | .stop => if cursor.termination = .early then return .stop else go .skip rest

/-- Takes the row to fetch from: the current one, or at the start the seed. -/
def takeRow (cursor : Cursor) : Option Row × Cursor :=
  match cursor.current? with
  | some row => (some row, { cursor with current? := none })
  | none => (cursor.seed?, { cursor with seed? := none })

/-- Fetches until a row matches or the scan ends, at most `fuel` times. -/
def advance : Nat → Cursor → Client (Except Failure (Option Row) × Cursor)
  | 0, cursor => return (.ok none, cursor)
  | fuel + 1, cursor => do
    match cursor.takeRow with
    | (none, cursor) => return (.ok none, { cursor with exhausted := true })
    | (some previous, cursor) =>
      match ← call (.fetchNext cursor.handle previous.handle) with
      | none =>
        let cursor := { cursor with exhausted := true }
        match ← diagnostic? cursor.env with
        | some message => return (.error (.engine "fetch next row" message), cursor)
        | none => return (.ok none, cursor)
      | some handle =>
        let row : Row := ⟨cursor.env, handle⟩
        match ← cursor.judge row with
        | .pass => return (.ok (some row), { cursor with current? := some row })
        | .skip => advance fuel { cursor with current? := some row }
        | .stop =>
          row.release
          return (.ok none, { cursor with exhausted := true })

/-- Enough fetches to end any scan: a scan finds no record twice. -/
def fetchBound : Client Nat := return (← get).engine.objects.recordCount + 1

/-- Advances to the next row that matches, which stays the cursor's. A cursor at its end or
closed has none. -/
def next (cursor : Cursor) : Client (Except Failure (Option Row) × Cursor) := do
  if cursor.closed || cursor.exhausted then return (.ok none, cursor)
  if ← isClosed cursor.env then return (.error .environmentClosed, cursor)
  cursor.advance (← fetchBound)

/-- Applies an operation to every remaining row, up to the first failure of `next`. -/
def collect (cursor : Cursor) (visit : Row → Attempt α) :
    Client (Except Failure (List α) × Cursor) := do
  go (← fetchBound) cursor
where
  /-- At most `fuel` rows. -/
  go : Nat → Cursor → Client (Except Failure (List α) × Cursor)
    | 0, cursor => return (.ok [], cursor)
    | fuel + 1, cursor => do
      match ← cursor.next with
      | (.error failure, cursor) => return (.error failure, cursor)
      | (.ok none, cursor) => return (.ok [], cursor)
      | (.ok (some row), cursor) =>
        match ← (visit row).run with
        | .error failure => return (.error failure, cursor)
        | .ok a =>
          let (rest, cursor) ← go fuel cursor
          return (rest.map (a :: ·), cursor)

/-- Closes the cursor: releases its rows, the current one first, then the cursor. -/
def close (cursor : Cursor) : Client (Except Failure Unit × Cursor) := do
  if cursor.closed then return (.error (.alreadyClosed "cursor"), cursor)
  if let some row := cursor.current? then row.release
  if let some row := cursor.seed? then row.release
  let cursor := { cursor with closed := true, current? := none, seed? := none }
  if ← isClosed cursor.env then return (.ok (), cursor)
  let answer ← (orRefused cursor.env "close cursor" (.destroy cursor.handle)).run
  return (answer, cursor)

/-- Closes a cursor that is not closed. A refusal has no consequence. -/
def release (cursor : Cursor) : Client Unit := do
  if !cursor.closed then discard cursor.close

/-- A one-line summary. -/
def summary (cursor : Cursor) : String :=
  s!"Cursor \x7b handle: {cursor.handle.summary}, order: {cursor.order.name}, " ++
    s!"predicates: {cursor.predicates.length}, exhausted: {cursor.exhausted}, " ++
    s!"closed: {cursor.closed} \x7d"

end Cursor
end RowStore.Client
