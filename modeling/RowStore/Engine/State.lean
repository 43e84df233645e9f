/-
# The engine

The state of the engine is its objects, the diagnostic of the last primitive and the notes of the
merge functions that ran. A primitive starts with a clean diagnostic. One that refuses answers
with nothing, leaves the refusal as the diagnostic, and leaves the objects as they were; only a
row that it takes is gone either way.

Key definitions: `Engine`, `Engine.attempt`, `Engine.consume`.
-/
import RowStore.Engine.Object

namespace RowStore

/-- The state of the engine. -/
structure Engine where
  objects : Engine.Objects := {}
  /-- What the last primitive refused for, if it did. -/
  diagnostic? : Option Refusal := none
  /-- The notes of the merge functions that ran, oldest first. -/
  journal : List MergeRun := []

namespace Engine

instance : Inhabited Engine := ⟨{}⟩

/-- The text of the diagnostic. Reading it changes nothing. -/
def diagnosticText? (engine : Engine) : Option String := engine.diagnostic?.map Refusal.message

/-- Carries out a primitive that leaves the objects alone if it refuses. -/
def attempt (engine : Engine) (result : Except Refusal (α × Objects)) : Option α × Engine :=
  match result with
  | .ok (a, objects) => (some a, { engine with objects, diagnostic? := none })
  | .error refusal => (none, { engine with diagnostic? := some refusal })

/-- Carries out a primitive that answers nothing but whether it succeeded. -/
def attemptFlag (engine : Engine) (result : Except Refusal Objects) : Bool × Engine :=
  let (answer, engine) := engine.attempt (result.map ((), ·))
  (answer.isSome, engine)

/-- Carries out a primitive that changes no object. -/
def inquire (engine : Engine) (result : Except Refusal (Option α)) : Option α × Engine :=
  let (answer, engine) := engine.attempt (result.map (·, engine.objects))
  (answer.join, engine)

/-- Carries out a primitive that takes a row, and is given it and the objects without it. -/
def consume (engine : Engine) (row : Handle)
    (primitive : Row → Objects → Except Refusal (α × Objects)) : Option α × Engine :=
  match engine.objects.row row with
  | .error refusal => (none, { engine with diagnostic? := some refusal })
  | .ok taken =>
    let rest := engine.objects.remove row
    { engine with objects := rest }.attempt (primitive taken rest)

end Engine
end RowStore
