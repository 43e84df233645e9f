/-
# What a refused call tells

A call that is refused leaves its refusal as the diagnostic, whatever the diagnostic was before. So the
diagnostic after a call that failed tells why this call failed, and its text is that of a refusal: none of
these says that there is no diagnostic.

Key definitions: `Engine.Refuses`, `Engine.Action.Makes`.
Key theorems: `Refusal.message_ne`, `Engine.refuses_of_fails`, `Engine.refuses_of_false`,
`Engine.refuses_of_none`.
-/
import RowStore.Proofs.Engine.Failing

namespace RowStore

/-! ### Texts of refusals -/

theorem head?_append {text : String} {c : Char} (h : text.toList.head? = some c) (rest : String) :
    (text ++ rest).toList.head? = some c := by
  rw [String.toList_append, List.head?_append, h, Option.some_or]

/-- What a client says if there is no diagnostic. -/
def noDiagnostic : String := "engine reported no diagnostic"

theorem ne_noDiagnostic {text : String} {c : Char} (h : text.toList.head? = some c)
    (hc : c ≠ 'e') : text ≠ noDiagnostic := by
  rintro rfl
  exact hc (Option.some.inj (h.symm.trans rfl))

/-- No refusal says that there is no diagnostic. -/
theorem Refusal.message_ne (refusal : Refusal) : refusal.message ≠ noDiagnostic := by
  cases refusal with
  | unknownHandle handle => exact ne_noDiagnostic (head?_append rfl _) (by decide)
  | wrongObject handle expected =>
    exact ne_noDiagnostic (head?_append (head?_append (head?_append rfl _) _) _) (by decide)
  | notOpened => decide
  | alreadyOpened => decide
  | invalidName name => exact ne_noDiagnostic (head?_append (head?_append rfl _) _) (by decide)
  | duplicateDatabase name =>
    exact ne_noDiagnostic (head?_append (head?_append rfl _) _) (by decide)
  | noKeyFields name => exact ne_noDiagnostic (head?_append (head?_append rfl _) _) (by decide)
  | unknownField database field =>
    exact ne_noDiagnostic
      (head?_append (head?_append (head?_append (head?_append rfl _) _) _) _) (by decide)
  | typeMismatch field expected =>
    exact ne_noDiagnostic
      (head?_append (head?_append (head?_append (head?_append rfl _) _) _) _) (by decide)
  | missingKey field => exact ne_noDiagnostic (head?_append (head?_append rfl _) _) (by decide)
  | noMergeFunction database =>
    exact ne_noDiagnostic (head?_append (head?_append rfl _) _) (by decide)
  | mergeRejected message => exact ne_noDiagnostic (head?_append rfl _) (by decide)
  | invalidOrder order => exact ne_noDiagnostic (head?_append (head?_append rfl _) _) (by decide)
  | prefixOnNonString database =>
    exact ne_noDiagnostic (head?_append (head?_append rfl _) _) (by decide)
  | notDestroyable what =>
    -- What comes first is not known, so the texts are told apart by their ends.
    intro h
    have hlast := congrArg (fun text => text.toList.getLast?) h
    have hend : (" objects are owned by their environment" : String).toList.getLast? = some 't' := rfl
    have hlast' : ((toString what ++ " objects are owned by their environment" : String)).toList.getLast? =
      noDiagnostic.toList.getLast? := hlast
    rw [String.toList_append, List.getLast?_append, hend, Option.some_or] at hlast'
    exact absurd hlast' (by decide)

namespace Engine

variable {engine : Engine} {functions : Hook → MergeFn}

/-- A call is refused: whatever the diagnostic before, it fails and the refusal is the diagnostic. -/
def Refuses (engine : Engine) (functions : Hook → MergeFn) {kind : AnswerKind} (action : Action kind)
    (refusal : Refusal) : Prop :=
  ∀ diagnostic? : Option Refusal,
    Fails kind ({ engine with diagnostic? }.step functions action).1
        ({ engine with diagnostic? }.step functions action).2 ∧
      ({ engine with diagnostic? }.step functions action).2.diagnostic? = some refusal

/-- The diagnostic after a call that failed is its refusal. -/
theorem refuses_of_fails {kind : AnswerKind} {action : Action kind}
    (hreads : ∀ h, (⟨kind, action⟩ : Call) ≠ ⟨_, .getBytes h diagnosticKey⟩)
    (hfails : Fails kind (engine.step functions action).1 (engine.step functions action).2) :
    ∃ refusal, engine.Refuses functions action refusal ∧
      (engine.step functions action).2.diagnostic? = some refusal := by
  have hsome : (engine.step functions action).2.diagnostic?.isSome = true :=
    (failed_of_fails functions action hfails).elim (·.1.refused) (·.1)
  obtain ⟨refusal, hrefusal⟩ := Option.isSome_iff_exists.1 hsome
  refine ⟨refusal, fun diagnostic? => ?_, hrefusal⟩
  rw [step_of_diagnostic functions diagnostic? action hreads]
  exact ⟨hfails, hrefusal⟩

/-- A call that answers no was refused. -/
theorem refuses_of_false {action : Action .flag} (h : (engine.step functions action).1 = false) :
    ∃ refusal, engine.Refuses functions action refusal ∧
      (engine.step functions action).2.diagnostic? = some refusal :=
  refuses_of_fails (fun _ heq => nomatch congrArg Sigma.fst heq) h

/-- The calls that make an object whenever they succeed. -/
def Action.Makes : Action .handle → Prop
  | .newEnvironment => True
  | .newRow _ => True
  | .newCursor _ => True
  | .begin _ => True
  | _ => False

/-- A call that should make an object and answers with no handle was refused. -/
theorem refuses_of_none {action : Action .handle} (hmakes : action.Makes)
    (h : (engine.step functions action).1 = none) :
    ∃ refusal, engine.Refuses functions action refusal ∧
      (engine.step functions action).2.diagnostic? = some refusal := by
  refine refuses_of_fails (fun _ heq => nomatch congrArg Sigma.fst heq) ⟨h, ?_⟩
  cases action with
  | newEnvironment => exact (failed_attempt h).refused
  | newRow db => exact (failed_attempt h).refused
  | newCursor env => exact (failed_attempt h).refused
  | begin env => exact (failed_attempt h).refused
  | resolve env path => exact hmakes.elim
  | lookup store row => exact hmakes.elim
  | fetchNext cursor row => exact hmakes.elim

end Engine
end RowStore
