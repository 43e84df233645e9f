/-
# Neutral merges

A merge function is neutral if it stores what comes, whatever is stored. An upsert takes a detour that a
put does not take: the record becomes images, and what the merge function leaves of these becomes a
record again. The cells of a row fit their fields in every state that the engine reaches, so the images of
the record stand for the record, and a neutral upsert does what a put does: it is refused where the put is
refused, for the same reason, and it leaves the same objects.

Key definitions: `MergeFn.IsNeutral`.
Key theorems: `Engine.Database.settle_of_isNeutral`, `Engine.Objects.written_of_isNeutral`,
`Engine.upsert_eq_put`.
-/
import RowStore.Merge.Program
import RowStore.Proofs.Engine.Keyed
import RowStore.Proofs.Engine.Points

namespace RowStore

/-- Whatever is stored, the function accepts what comes and leaves it as it is. -/
def MergeFn.IsNeutral (f : MergeFn) : Prop :=
  ∀ (existing : Option Images) (incoming : Images),
    (f.run existing incoming incoming).rejection = none ∧
      (f.run existing incoming incoming).result = incoming

/-- The empty program is neutral. -/
theorem MergeFn.isNeutral_ofActs_nil : (MergeFn.ofActs []).IsNeutral := fun _ _ => ⟨rfl, rfl⟩

namespace Engine

variable {functions : Hook → MergeFn} {db : Database} {r : Row} {hook : Hook}

/-- A neutral upsert asks for what a put asks for. -/
theorem Database.settle_of_isNeutral (hhook : db.hook? = some hook)
    (hneutral : (functions hook).IsNeutral) (hfits : r.Fits db.fields)
    (visible : Key → Option Record) :
    (db.settle functions visible r .upsert).1 = (db.settle functions visible r .put).1 := by
  unfold settle
  rw [hhook]
  cases db.keyOf r with
  | error refusal => rfl
  | ok key =>
    obtain ⟨haccepts, hresult⟩ :=
      hneutral ((visible key).map db.encode) (db.encode (db.recordOf r))
    dsimp only
    unfold accept
    rw [haccepts, hresult]
    show (db.decode (db.encode (db.recordOf r))).map (key, some ·) = _
    rw [decode_encode (recordOf_fits hfits)]
    rfl

/-- What a neutral upsert makes of the objects is what a put makes of them, also where both are
refused. -/
theorem Objects.written_of_isNeutral {objects : Objects}
    (hdb : objects.table.get? r.db = some (.database db)) (hhook : db.hook? = some hook)
    (hneutral : (functions hook).IsNeutral) (hfits : r.Fits db.fields) (store : Handle) :
    (objects.written functions store r .upsert).1 = (objects.written functions store r .put).1 := by
  cases htarget : objects.target store r with
  | error refusal => rw [written_of_target_error htarget, written_of_target_error htarget]
  | ok target =>
    obtain ⟨visible, hvisible⟩ : ∃ visible : Key → Option Record,
        ∀ key, objects.visible target r.db key = .ok (visible key) :=
      Classical.skolem.1 (visible_of_database hdb target)
    rw [written_eq htarget hdb functions hvisible, written_eq htarget hdb functions hvisible]
    dsimp only
    rw [Database.settle_of_isNeutral hhook hneutral hfits]

/-- **A neutral upsert is a put.** In every state that the engine reaches, an upsert of a row whose
database has a neutral merge function succeeds exactly if a put of it would, into whatever store, and it
leaves the objects and the diagnostic that the put would leave. -/
theorem upsert_eq_put {engine : Engine} {row : Handle} (hreachable : Reachable engine)
    (hrow : engine.objects.table.get? row = some (.row r))
    (hdb : engine.objects.table.get? r.db = some (.database db)) (hnamed : WellNamed db.fields)
    (hhook : db.hook? = some hook) (hneutral : (functions hook).IsNeutral) (store : Handle) :
    (engine.upsert functions store row).1 = (engine.put store row).1 ∧
      (engine.upsert functions store row).2.objects = (engine.put store row).2.objects ∧
      (engine.upsert functions store row).2.diagnostic? = (engine.put store row).2.diagnostic? := by
  have hlive : (engine.objects.remove row).table.get? r.db = some (.database db) := by
    rw [Objects.get?_remove, if_neg, hdb]
    intro hsame
    rw [hsame, hrow] at hdb
    simp at hdb
  have hfits : r.Fits db.fields := hreachable.sound.fits hrow hlive hnamed
  have hstep (kind : Client.WriteKind) : engine.step functions (kind.action store row) = _ :=
    step_write functions hrow kind
  have hupsert : engine.upsert functions store row = _ := hstep .upsert
  have hput : engine.put store row = _ := hstep .put
  rw [Objects.written_of_isNeutral hlive hhook hneutral hfits] at hupsert
  rw [hupsert, hput]
  cases ((engine.objects.remove row).written functions store r .put).1 with
  | error refusal => exact ⟨rfl, rfl, rfl⟩
  | ok objects => exact ⟨rfl, rfl, rfl⟩

namespace Numbers

/-- The calls that make a row that holds a three, and begin a transaction, with a merge function
installed. -/
def offering : List Request := [⟨idle, .installHook 2 ⟨1, 1⟩⟩, ⟨idle, .openEnvironment 1⟩,
  ⟨idle, .newRow 2⟩, ⟨idle, .setWord 3 "number" 3⟩, ⟨idle, .begin 1⟩]

/-- The transaction holds the three after the upsert, as it would after the put. -/
theorem upsert_into_transaction :
    ((declared.run offering).upsert idle 4 3).1 = true ∧
      ((declared.run offering).upsert idle 4 3).2.objects =
        ((declared.run offering).put 4 3).2.objects ∧
      ((declared.run offering).put 4 3).2.objects.table.get? 4 =
        some (.transaction { env := 1, writes := Table.ofList [(⟨2, [.up 3]⟩, some [.word 3])] }) := by
  have hreachable : Reachable (declared.run offering) := by
    rw [← run_declaring idle]
    exact Reachable.start.run _
  have hrow : (declared.run offering).objects.table.get? 3 =
      some (.row { db := 2, cells := Table.ofList [("number", .word 3)] }) := rfl
  have hdb : (declared.run offering).objects.table.get? 2 = some (.database
      { env := 1, name := "numbers", fields := [number], hook? := some ⟨1, 1⟩ }) := rfl
  obtain ⟨hanswer, hobjects, -⟩ := upsert_eq_put hreachable hrow hdb
    ⟨by decide, by decide⟩ rfl (show (idle ⟨1, 1⟩).IsNeutral from MergeFn.isNeutral_ofActs_nil) 4
  exact ⟨hanswer.trans rfl, hobjects, rfl⟩

end Numbers

end Engine
end RowStore
