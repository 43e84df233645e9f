/-
# Criteria that are rejected

A cursor is opened by compiling the criteria and writing their start into a seed row. What is written
there are bounds of the kind of their field, the leading bytes and the order, so the engine takes all of
it, and nothing but the criteria decides whether the cursor opens. Those that the builder produces are
rejected exactly if they do not fit the schema. If they are, the seed row is released, and the engine has
what it had before.

Key definitions: `Client.Database.Seeds`.
Key theorems: `Client.Database.Seeds.seedScan_apply`, `Client.Database.Stands.openCursor_apply`,
`Client.Database.Stands.of_leads`, `Client.openCursor_fails_iff`.
-/
import RowStore.Proofs.Client.Moving
import RowStore.Proofs.Client.Visiting
import RowStore.Proofs.Scan.Fitting

namespace RowStore

/-- No misfit is a bound that cannot be read in the signedness of the comparison. -/
theorem CriteriaSet.Misfits.ne_unfit {criteria : CriteriaSet} {schema : Schema} {failure : Failure}
    (h : criteria.Misfits schema failure) (value : Value) (field : String) :
    failure ≠ .invalidOperation
      s!"bound {value.text} on field '{field}' does not fit the comparison" := by
  cases h with
  | unknown constrained unknown => nofun
  | start starts leads integer => nofun
  | value known constrained bound other => nofun
  | @combined bytes leading criterion starts leads constrained =>
    -- The texts begin with different letters.
    intro heq
    have hhead := congrArg (fun text => text.toList.head?) (Failure.invalidOperation.inj heq)
    have hcombined : (s!"prefix cannot be combined with criteria on leading key '{leading.name}'" :
        String).toList.head? = some 'p' := head?_append (head?_append rfl _) _
    have hunfit : (s!"bound {value.text} on field '{field}' does not fit the comparison" :
        String).toList.head? = some 'b' :=
      head?_append (head?_append (head?_append (head?_append rfl _) _) _) _
    exact absurd (hcombined.symm.trans (hhead.trans hunfit)) (by decide)

namespace Client

open Engine (Objects)

variable {db : Database} {base world : World} {seed : Row} {criteria : CriteriaSet}

/-! ### Seeding -/

/-- The seed row is one of the database, which stands, and all else is as it was in `base`. -/
structure Database.Seeds (db : Database) (base world : World) (seed : Row) : Prop where
  stands : db.Stands world
  row : ∃ r, db.Holds world seed r
  others : ∀ h, h ≠ seed.handle →
    world.engine.objects.table.get? h = base.engine.objects.table.get? h

namespace Database.Seeds

/-- A value that makes a cell is written to the seed row. -/
theorem set_apply (hs : db.Seeds base world seed) {stored : Engine.Database}
    (hstored : world.engine.objects.table.get? db.handle = some (.database stored)) {name : String}
    {value : Value} {cell : Cell}
    (hcell : cell? stored (SharedName.beforeNul name) value = some cell) :
    ∃ after, seed.set name value world = (.ok (), after) ∧ db.Seeds base after seed := by
  obtain ⟨r, hrow⟩ := hs.row
  obtain ⟨after, hset, hretains, hrow'⟩ := hs.stands.set_apply hrow hstored hcell
  obtain ⟨-, hobjects, -⟩ :=
    setValue_apply (hrow.env ▸ hs.stands.serves) hrow.found (hrow.own ▸ hstored) name value hcell
  rw [hset] at hobjects
  refine ⟨after, hset, hretains.stands hs.stands, ⟨_, hrow'⟩, fun h hne => ?_⟩
  rw [show after.engine.objects = _ from hobjects]
  exact (Objects.get?_put ..).trans ((if_neg hne).trans (hs.others h hne))

/-- Bytes are written to a pseudo-field of the seed row. -/
theorem setBytes_apply (hs : db.Seeds base world seed) (name : String)
    (hpseudo : Engine.isPseudoField name = true) (bytes : Bytes) :
    ∃ after, seed.setBytes name bytes world = (.ok (), after) ∧ db.Seeds base after seed := by
  obtain ⟨stored, hstored, -⟩ := hs.stands.found
  have hcell : cell? stored (SharedName.beforeNul name) (.str bytes) = some (.bytes bytes) := by
    rw [SharedName.beforeNul_eq (Row.noNul_of_pseudo hpseudo)]
    exact if_pos hpseudo
  exact hs.set_apply hstored hcell

/-- Seeding the leading bytes comes to what they compile to. -/
theorem seedStart_apply (hs : db.Seeds base world seed) (criteria : CriteriaSet) (schema : Schema) :
    ∃ after, seedStart criteria schema seed world = (criteria.startPredicates schema, after) ∧
      db.Seeds base after seed := by
  unfold seedStart CriteriaSet.startPredicates
  cases criteria.startsWith? with
  | none => exact ⟨world, rfl, hs⟩
  | some bytes =>
    cases schema.leading? with
    | none => exact ⟨world, rfl, hs⟩
    | some leading =>
      dsimp only
      split
      · exact ⟨world, rfl, hs⟩
      cases hcompile : Predicate.startingWith leading bytes criteria.order with
      | error failure => exact ⟨world, rfl, hs⟩
      | ok predicate =>
        obtain ⟨after, hset, hafter⟩ := hs.setBytes_apply prefixField rfl bytes
        refine ⟨after, ?_, hafter⟩
        show (seed.setBytes prefixField bytes >>= fun _ => pure [predicate] : Attempt _) world = _
        rw [attempt_bind_apply, hset]
        rfl

/-- Seeding a field comes to what it compiles to: the bound that is written has the kind of the field. -/
theorem seedField_apply (hs : db.Seeds base world seed) (hb : db.schema.Built) (hf : criteria.Fair)
    {field : Field} (hm : field ∈ db.schema.fields) (hnul : '\x00' ∉ field.name.toList) :
    ∃ after, seedField criteria db.schema seed field world =
        (criteria.fieldPredicates db.schema field, after) ∧ db.Seeds base after seed := by
  unfold seedField CriteriaSet.fieldPredicates
  cases hget : criteria.get? field.name with
  | none => exact ⟨world, rfl, hs⟩
  | some criterion =>
    dsimp only
    cases hcompile : Predicate.compile field criterion criteria.order
        ((db.schema.leading?.map (·.name)) == some field.name) with
    | error failure => exact ⟨world, rfl, hs⟩
    | ok predicate =>
      have hcheck : check (Except.ok predicate) world = (.ok predicate, world) := rfl
      rw [attempt_bind_apply, hcheck]
      dsimp only
      cases hseed : criterion.seed predicate.descending with
      | none => exact ⟨world, rfl, hs⟩
      | some value =>
        have hproper : Engine.isPseudoField field.name = false := by
          obtain ⟨horder, hstart⟩ := hf.proper _ (CriteriaSet.mem_of_get? hget)
          simp [Engine.isPseudoField, horder, hstart]
        obtain ⟨stored, hstored, -, hfields⟩ := hs.stands.found
        have hcell := cell?_of_field (hfields ▸ hb.nodup) (hfields ▸ hm) hnul
          (fun hpseudo => by rw [hproper] at hpseudo; cases hpseudo)
          (Predicate.kind_of_compile hcompile (Criterion.bound_of_seed hseed))
        obtain ⟨after, hset, hafter⟩ := hs.set_apply hstored hcell
        refine ⟨after, ?_, hafter⟩
        dsimp only
        rw [attempt_bind_apply, hset]
        rfl

theorem seedFields_apply (hb : db.schema.Built) (hf : criteria.Fair) : ∀ {fields : List Field}
    {world : World}, db.Seeds base world seed →
    (∀ field ∈ fields, field ∈ db.schema.fields ∧ '\x00' ∉ field.name.toList) →
    ∃ after, fields.mapM (seedField criteria db.schema seed) world =
        (fields.mapM (criteria.fieldPredicates db.schema), after) ∧ db.Seeds base after seed
  | [], world, hs, _ => ⟨world, rfl, hs⟩
  | field :: fields, world, hs, hm => by
    rw [List.forall_mem_cons] at hm
    obtain ⟨middle, hfield, hmiddle⟩ := hs.seedField_apply hb hf hm.1.1 hm.1.2
    obtain ⟨after, hrest, hafter⟩ := seedFields_apply hb hf hmiddle hm.2
    rw [List.mapM_cons, List.mapM_cons, attempt_bind_apply, hfield]
    cases criteria.fieldPredicates db.schema field with
    | error failure => exact ⟨middle, rfl, hmiddle⟩
    | ok predicates =>
      dsimp only
      rw [attempt_bind_apply, hrest]
      cases fields.mapM (criteria.fieldPredicates db.schema) with
      | error failure => exact ⟨after, rfl, hafter⟩
      | ok rest => exact ⟨after, rfl, hafter⟩

/-- Seeding a scan comes to what the criteria compile to. -/
theorem seedScan_apply (hs : db.Seeds base world seed) (hb : db.schema.Built)
    (hnul : ∀ field ∈ db.schema.fields, '\x00' ∉ field.name.toList) (hf : criteria.Fair) :
    ∃ after, seedScan criteria db.schema seed world = (criteria.predicates db.schema, after) ∧
      db.Seeds base after seed := by
  unfold seedScan CriteriaSet.predicates
  generalize criteria.fields.find? _ = unknown?
  rcases unknown? with _ | ⟨name, criterion⟩
  case some => exact ⟨world, rfl, hs⟩
  obtain ⟨first, hstart, hfirst⟩ := hs.seedStart_apply criteria db.schema
  dsimp only
  rw [attempt_bind_apply, hstart]
  cases criteria.startPredicates db.schema with
  | error failure => exact ⟨first, rfl, hfirst⟩
  | ok start =>
  obtain ⟨second, hfields, hsecond⟩ := seedFields_apply hb hf hfirst fun field hm => ⟨hm, hnul field hm⟩
  dsimp only
  rw [attempt_bind_apply, hfields]
  cases db.schema.fields.mapM (criteria.fieldPredicates db.schema) with
  | error failure => exact ⟨second, rfl, hsecond⟩
  | ok rest =>
  obtain ⟨after, hset, hafter⟩ := hsecond.setBytes_apply orderField rfl
    (Bytes.ofText criteria.order.inclusive.symbol)
  dsimp only
  rw [attempt_bind_apply, hset]
  exact ⟨after, rfl, hafter⟩

end Database.Seeds

/-! ### Opening -/

/-- The row that a database makes seeds a scan, and its handle is new. -/
theorem Database.Stands.seeds_newRow (hd : db.Stands world) : ∃ seed after,
    db.newRow world = (.ok seed, after) ∧ db.Seeds world after seed ∧
      world.engine.objects.table.get? seed.handle = none := by
  obtain ⟨seed, after, hnew, hretains, hrow⟩ := hd.newRow_apply
  obtain ⟨stored, hstored, -⟩ := hd.found
  obtain ⟨made, hmade, -, hengine⟩ := Client.newRow_apply db hd.serves hstored
  rw [hnew] at hmade
  cases hmade
  refine ⟨_, after, hnew, ⟨hretains.stands hd, ⟨_, hrow⟩, fun h hne => ?_⟩,
    hd.serves.reachable.sound.fresh⟩
  rw [hengine]
  exact (Objects.get?_add ..).trans (if_neg hne)

/-- A cursor opens if the criteria compile; otherwise it fails as they do, and the engine has what it had
before. -/
theorem Database.Stands.openCursor_apply (hd : db.Stands world) (hb : db.schema.Built)
    (hnul : ∀ field ∈ db.schema.fields, '\x00' ∉ field.name.toList) (hf : criteria.Fair) :
    match criteria.predicates db.schema with
    | .ok predicates => ∃ cursor after, db.openCursor criteria world = (.ok cursor, after) ∧
        cursor.predicates = predicates
    | .error failure => ∃ after, db.openCursor criteria world = (.error failure, after) ∧
        after.engine.objects.table = world.engine.objects.table := by
  obtain ⟨seed, first, hnew, hseeds, hfresh⟩ := hd.seeds_newRow
  obtain ⟨second, hscan, hseeded⟩ := hseeds.seedScan_apply hb hnul hf
  unfold openCursor
  rw [attempt_bind_apply, hnew]
  dsimp only
  rw [tryCatch_apply, attempt_bind_apply, hscan]
  cases criteria.predicates db.schema with
  | ok predicates =>
    obtain ⟨after, hcursor, -⟩ := hseeded.stands.newCursor_apply
    dsimp only
    rw [attempt_bind_apply, hcursor]
    exact ⟨_, after, rfl, rfl⟩
  | error failure =>
    -- The seed row is the only object that is new, and it is released.
    refine ⟨(seed.release second).2, rfl, Table.ext_get? fun h => ?_⟩
    obtain ⟨r, hrow⟩ := hseeded.row
    rw [Row.release_apply seed (hrow.env ▸ hseeded.stands.serves),
      destroy_of_get hrow.found (.inl ⟨r, rfl⟩)]
    show (second.engine.objects.remove seed.handle).table.get? h = _
    rw [Objects.get?_remove]
    split
    · next heq => rw [heq, hfresh]
    · next hne => exact hseeded.others h hne

/-- The leading key of a database that stands. -/
theorem Database.Stands.isSome_leading? (hd : db.Stands world) (hb : db.schema.Built) :
    db.schema.leading?.isSome = true := by
  obtain ⟨stored, hstored, -, hfields⟩ := hd.found
  obtain ⟨-, -, hany, -⟩ := hd.serves.reachable.sound.sound _ _ hstored
  obtain ⟨field, hm, hkey⟩ := List.any_eq_true.1 hany
  have hkeys : field ∈ db.schema.keys := hb.keyFields_eq hfields ▸ List.mem_filter.2 ⟨hm, hkey⟩
  exact List.isSome_head?.2 (List.ne_nil_of_mem hkeys)

/-- A database stands while the engine has it and its environment is not closed. -/
theorem Database.Stands.of_leads {later : World} (hd : db.Stands world) (hl : world.Leads later)
    (hopen : (later.link db.env).closed = false)
    (hlive : (later.engine.objects.table.get? db.handle).isSome = true) : db.Stands later := by
  obtain ⟨stored, hstored, henv, hfields⟩ := hd.found
  obtain ⟨object, hobject⟩ := Option.isSome_iff_exists.1 hlive
  have hissued := (hd.serves.reachable.sound.live _ _ hstored).2
  obtain ⟨own, rfl, henv', hfields'⟩ :=
    (hl.steady hd.serves.reachable).database hissued hstored hobject
  exact ⟨⟨hl.reachable hd.serves.reachable, hl.faultFree hd.serves.faultFree, hopen⟩, own, hobject,
    henv'.trans henv, hfields'.trans hfields⟩

/-- **A database rejects exactly the criteria that do not fit its schema.** Whatever clients did since a
database was declared, as long as the engine has it and its environment is not closed, opening a cursor
fails for criteria that the builder produced if and only if they have a misfit. The failure then is a
misfit, it is never a bound that cannot be read in the signedness of the comparison, and the engine has
the objects and the records that it had before. -/
theorem openCursor_fails_iff {env : Environment} {name : String} {schema : Schema}
    {merge? : Option MergeFn} {before declared : World} {clauses : List Clause}
    (hs : before.Serves env.handle) (hb : schema.Built)
    (hnul : ∀ field ∈ schema.fields, '\x00' ∉ field.name.toList)
    (hnew : env.newDatabase name schema merge? before = (.ok db, declared))
    (hl : declared.Leads world) (hopen : (world.link db.env).closed = false)
    (hlive : (world.engine.objects.table.get? db.handle).isSome = true)
    (hbuild : CriteriaSet.build clauses = .ok criteria) :
    ((∃ failure after, db.openCursor criteria world = (.error failure, after)) ↔
      ∃ failure, criteria.Misfits schema failure) ∧
    ∀ failure after, db.openCursor criteria world = (.error failure, after) →
      criteria.Misfits schema failure ∧
      (∀ (value : Value) (field : String), failure ≠ .invalidOperation
        s!"bound {value.text} on field '{field}' does not fit the comparison") ∧
      after.engine.objects.table = world.engine.objects.table := by
  obtain ⟨rfl, hdeclared⟩ := db.stands_of_newDatabase hs hb hnew
  have hd := hdeclared.of_leads hl hopen hlive
  have hf := CriteriaSet.fair_of_build hbuild
  have hopens := hd.openCursor_apply hb hnul hf
  cases hpredicates : criteria.predicates db.schema with
  | ok predicates =>
    rw [hpredicates] at hopens
    obtain ⟨cursor, opened, happly, -⟩ := hopens
    refine ⟨iff_of_false ?_ ?_, fun failure after h => ?_⟩
    · rintro ⟨failure, after, h⟩
      cases happly.symm.trans h
    · rintro ⟨failure, hmisfits⟩
      exact hf.not_misfits_of_predicates hpredicates hmisfits
    · cases happly.symm.trans h
  | error failure =>
    rw [hpredicates] at hopens
    obtain ⟨after, happly, htable⟩ := hopens
    have hmisfits := hf.misfits_of_predicates (hd.isSome_leading? hb) hpredicates
    refine ⟨iff_of_true ⟨failure, after, happly⟩ ⟨failure, hmisfits⟩, fun failure' after' h => ?_⟩
    cases happly.symm.trans h
    exact ⟨hmisfits, hmisfits.ne_unfit, htable⟩

/-- A cursor over ranks is not opened for a field that they do not have. -/
theorem Ranks.rejects_points : ∃ after,
    database.openCursor { fields := [("points", .equals (.uint 3))] } Ranks.world =
      (.error (.unknownField "points"), after) ∧
    after.engine.objects.table = Ranks.world.engine.objects.table := by
  have hnul : ∀ field ∈ schema.fields, '\x00' ∉ field.name.toList := by decide
  have hinsert : ∀ (w : World) (order : Bytes), w.Leads (insert w order) := fun w order =>
    .tail (.tail (.single (.call (.newRow 2))) (.call _)) (.call _)
  have hleads : declared.Leads Ranks.world :=
    .trans (.single (.call (.openEnvironment 1))) ((hinsert _ _).trans (hinsert _ _))
  have hbuild : CriteriaSet.build [.equals "points" (.uint 3)] =
      .ok { fields := [("points", .equals (.uint 3))] } := rfl
  obtain ⟨hiff, hfails⟩ :=
    openCursor_fails_iff serves_created built hnul newDatabase_eq hleads rfl rfl hbuild
  obtain ⟨failure, after, h⟩ := hiff.2 ⟨_, .unknown List.mem_cons_self (by decide)⟩
  obtain ⟨hmisfits, -, htable⟩ := hfails failure after h
  cases hmisfits with
  | unknown constrained unknown =>
    cases List.mem_singleton.1 constrained
    exact ⟨after, h, htable⟩
  | combined starts leads constrained => cases starts
  | start starts leads integer => cases starts
  | value known constrained bound other =>
    obtain rfl := List.mem_singleton.1 known
    have hname : "order" = "points" := congrArg Prod.fst (List.mem_singleton.1 constrained)
    exact absurd hname (by decide)

end Client
end RowStore
