import IteratorLowering.Proofs.Instance.HelperArgs
import IteratorLowering.Proofs.Instance.SubtypeRuns

/-!
# Records are handed to their subtypes

The pass puts the tests for the subtypes of a record at the head of the function that makes the
instances of the record (`Program.Heads`), one function after the other (`heads_foldlM`), and leaves
the rest of the program as it is. A record is then handed to the declared subtype whose class its
object has (`delegates_addSubtypeDispatch`); the subtypes of subtypes are not tested for.
-/

set_option autoImplicit false
set_option relaxedAutoImplicit false

namespace IteratorLowering

namespace Program

/-- Tests for the subtypes of a record were put at the head of the function that makes the
instances. -/
structure Heads (program final : Program) (target : FnId × TypeId) (record : SymId)
    (ids : List StmtId) : Prop where
  first : (program.function target.1).formals.head? = some record
  body : ∀ info body, program.kind (program.bodyOf target.1) = .block info body →
    final.kind (program.bodyOf target.1) = .block info (ids ++ body)
  tests : ∀ {lowered}, final.Spares (fun id ↦ ¬ program.Has id) lowered →
    ∃ cases, List.Forall₂ (program.Describes target.2) (program.properSubtypes target.2) cases ∧
      program.TestsSubtypes lowered record (program.function target.1).retType cases ids

variable {program middle final lowered : Program} {block : StmtId} {blocks blocks' : List StmtId}
variable {base child : TypeId} {subtype : SubtypeCase}

namespace Extends

theorem properSubtypes (h : program.Extends blocks final) (type : TypeId) :
    final.properSubtypes type = program.properSubtypes type := by
  rw [Program.properSubtypes, Program.properSubtypes, h.type]

/-- What is declared of a subtype depends on the types and the functions alone. -/
theorem describes (h : program.Extends blocks final)
    (hdescribes : final.Describes base child subtype) : program.Describes base child subtype := by
  obtain ⟨hrecord, hgetIterator, hdiscriminator, hcopies⟩ := hdescribes
  simp only [getIteratorOf?, iteratorFnOf, valueType, h.type, h.function] at hgetIterator
  rw [h.type] at hdiscriminator hcopies
  refine ⟨hrecord, hgetIterator, hdiscriminator, hcopies.imp ?_⟩
  rintro field copy ⟨htarget, htargetType, hsource, hsourceType⟩
  rw [h.type] at hsource hsourceType
  exact ⟨htarget, htargetType, hsource, hsourceType⟩

end Extends

theorem ChangesOnly.extends (h : program.ChangesOnly blocks final) :
    program.Extends blocks final where
  types := by rw [h.tables]
  functions := by rw [h.tables]
  autoCopy := by rw [h.tables]
  autoDestroy := by rw [h.tables]
  symbol hid := by
    rw [h.tables]
    exact ⟨hid, rfl⟩
  kind hid := ⟨h.has hid, h.kind hid⟩

theorem TestsSubtypes.mono {record : SymId} {returned : TypeId} {cases : List SubtypeCase}
    {ids : List StmtId} (h : middle.TestsSubtypes lowered record returned cases ids)
    (hsub : ∀ {id}, program.HasSymbol id → middle.HasSymbol id) :
    program.TestsSubtypes lowered record returned cases ids := by
  induction h with
  | nil => exact .nil
  | cons htest _ ih => exact .cons (htest.mono hsub) ih

namespace Heads

variable {target : FnId × TypeId} {record : SymId} {ids : List StmtId}

theorem hasFunction (h : program.Heads final target record ids) : program.HasFunction target.1 := by
  by_contra hnot
  have hfirst := h.first
  rw [function_of_not_has hnot] at hfirst
  cases hfirst

/-- The head of a function stays when the bodies of others are changed. -/
theorem later (h : program.Heads middle target record ids) (hextends : middle.Extends blocks final)
    (hblocks : ∀ id ∈ blocks, program.Has id) (hnot : program.bodyOf target.1 ∉ blocks)
    (hhas : middle.Has (program.bodyOf target.1)) : program.Heads final target record ids where
  first := h.first
  body info body hkind := ((hextends.kind hhas).2 hnot).trans (h.body info body hkind)
  tests hspares := h.tests (hextends.spares hspares fun _ hnew ↦
    ⟨fun hmem ↦ hnew (hblocks _ hmem), hnew⟩)

/-- What is put at the head of a function does not depend on what was put at those of others. -/
theorem earlier (h : middle.Heads final target record ids)
    (hextends : program.Extends blocks middle) (hnot : program.bodyOf target.1 ∉ blocks)
    (hhas : program.Has (program.bodyOf target.1)) :
    program.Heads final target record ids where
  first := hextends.function target.1 ▸ h.first
  body info body hkind := by
    have hbody := h.body info body
    rw [hextends.bodyOf] at hbody
    exact hbody (((hextends.kind hhas).2 hnot).trans hkind)
  tests hspares := by
    obtain ⟨cases, hdescribes, htests⟩ := h.tests (hspares.mono (mt fun h ↦ (hextends.kind h).1))
    rw [hextends.properSubtypes] at hdescribes
    rw [hextends.function] at htests
    exact ⟨cases, hdescribes.imp fun _ _ ↦ hextends.describes,
      htests.mono fun h ↦ (hextends.symbol h).1⟩

end Heads

/-- Functions have bodies of their own. -/
theorem WellLinked.bodyOf_ne (hlinked : program.WellLinked) {first second : FnId}
    (hfirst : program.HasFunction first) (hsecond : program.HasFunction second)
    (hne : first ≠ second) : program.bodyOf first ≠ program.bodyOf second := by
  intro heq
  have howner := hlinked.bodyOf_body hfirst
  rw [heq, hlinked.bodyOf_body hsecond] at howner
  exact hne (Option.some.inj howner).symm

end Program

open Program

variable {program : Program} {cursor : Cursor} {record : SymId} {tagType base : TypeId}
variable {children : List TypeId}

/-- The part of the pass that emits the tests for some subtypes. -/
def emitSubtypeCases (cursor : Cursor) (record : SymId) (tagType base : TypeId)
    (children : List TypeId) : Pass Unit :=
  children.forM fun child => do
    let subtype ← subtypeCase base child cursor.span
    (emitSubtypeCase cursor record tagType subtype : Build Unit)

/-- A list of tests, one for each of some types. -/
theorem exists_testsSubtypes {lowered : Program} {returned : TypeId} {parts : List (List StmtId)}
    (h : List.Forall₂ (fun child ids ↦ ∃ subtype, program.Describes base child subtype ∧
      program.TestsSubtype lowered record returned subtype ids) children parts) :
    ∃ cases, List.Forall₂ (program.Describes base) children cases ∧
      program.TestsSubtypes lowered record returned cases parts.flatten := by
  induction h with
  | nil => exact ⟨[], .nil, .nil⟩
  | cons hfirst _ ih =>
    obtain ⟨subtype, hdescribes, htest⟩ := hfirst
    obtain ⟨cases, hcases, htests⟩ := ih
    exact ⟨subtype :: cases, .cons hdescribes hcases, .cons htest htests⟩

/-- The tests for subtypes are emitted one after the other. -/
theorem appends_emitSubtypeCases :
    Appends cursor.block program (emitSubtypeCases cursor record tagType base children)
      (fun _ _ ↦ True)
      fun _ lowered ids ↦ ∃ cases, List.Forall₂ (program.Describes base) children cases ∧
        program.TestsSubtypes lowered record (program.function cursor.function).retType cases
          ids := by
  have hstep (child : TypeId) (middle : Program) (hmiddle : program.Emits cursor.block middle) :
      Appends cursor.block middle
        (do
          let subtype ← subtypeCase base child cursor.span
          (emitSubtypeCase cursor record tagType subtype : Build Unit) : Pass Unit)
        (fun _ _ ↦ True)
        fun _ lowered ids ↦ ∃ subtype, program.Describes base child subtype ∧
          program.TestsSubtype lowered record (program.function cursor.function).retType subtype
            ids := by
    refine .of_looks describes_subtypeCase fun subtype hdescribes ↦
      appends_emitSubtypeCase.build.mono fun _ lowered ids htest ↦ ?_
    rw [hmiddle.function] at htest
    exact ⟨subtype, hmiddle.extends.describes hdescribes, htest.mono fun h ↦ (hmiddle.symbol h).1⟩
  refine (Appends.forM fun child _ middle hmiddle ↦ hstep child middle hmiddle).mono ?_
  rintro _ lowered _ ⟨parts, rfl, hparts⟩
  exact exists_testsSubtypes hparts

theorem stays_emitSubtypeCases {scope : Scope} (hfit : scope.Fits program) :
    Stays scope program (emitSubtypeCases cursor record tagType base children) :=
  hfit.forM fun _ _ _ hfit ↦
    hfit.seq stays_subtypeCase fun _ _ hfit ↦ (stays_emitSubtypeCase hfit).build

theorem addSubtypeCases_eq (count : Nat) (target : FnId × TypeId) :
    addSubtypeCases count target = (do
      let program ← get
      let definition := program.function target.1
      let record ← Pass.require definition.formals.head? .noRecordFormal definition.span
      let tag ← Pass.require ((program.type target.2).field? 0) .noDiscriminator definition.span
      let children := program.properSubtypes target.2
      let cascade ← modifyGet Program.newScratch
      emitSubtypeCases ⟨target.1, cascade, definition.span⟩ record tag.type target.2 children
      Edit.spliceAtHead ((← get).bodyOf target.1) cascade
      return count + children.length) :=
  rfl

/-- What is left of the pass for a record once the block for the tests was made. -/
theorem heads_emitSubtypeCases {target : FnId × TypeId} {total : Nat} (hlinked : program.WellLinked)
    (hfirst : (program.function target.1).formals.head? = some record) :
    Ensures
      (do
        emitSubtypeCases ⟨target.1, program.nextStmt, (program.function target.1).span⟩ record
          tagType target.2 (program.properSubtypes target.2)
        Edit.spliceAtHead ((← get).bodyOf target.1) program.nextStmt
        return total : Pass Nat)
      program.newScratch.2 (fun _ ↦ True) fun _ final ↦
        final.WellLinked ∧ program.Extends [program.bodyOf target.1] final ∧
          ∃ ids, program.Heads final target record ids := by
  have hscratch : program.Emits program.nextStmt program.newScratch.2 :=
    .newStmt _ program (.plain []) .none
  have hempty : program.newScratch.2.kind program.nextStmt = .plain [] :=
    (program.kind_newStmt (.plain []) .none _).trans (if_pos rfl)
  have hfit : Scope.everything.Fits program.newScratch.2 :=
    .everything (hlinked.newStmt .none nofun .nil)
  have hemits := (@appends_emitSubtypeCases program.newScratch.2
    ⟨target.1, program.nextStmt, (program.function target.1).span⟩ record tagType target.2
    (program.properSubtypes target.2)).emits hempty
  have hall := (hemits.tagged.and (stays_emitSubtypeCases hfit).tagged).mono (fun _ _ ↦ trivial)
    fun _ _ _ h ↦ h
  refine hall.bind ?_
  rintro _ middle - ⟨⟨hmade, -, ids, hids, htests⟩, hreworks, -⟩
  have hemits : program.Emits program.nextStmt middle := hscratch.inside hmade (.inr rfl)
  have hfunction : program.HasFunction target.1 := by
    by_contra hnot
    rw [function_of_not_has hnot] at hfirst
    cases hfirst
  have hhas := hlinked.has_body hfunction
  have hne : program.nextStmt ≠ program.bodyOf target.1 :=
    fun heq ↦ program.not_has_nextStmt (heq ▸ hhas)
  rw [ensures_get_bind, hemits.extends.bodyOf]
  have hsplice := Edit.ensures_spliceAtHead (hreworks.wellLinked hfit.wellLinked) hids
    (hemits.kind hhas).1 hne
  refine hsplice.edit.bind ?_
  rintro _ final - ⟨hchanges, hbody⟩
  refine .pure trivial ⟨hchanges.linked, (hemits.extends.trans hchanges.extends).restrict ?_, ids,
    hfirst, ?_, ?_⟩
  · intro id hid hhas
    have hold : id ≠ program.nextStmt := fun heq ↦ program.not_has_nextStmt (heq ▸ hhas)
    simpa [hold] using hid
  · intro info body hkind
    exact hbody info body (((hemits.kind hhas).2 hne.symm).trans hkind)
  · intro lowered hspares
    have hspares' : middle.Spares (fun id ↦ ¬ program.newScratch.2.Has id) lowered := by
      refine hchanges.extends.spares hspares fun {id} _ hnew ↦
        ⟨fun hmem ↦ hnew ?_, mt (fun h ↦ (hscratch.kind h).1) hnew⟩
      rcases List.mem_pair.mp hmem with rfl | rfl
      · exact has_of_kind_block hempty
      · exact (hscratch.kind hhas).1
    obtain ⟨cases, hdescribes, hcases⟩ := htests hspares'
    rw [hscratch.function] at hcases
    exact ⟨cases, hdescribes.imp fun _ _ ↦ hscratch.extends.describes,
      hcases.mono fun h ↦ (hscratch.symbol h).1⟩

theorem heads_addSubtypeCases {count : Nat} {target : FnId × TypeId}
    (hlinked : program.WellLinked) :
    Ensures (addSubtypeCases count target) program (fun _ ↦ True) fun _ final ↦
      final.WellLinked ∧ program.Extends [program.bodyOf target.1] final ∧
        ∃ record ids, program.Heads final target record ids := by
  rw [addSubtypeCases_eq]
  refine ensures_get_bind.mpr (ensures_require_bind trivial fun record hrecord ↦ ?_)
  refine ensures_require_bind trivial fun tag _ ↦ ensures_modifyGet_bind.mpr ?_
  refine (heads_emitSubtypeCases hlinked hrecord).mono (fun _ h ↦ h) ?_
  rintro _ final - ⟨hlinked', hextends, hheads⟩
  exact ⟨hlinked', hextends, record, hheads⟩

/-- All functions get their tests, and the other blocks of the program stay as they are. Where two
records have the same function, the tests for the second one are before those for the first. -/
theorem heads_foldlM {targets : List (FnId × TypeId)} {count : Nat} (hlinked : program.WellLinked) :
    Ensures (targets.foldlM addSubtypeCases count) program (fun _ ↦ True) fun _ final ↦
      final.WellLinked ∧ program.Extends (targets.map fun target ↦ program.bodyOf target.1) final ∧
        ∀ target ∈ targets, program.HasFunction target.1 ∧
          ((targets.map Prod.fst).count target.1 = 1 →
            ∃ record ids, program.Heads final target record ids) := by
  induction targets generalizing program count with
  | nil => exact .pure trivial ⟨hlinked, .refl program, nofun⟩
  | cons target rest ih =>
    rw [List.foldlM_cons]
    refine (heads_addSubtypeCases hlinked).bind ?_
    rintro value middle - ⟨hmiddle, hextends, record, ids, hheads⟩
    refine (ih hmiddle).mono (fun _ h ↦ h) ?_
    rintro _ final - ⟨hfinal, hrest, hall⟩
    simp only [hextends.bodyOf] at hrest
    have hhas (other : FnId × TypeId) (hother : other ∈ rest) : program.HasFunction other.1 := by
      have := (hall other hother).1
      rwa [HasFunction, hextends.functions] at this
    have hfunction := hheads.hasFunction
    have hbody := hlinked.has_body hfunction
    refine ⟨hfinal, hextends.trans hrest, List.forall_mem_cons.mpr
      ⟨⟨hfunction, fun honce ↦ ⟨record, ids, ?_⟩⟩,
        fun other hother ↦ ⟨hhas other hother, fun honce ↦ ?_⟩⟩⟩
    · rw [List.map_cons, List.count_cons_self, Nat.add_eq_right, List.count_eq_zero] at honce
      refine hheads.later hrest (List.forall_mem_map.mpr fun other hother ↦
        hlinked.has_body (hhas other hother)) (fun hmem ↦ ?_) (hextends.kind hbody).1
      obtain ⟨other, hother, heq⟩ := List.mem_map.mp hmem
      refine hlinked.bodyOf_ne (hhas other hother) hfunction (fun hsame ↦ honce ?_) heq
      exact hsame ▸ List.mem_map_of_mem hother
    · have hne : target.1 ≠ other.1 := by
        intro heq
        rw [List.map_cons, heq, List.count_cons_self, Nat.add_eq_right, List.count_eq_zero] at honce
        exact honce (List.mem_map_of_mem hother)
      rw [List.map_cons, List.count_cons_of_ne hne] at honce
      obtain ⟨record', ids', hother'⟩ := (hall other hother).2 honce
      refine ⟨record', ids', hother'.earlier hextends (fun hmem ↦ ?_)
        (hlinked.has_body (hhas other hother))⟩
      exact hlinked.bodyOf_ne (hhas other hother) hfunction hne.symm (List.mem_singleton.mp hmem)

open Eval in
/-- A function that makes the instances of one iterator only hands a record whose first field holds
an object of the class of a declared subtype to the function of the first such subtype, as a new
record of the subtype, and returns what that makes. It goes on with its old body for all other
classes, those of subtypes of subtypes among them. -/
theorem delegates_addSubtypeDispatch {program final : Program} {count : Nat}
    {target : FnId × TypeId} {body : List StmtId} (hlinked : program.WellLinked)
    (hformals : program.HasFormals) (hrun : addSubtypeDispatch program = .ok count final)
    (htarget : target ∈ program.subtypeTargets)
    (honce : (program.subtypeTargets.map Prod.fst).count target.1 = 1)
    (hbody : program.kind (program.bodyOf target.1) = .plain body)
    (haggregate : ∀ child ∈ program.properSubtypes target.2,
      (program.type child).isAggregate = true) :
    program.Extends (program.subtypeTargets.map fun target ↦ program.bodyOf target.1) final ∧
      ∃ record cases ids, (program.function target.1).formals.head? = some record ∧
        List.Forall₂ (fun child subtype ↦ program.Describes target.2 child subtype ∧
            subtype.CopiesByName program final target.2 child)
          (program.properSubtypes target.2) cases ∧
          final.kind (final.bodyOf target.1) = .plain (ids ++ body) ∧
            ∀ {limits : Limits} {fuel rounds frame : Nat} {machine : Machine} {object : ObjId}
              {held : Object} {type : TypeId}, limits.Covers fuel machine.steps →
                limits.Covers rounds machine.steps →
                  machine.LeadsTo program frame record object held →
                    held.fields.size = (program.type target.2).fields.length →
                      machine.Tagged program held type →
                        Delegates program final limits frame (program.function target.1).retType
                          (cases.find? fun subtype => subtype.discriminator = type) held
                          (fun rounds middle ↦ runList final (execute final limits fuel frame)
                            (ids ++ body) rounds body middle) machine
                          (runList final (execute final limits fuel frame) (ids ++ body) rounds
                            (ids ++ body) machine) := by
  have hpass : Ensures addSubtypeDispatch program (fun _ ↦ True) _ :=
    ensures_get_bind.mpr (heads_foldlM hlinked)
  obtain ⟨-, -, hextends, hall⟩ := hpass.of_eq_ok hrun
  obtain ⟨record, ids, hheads⟩ := (hall target htarget).2 honce
  obtain ⟨cases, hdescribes, htests⟩ := hheads.tests (.refl _ final)
  refine ⟨hextends, record, cases, ids, hheads.first,
    hdescribes.imp fun _ _ h ↦ ⟨h, h.copiesByName hextends.types⟩, ?_, ?_⟩
  · rw [hextends.bodyOf]
    exact hheads.body none body hbody
  intro limits fuel rounds frame machine object held type hfuel hrounds hrecord hsize htagged
  refine delegates_testsSubtypes htests (fun subtype hsubtype ↦ ?_) hrecord
    (hformals _ record (List.mem_of_mem_head? hheads.first)) htagged (.refl _ frame machine) hfuel
    hrounds
  obtain ⟨position, hposition, rfl⟩ := List.mem_iff_getElem.mp hsubtype
  have hchild := hdescribes.length_eq ▸ hposition
  exact (hdescribes.get hchild hposition).complete hextends.types
    (haggregate _ (List.getElem_mem hchild)) hsize

/-- An iterator over records with one subtype, and the functions that make instances of both. -/
def walksWithSubtype : Program where
  types := builtinTypes ++ #[
    { name := "Base", kind := .heapClass },
    { name := "Mid", kind := .heapClass },
    { name := "_ir_walk", kind := .record, fields := [⟨"tag", ⟨5⟩⟩, ⟨"x", .int⟩], subtypes := [⟨8⟩],
      flags := { iteratorRecord := true }, iteratorFn := some ⟨2⟩ },
    { name := "_ir_mid", kind := .record, fields := [⟨"tag", ⟨6⟩⟩, ⟨"x", .int⟩],
      flags := { iteratorRecord := true }, iteratorFn := some ⟨3⟩ }]
  symbols := #[
    { name := "rec", kind := .arg, type := ⟨7⟩, owner := some ⟨0⟩ },
    { name := "rec", kind := .arg, type := ⟨8⟩, owner := some ⟨1⟩ },
    { name := "x", kind := .var, type := .int, owner := some ⟨1⟩ }]
  statements := #[
    { kind := .plain [⟨1⟩], bodyOf := some ⟨0⟩, span := .none },
    { kind := .action (.ret (.int 0)), parent := some ⟨0⟩, span := .none },
    { kind := .plain [⟨3⟩, ⟨4⟩, ⟨5⟩], bodyOf := some ⟨1⟩, span := .none },
    { kind := .action (.define ⟨2⟩), parent := some ⟨2⟩, span := .none },
    { kind := .action (.assign ⟨2⟩ (.fieldValue ⟨1⟩ (.index 1))), parent := some ⟨2⟩,
      span := .none },
    { kind := .action (.ret (.sym ⟨2⟩)), parent := some ⟨2⟩, span := .none },
    { kind := .plain [], bodyOf := some ⟨2⟩, span := .none },
    { kind := .plain [], bodyOf := some ⟨3⟩, span := .none }]
  functions := #[
    { name := "_gi_walk", formals := [⟨0⟩], retType := .int, body := ⟨0⟩ },
    { name := "_gi_mid", formals := [⟨1⟩], retType := .int, body := ⟨2⟩ },
    { name := "walk", retType := .int, body := ⟨6⟩, flags := { iterator := true },
      iteratorInfo := some ⟨⟨7⟩, ⟨7⟩, ⟨0⟩, ⟨0⟩, ⟨0⟩, ⟨0⟩, ⟨0⟩, ⟨0⟩, ⟨0⟩⟩ },
    { name := "mid", retType := .int, body := ⟨7⟩, flags := { iterator := true },
      iteratorInfo := some ⟨⟨8⟩, ⟨8⟩, ⟨1⟩, ⟨1⟩, ⟨1⟩, ⟨1⟩, ⟨1⟩, ⟨1⟩, ⟨1⟩⟩ }]

/-- The program with the tests. -/
def dispatchedWalks : Program :=
  (Runs.run (m := EStateM LoweringError Program) addSubtypeDispatch walksWithSubtype).2

/-- A call of the function for the base records with a record that carries an object. -/
def callWithRecord (carried : TypeId) : Machine where
  heap := #[{ type := ⟨7⟩, fields := #[.obj ⟨1⟩, .int 7] }, { type := carried, fields := #[] }]
  frames := #[{ function := ⟨0⟩, locals := FiniteMap.empty.insert ⟨0⟩ (.obj ⟨0⟩) }]

/-- Limits that the calls stay within. -/
def hundredSteps : Limits := { maxSteps := 100 }

/-- What members of the body of the function for the base records do. -/
def runMembers (members : List StmtId) (rounds : Nat) (machine : Machine) :
    EStateM.Result EvalError Machine Flow :=
  Eval.runList dispatchedWalks (Eval.execute dispatchedWalks hundredSteps 101 0)
    (dispatchedWalks.kind ⟨0⟩).children rounds members machine

/-- What the function for the base records does in such a call. -/
def runWithRecord (carried : TypeId) : EStateM.Result EvalError Machine Flow :=
  runMembers (dispatchedWalks.kind ⟨0⟩).children 101 (callWithRecord carried)

open Eval in
/-- A record that carries an object of the subtype's class is handed to the function for the
subtype, which returns its number, and one that carries an object of the base class is not. -/
theorem delegates_walksWithSubtype :
    addSubtypeDispatch walksWithSubtype = .ok 1 dispatchedWalks ∧
      ∃ subtype, walksWithSubtype.Describes ⟨7⟩ ⟨8⟩ subtype ∧
        subtype.CopiesByName walksWithSubtype dispatchedWalks ⟨7⟩ ⟨8⟩ ∧
        Delegates walksWithSubtype dispatchedWalks hundredSteps 0 .int (some subtype)
          { type := ⟨7⟩, fields := #[.obj ⟨1⟩, .int 7] } (runMembers [⟨1⟩]) (callWithRecord ⟨6⟩)
          (runWithRecord ⟨6⟩) ∧
        (∃ last, runWithRecord ⟨6⟩ = .ok (.ret (.int 7)) last) ∧
        Delegates walksWithSubtype dispatchedWalks hundredSteps 0 .int none
          { type := ⟨7⟩, fields := #[.obj ⟨1⟩, .int 7] } (runMembers [⟨1⟩]) (callWithRecord ⟨5⟩)
          (runWithRecord ⟨5⟩) ∧
        ∃ last, runWithRecord ⟨5⟩ = .ok (.ret (.int 0)) last := by
  have hlinked : walksWithSubtype.WellLinked := by decide +kernel
  have hformals : walksWithSubtype.HasFormals := by
    rintro ⟨index⟩
    match index with
    | 0 | 1 | 2 | 3 => decide
    | _ + 4 => exact nofun
  have hrun : addSubtypeDispatch walksWithSubtype = .ok 1 dispatchedWalks := by
    unfold dispatchedWalks
    exact eq_ok_of_run (by decide +kernel)
  have htarget : (⟨0⟩, ⟨7⟩) ∈ walksWithSubtype.subtypeTargets := by decide +kernel
  have hbody : walksWithSubtype.kind (walksWithSubtype.bodyOf ⟨0⟩) = .plain [⟨1⟩] := rfl
  obtain ⟨-, record, cases, ids, hrecord, hdescribes, hkind, hdelegates⟩ :=
    delegates_addSubtypeDispatch hlinked hformals hrun htarget (by decide +kernel) hbody
      (by decide +kernel)
  obtain rfl : ⟨0⟩ = record := Option.some.inj hrecord
  have hchildren : walksWithSubtype.properSubtypes ⟨7⟩ = [⟨8⟩] := by decide +kernel
  rw [hchildren] at hdescribes
  obtain ⟨subtype, rfl, hdescribed, hcopies⟩ : ∃ subtype, cases = [subtype] ∧
      walksWithSubtype.Describes ⟨7⟩ ⟨8⟩ subtype ∧
        subtype.CopiesByName walksWithSubtype dispatchedWalks ⟨7⟩ ⟨8⟩ := by
    cases hdescribes with
    | cons hdescribed hrest =>
      cases hrest
      exact ⟨_, rfl, hdescribed⟩
  have hdiscriminator : subtype.discriminator = ⟨6⟩ := by
    obtain ⟨first, hfirst, hdiscriminator⟩ := hdescribed.discriminator
    exact hdiscriminator.trans (Option.some.inj hfirst ▸ rfl)
  have hbodyOf : dispatchedWalks.bodyOf ⟨0⟩ = ⟨0⟩ := by decide +kernel
  have hall : (dispatchedWalks.kind ⟨0⟩).children = ids ++ [⟨1⟩] := by
    rw [← hbodyOf, hkind]
    rfl
  have hcovers : hundredSteps.Covers 101 0 := ⟨by decide, by decide⟩
  have hdelegates (carried : TypeId) := hdelegates hcovers hcovers
    (⟨⟨_, rfl, .obj⟩, rfl⟩ : (callWithRecord carried).LeadsTo walksWithSubtype 0 ⟨0⟩ ⟨0⟩ _) rfl
    ⟨Nat.zero_lt_two, ⟨1⟩, _, .obj, rfl, rfl⟩
  simp only [← hall, List.find?_cons, hdiscriminator] at hdelegates
  refine ⟨hrun, subtype, hdescribed, hcopies, hdelegates ⟨6⟩, ⟨_, eq_ok_of_run ?_⟩,
    hdelegates ⟨5⟩, _, eq_ok_of_run ?_⟩
  · decide +kernel
  · decide +kernel

end IteratorLowering
