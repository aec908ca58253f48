import IteratorLowering.Proofs.Sharing.Wrapping

/-!
# The steps of lowering a loop with a callback

A loop that is lowered with a callback with success was taken through all steps
(`exists_leads`), and what each step found, made and left is kept in a `CallbackRun`. The step that
chooses the function to call either finds one that was made before, or makes one and remembers it
(`Chooses`, `typed_recursiveCallee`). What is put before a statement stands in the same block as
that one (`Edit.actionIn_of_insertBefore`, `Edit.actionIn_of_spliceBefore`).
-/

set_option autoImplicit false
set_option relaxedAutoImplicit false

namespace IteratorLowering

/-! ### The function to call -/

section

variable {state final : LoweringState} {cursor : Cursor} {iterator loopBody : FnId}
variable {bundle : TypeId} {packed : SymId}

theorem ensures_lowering {α : Type} {pass : Pass α} {result : α → Program → Prop}
    (h : Ensures pass state.program (fun _ ↦ True) result) :
    Ensures (liftM pass : Lowering α) state (fun _ ↦ True) fun value final ↦
      result value final.program ∧ final.context = state.context :=
  ensures_asLowering.mpr (h.mono (fun _ _ ↦ trivial) fun _ _ _ h ↦ ⟨h, rfl⟩)

/-- The function that a loop calls was made before, or it is made now and remembered. -/
inductive Chooses (iterator loopBody : FnId) (state : LoweringState) (callee : FnId)
    (final : LoweringState) : Prop
  | found (hfound : state.context.findGenerated? state.program iterator loopBody = some callee)
      (hfunctions : final.program.functions.size = state.program.functions.size)
      (hcontext : final.context = state.context)
  | made (hnone : state.context.findGenerated? state.program iterator loopBody = none)
      (hcallee : callee = ⟨state.program.functions.size⟩)
      (hfunctions : final.program.functions.size = state.program.functions.size + 1)
      (hgenerated : final.context.generated =
        state.context.generated ++ [{ iterator, generated := callee, loopBody }])
      (hcount : final.context.summary.generatedFunctions =
        state.context.summary.generatedFunctions + 1)

theorem typed_recursiveCallee (htyped : state.program.WellTyped)
    (hapart : state.program.BundlesApart) (hbundle : state.program.HasType bundle) :
    Ensures (recursiveCallee cursor iterator loopBody bundle packed) state (fun _ ↦ True)
      fun (callee, _) final ↦ Chooses iterator loopBody state callee final ∧
        final.program.WellTyped ∧ final.program.BundlesApart := by
  have h := Program.TypedWith.refl htyped hapart
  unfold recursiveCallee
  refine ensures_get_bind.mpr ?_
  split
  · rename_i generated hfound
    have hrequire : Ensures (Pass.require ((state.program.formalTypes generated)[2]?) .lostBundle
        cursor.span) state.program (fun _ ↦ True) fun expected middle ↦
          state.program.TypedWith 0 middle ∧ middle.HasType expected :=
      ensures_require trivial fun expected hexpected ↦ ⟨h, htyped.formalTypes generated expected
        (List.mem_of_getElem? hexpected)⟩
    refine Ensures.bind (ensures_lowering hrequire)
      fun expected middle _ ⟨⟨h, hexpected⟩, hcontext⟩ ↦ ?_
    have hcast : Ensures (do
        let cast ← cursor.fresh "_fn_args_cast" expected
        let _ ← cursor.assign cast (.cast expected (.sym packed))
        return cast : Build SymId) middle.program (fun _ ↦ True)
          fun _ final ↦ state.program.TypedWith 0 final := by
      refine Ensures.bind (Cursor.keepsTyped_fresh h hexpected) fun cast _ _ h ↦ ?_
      exact Ensures.bind (Cursor.keepsTyped_emit h) fun _ _ _ h ↦ .pure trivial h
    refine Ensures.bind (ensures_lowering hcast.build) fun _ _ _ ⟨h, hsame⟩ ↦ ?_
    exact .pure trivial ⟨.found hfound h.functions (hsame.trans hcontext), h.typed, h.apart⟩
  · rename_i hnone
    refine Ensures.bind (ensures_lowering (typed_buildRecursiveCopy h hbundle))
      fun generated _ _ ⟨⟨h, hgenerated⟩, hcontext⟩ ↦ ?_
    refine ensures_modify_bind.mpr (ensures_modify_bind.mpr (ensures_pure.mpr ⟨trivial, ?_⟩))
    refine ⟨.made hnone hgenerated h.functions ?_ ?_, h.typed, h.apart⟩
    · rw [hcontext]
    · rw [hcontext]

end

/-! ### Actions that are moved -/

section

variable {program final : Program} {anchor scratch new : StmtId} {action : Action}

namespace ForestEdit

theorem fault?_of_run_eq_ok (edit : ForestEdit) (h : program.WellLinked)
    (hrun : edit.run program = .ok () final) :
    edit.fault? program = none := by
  by_contra hfault
  obtain ⟨error, herror⟩ := Option.ne_none_iff_exists'.mp hfault
  obtain ⟨_, hfailed, -⟩ := exists_failed_run h herror
  rw [hrun] at hfailed
  cases hfailed

end ForestEdit

namespace Program

/-- Actions that are put before a statement stand in the block of that one. -/
theorem PutsBetween.actionIn {moved before after : List StmtId} {block : StmtId}
    (h : program.PutsBetween moved block before after final) (hlinked : program.WellLinked)
    (hspot : (Spot.before anchor).Between block before after) (hnew : new ∈ moved)
    (hhas : program.Has new) (hkind : program.kind new = .action action) :
    program.parent anchor = some block ∧ final.ActionIn block new action := by
  have hmem : anchor ∈ before ++ after :=
    List.mem_append_right _ (List.mem_of_head? hspot)
  rw [← h.members] at hmem
  have hchild := mem_children_of_mem_blockBody (List.mem_filter.mp hmem).1
  have hne : new ≠ block := by
    rintro rfl
    have hblock := h.isBlock
    rw [hkind] at hblock
    cases hblock
  refine ⟨hlinked.parent_of_child hchild, ?_, ?_⟩
  · rw [h.relinks.parent_eq hhas, if_pos hnew]
  · rw [h.relinks.kind_eq hhas, if_neg hne, hkind]
    rfl

end Program

namespace Edit

theorem actionIn_of_insertBefore (h : program.WellLinked) (hhas : program.Has new)
    (hkind : program.kind new = .action action)
    (hrun : Edit.insertBefore anchor new program = .ok () final) :
    ∃ outer, program.parent anchor = some outer ∧ final.ActionIn outer new action := by
  have hnone := ForestEdit.fault?_of_run_eq_ok (.insert (.before anchor) new) h hrun
  obtain ⟨_, hrun', outer, before, after, hspot, hputs⟩ :=
    ForestEdit.exists_run_insert h hhas hnone
  cases hrun.symm.trans hrun'
  exact ⟨outer, hputs.actionIn h hspot (List.mem_singleton_self new) hhas hkind⟩

theorem actionIn_of_spliceBefore (h : program.WellLinked)
    (hmember : new ∈ program.blockBody scratch)
    (hkind : program.kind new = .action action)
    (hrun : Edit.spliceBefore anchor scratch program = .ok () final) :
    ∃ outer, program.parent anchor = some outer ∧ final.ActionIn outer new action := by
  have hnone := ForestEdit.fault?_of_run_eq_ok (.splice (.before anchor) scratch) h hrun
  obtain ⟨_, hrun', hplaces, -⟩ := ForestEdit.exists_run_splice h hnone
  cases hrun.symm.trans hrun'
  rcases hplaces with ⟨hempty, -⟩ | ⟨outer, before, after, hspot, hputs⟩
  · rw [hempty] at hmember
    cases hmember
  · have hhas := h.has_of_child (Program.mem_children_of_mem_blockBody hmember)
    exact ⟨outer, hputs.actionIn h hspot hmember hhas hkind⟩

theorem actionIn_of_remove (h : program.WellLinked) {outer : StmtId}
    (hin : program.ActionIn outer new action) (hne : new ≠ anchor)
    (hrun : Edit.remove anchor program = .ok () final) : final.ActionIn outer new action := by
  have hnone := ForestEdit.fault?_of_run_eq_ok (.remove anchor) h hrun
  obtain ⟨_, hrun', hunlinks, -⟩ := Edit.exists_remove h hnone
  cases hrun.symm.trans hrun'
  refine ⟨?_, ?_⟩
  · rw [hunlinks.parent_eq, if_neg fun hmem ↦ hne (List.mem_singleton.mp hmem), hin.parent]
  · rw [hunlinks.kind_eq, hin.kind]
    rfl

end Edit

end

/-! ### All steps -/

/-- What the steps of lowering one loop with a callback find and make, and the programs that they
leave. -/
structure CallbackRun where
  index : SymId
  source : SymId
  caller : FnId
  iterator : FnId
  loopBody : FnId
  slot : Nat
  bundle : TypeId
  captures : List Capture
  packed : SymId
  callee : FnId
  argument : SymId
  opened : Program
  extracted : Program
  gathered : Program
  called : LoweringState
  emitted : Program

namespace CallbackRun

/-- Where the steps emit statements to. -/
def cursor (run : CallbackRun) (span : Span) : Cursor :=
  { function := run.caller, block := run.extracted.nextStmt, span }

/-- Whether lowering a loop takes these steps. -/
structure Leads (run : CallbackRun) (block : StmtId) (state final : LoweringState) : Prop where
  header : (state.program.kind block).forHeader? = some (run.index, run.source)
  owner : state.program.enclosingFunction? block = some run.caller
  iterator : state.program.iteratorFnOf (state.program.symbolType run.source) = some run.iterator
  opens : (Edit.insertBefore block state.program.nextStmt : Pass Unit)
    (state.program.newStmt (.action .noop) (state.program.span block)).2 = .ok () run.opened
  extracts : buildCallback run.caller block run.index (state.program.span block) run.opened =
    .ok (run.loopBody, run.slot, run.bundle, run.captures) run.extracted
  packs : (packCaptures (run.cursor (state.program.span block)) run.captures run.bundle :
    Pass SymId) run.extracted.newScratch.2 = .ok run.packed run.gathered
  calls : recursiveCallee (run.cursor (state.program.span block)) run.iterator run.loopBody
    run.bundle run.packed { state with program := run.gathered } =
      .ok (run.callee, run.argument) run.called
  emits : ∃ call, ((run.cursor (state.program.span block)).call run.callee
    [.sym run.source, .int (Int64.ofNat run.slot), .sym run.argument] : Pass StmtId)
      run.called.program = .ok call run.emitted
  replaces : replaceByMembers state.program.nextStmt run.extracted.nextStmt run.emitted =
    .ok () final.program
  context : final.context = run.called.context

end CallbackRun

/-- A value that is looked for in a program is found in it, and the program stays. -/
theorem of_require_eq_ok {α : Type} {find : Program → Option α} {absent : Fault}
    {span : Program → Span} {found : α} {program final : Program}
    (h : (get >>= fun program ↦ Pass.require (find program) absent (span program)
        : Pass α) program =
      .ok found final) : find program = some found ∧ final = program := by
  have hfound : Ensures (get >>= fun program ↦ Pass.require (find program) absent (span program) :
      Pass α) program (fun final ↦ final = program) fun found _ ↦ find program = some found :=
    ensures_get_bind.mpr (ensures_require rfl fun _ hfound ↦ hfound)
  exact (hfound.of_eq_ok h).symm

theorem exists_leads {block : StmtId} {state final : LoweringState}
    (h : lowerWithCallback block state = .ok () final) :
    ∃ run : CallbackRun, run.Leads block state final := by
  unfold lowerWithCallback at h
  obtain ⟨⟨index, source⟩, _, hfound, h⟩ := exists_of_pass_bind_eq_ok h
  obtain ⟨hheader, rfl⟩ := of_require_eq_ok hfound
  obtain ⟨_, _, hget, h⟩ := exists_of_bind_eq_ok h
  cases hget
  obtain ⟨caller, _, hfound, h⟩ := exists_of_pass_bind_eq_ok h
  obtain ⟨howner, rfl⟩ := of_require_eq_ok hfound
  obtain ⟨iterator, _, hfound, h⟩ := exists_of_pass_bind_eq_ok h
  obtain ⟨hiterator, rfl⟩ := of_require_eq_ok hfound
  obtain ⟨anchor, _, hanchor, h⟩ := exists_of_pass_bind_eq_ok h
  cases hanchor
  obtain ⟨_, opened, hopens, h⟩ := exists_of_pass_bind_eq_ok h
  obtain ⟨⟨loopBody, slot, bundle, captures⟩, extracted, hextracts, h⟩ :=
    exists_of_pass_bind_eq_ok h
  obtain ⟨site, _, hsite, h⟩ := exists_of_pass_bind_eq_ok h
  cases hsite
  obtain ⟨packed, gathered, hpacks, h⟩ := exists_of_pass_bind_eq_ok h
  obtain ⟨⟨callee, argument⟩, called, hcalls, h⟩ := exists_of_bind_eq_ok h
  obtain ⟨call, emitted, hemits, h⟩ := exists_of_pass_bind_eq_ok h
  obtain ⟨program, hreplaces, rfl⟩ := exists_of_asLowering_eq_ok h
  exact ⟨⟨index, source, caller, iterator, loopBody, slot, bundle, captures, packed, callee,
    argument, opened, extracted, gathered, called, emitted⟩,
    ⟨hheader, howner, hiterator, hopens, hextracts, hpacks, hcalls, ⟨call, hemits⟩, hreplaces,
      rfl⟩⟩

end IteratorLowering
