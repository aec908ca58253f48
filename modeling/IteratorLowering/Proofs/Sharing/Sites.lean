import IteratorLowering.Proofs.Frame.Loops
import IteratorLowering.Proofs.Passes.LeftOver
import IteratorLowering.Proofs.Sharing.Steps

/-!
# What stands where a loop was

A loop that is lowered with a callback leaves a site (`CallbackSite`): the loop is the body of a new
function, a new wrapper in the function table calls that function, and where the loop was, the copy
of the iterator is called with the slot of the wrapper (`CallbackSite.Replaces`). The copy is one
that is remembered for the same iterator and signature, or a new one that is remembered from then on
(`CallbackSite.Shares`). Every run that succeeds leaves a site (`exists_site`).

Two frames carry the argument. The frame around the loop holds from the start to the end, so the
functions that were there keep their signatures (`CallbackRun.Leads.keeps_functions`). The frame
around the placeholder holds once the loop is moved, so the new functions stay as they were made
(`CallbackRun.Leads.keeps_moved`).
-/

set_option autoImplicit false
set_option relaxedAutoImplicit false

namespace IteratorLowering

namespace Program

variable {program final : Program} {function : FnId} {id outer : StmtId}

/-- A placeholder has been put before a loop, and nothing else was touched. -/
structure Anchored (program : Program) (block : StmtId) (caller : FnId) (final : Program) :
    Prop where
  linked : final.WellLinked
  has : ∀ {id}, program.Has id → final.Has id
  anchor : ∃ outer, program.parent block = some outer ∧ final.parent block = some outer ∧
    final.ActionIn outer program.nextStmt .noop
  compound : (final.kind block).isAction = false
  header : (final.kind block).forHeader? = (program.kind block).forHeader?
  stands : final.StandsIn caller block

theorem Anchored.mem_bystanders {block : StmtId} {caller : FnId}
    (h : program.Anchored block caller final) :
    program.nextStmt ∈ final.bystanders caller block := by
  obtain ⟨outer, -, hparent, hanchor⟩ := h.anchor
  have houter := h.stands.under (.single hparent) h.linked
  refine (h.linked.mem_bystanders_iff h.stands).mpr
    ⟨houter.inside (.single hanchor.parent), fun hunder ↦ ?_, ?_⟩
  · rcases hunder.cases_head with heq | ⟨parent, hparent', hunder⟩
    · have hcompound := h.compound
      rw [← heq, hanchor.kind] at hcompound
      cases hcompound
    · rw [Option.some.inj (hparent'.symm.trans hanchor.parent)] at hunder
      exact h.linked.not_under_of_parent houter hparent hunder
  · rw [declaresIndex, hanchor.kind]
    rfl

/-- A frame around a loop is one with the placeholder there. -/
theorem Anchored.surrounds {block : StmtId} {caller : FnId}
    (h : program.Anchored block caller final)
    (hlinked : program.WellLinked) (hstands : program.StandsIn caller block) {frame : LoopFrame}
    (haround : frame.Surrounds program block) : frame.Surrounds final block where
  loop := haround.loop
  home := haround.home
  owner howner := by
    rw [h.linked.standsIn_unique (h.linked.enclosingFunction?_eq_some.mp howner) h.stands]
    exact haround.owner (hlinked.enclosingFunction?_eq_some.mpr hstands)
  index hheader := haround.index (h.header.symm.trans hheader)

end Program

namespace LoopFrame

variable {frame : LoopFrame} {program : Program}

/-- A kept statement stands in the function that it stood in. -/
theorem Holds.standsIn (h : frame.Holds program) (hlinked : program.WellLinked) {function : FnId}
    {id : StmtId} (hid : frame.start.StandsIn function id) (hkept : frame.kept id) :
    program.StandsIn function id := by
  obtain ⟨root, hroot, hbody⟩ := hid
  have habove {outer : StmtId} (hunder : frame.start.Under id outer) : frame.kept outer := by
    induction hunder with
    | refl => exact hkept
    | tail _ hparent ih => exact frame.kept_above (frame.linked.child_of_parent hparent) ih
  obtain ⟨hfunction, rfl⟩ := frame.linked.body_of_bodyOf hbody
  obtain ⟨hhas, -, hsame⟩ := h.function hfunction
  refine ⟨_, hroot.of_place fun hunder ↦ h.parent (habove hunder), ?_⟩
  rw [← hsame (habove hroot)]
  exact hlinked.bodyOf_body hhas

/-- The signature of a function that was there at the start stays. -/
theorem Holds.signature (h : frame.Holds program) (htyped : frame.start.WellTyped) {function : FnId}
    (hfunction : frame.start.HasFunction function) :
    program.signature function = frame.start.signature function :=
  h.enlarges.signature htyped hfunction (by rw [(h.function hfunction).2.1])

/-- The frame of a statement that stands nowhere. -/
def ofRoot {start : Program} (hlinked : start.WellLinked) {root : StmtId} (hroot : start.Has root)
    (hparent : start.parent root = none) : LoopFrame where
  start := start
  linked := hlinked
  home := default
  kept id := decide (id = root)
  fixed _ := False
  made := []
  has hid := of_decide_eq_true hid ▸ hroot
  kept_of_fixed := False.elim
  kept_above {id child} hchild hkept := by
    rw [of_decide_eq_true hkept] at hchild
    cases hparent.symm.trans (hlinked.parent_of_child hchild)
  fixed_above _ := False.elim
  fixed_below _ := False.elim
  home_body := not_false
  made_new hfunction := absurd hfunction List.not_mem_nil

end LoopFrame

namespace CallbackRun.Leads

variable {run : CallbackRun} {block : StmtId} {state final : LoweringState}

theorem compound (h : run.Leads block state final) :
    (state.program.kind block).isAction = false :=
  StmtKind.isAction_of_forHeader h.header

theorem has (h : run.Leads block state final) : state.program.Has block :=
  has_of_forHeader h.header

theorem anchored (hlinked : state.program.WellLinked) (h : run.Leads block state final) :
    state.program.Anchored block run.caller run.opened := by
  have hnone {id : StmtId} : ¬ (Scope.only []).moved id := List.not_mem_nil
  have hmade : Ensures (newAction .noop (state.program.span block)) state.program
      (state.program.Reworks (.only [])) fun id final ↦
        final.Loose (.only []) id ∧ (final.kind id).isAction = true := ensures_newAction_kind
  obtain ⟨hnew, hloose, -⟩ := hmade.build.of_eq_ok
    (rfl : (liftM (newAction .noop (state.program.span block)) : Pass StmtId) state.program =
      .ok state.program.nextStmt _)
  obtain ⟨hinsert, -⟩ := (Edit.ensures_insertBefore hloose).edit.of_eq_ok h.opens
  have hreworks := hnew.trans hinsert
  obtain ⟨outer, houter, hanchor⟩ := Edit.actionIn_of_insertBefore (hnew.wellLinked hlinked)
    hloose.has ((Program.kind_newStmt ..).trans (if_pos rfl)) (eq_ok_of_asPass_eq_ok h.opens)
  have hparent := (hnew.place h.has h.compound hnone).1.symm.trans houter
  have hstands := hlinked.enclosingFunction?_eq_some.mp h.owner
  exact {
    linked := hreworks.wellLinked hlinked
    has := hreworks.has
    anchor := ⟨outer, hparent, (hreworks.place h.has h.compound hnone).1.trans hparent, hanchor⟩
    compound := (hreworks.isAction h.has).trans h.compound
    header := by
      rw [StmtKind.forHeader?_eq_bind, hreworks.header h.has not_false,
        ← StmtKind.forHeader?_eq_bind]
    stands := hstands.of_place fun hunder ↦ hreworks.place (hstands.under hunder hlinked).has
      (hlinked.compound_of_under h.compound hunder) hnone }

/-- Moving the loop into a function keeps every frame around the loop. -/
theorem holds_extracted {frame : LoopFrame} (h : run.Leads block state final)
    (hframe : frame.Holds run.opened) (haround : frame.Surrounds run.opened block)
    (hhome : frame.home = run.caller)
    (hheader : (run.opened.kind block).forHeader? = some (run.index, run.source)) :
    frame.Holds run.extracted :=
  ((respects_buildCallback hframe haround.loop haround.home (haround.index hheader)).of_eq_ok
    (hhome ▸ h.extracts)).1

/-- What is done once the loop is moved touches nothing that was there, apart from the
placeholder. -/
theorem holds_called {frame : LoopFrame} (h : run.Leads block state final)
    (hframe : frame.Holds run.extracted) :
    frame.Holds run.gathered ∧ frame.Holds run.called.program ∧ frame.Holds run.emitted ∧
      (¬ frame.kept state.program.nextStmt → frame.Holds final.program) := by
  have hscratch : Ensures (modifyGet Program.newScratch : Pass StmtId) run.extracted frame.Holds
      fun id _ ↦ ¬ frame.kept id := LoopFrame.respects_newPlain hframe
  obtain ⟨hframe, hsite⟩ := hscratch.of_eq_ok rfl
  have hinto : ¬ frame.fixed (run.cursor (state.program.span block)).block := frame.not_fixed hsite
  obtain ⟨hgathered, -⟩ := (respects_packCaptures hframe hinto).build.of_eq_ok h.packs
  obtain ⟨hcalled, -⟩ := (respects_recursiveCallee hgathered hinto).of_eq_ok h.calls
  obtain ⟨call, hemits⟩ := h.emits
  obtain ⟨hemitted, -⟩ := (Cursor.respects_action hcalled hinto).build.of_eq_ok hemits
  exact ⟨hgathered, hcalled, hemitted, fun hanchor ↦
    ((respects_replaceByMembers hemitted hanchor hsite).of_eq_ok h.replaces).1⟩

theorem linked_called (hlinked : run.extracted.WellLinked) (h : run.Leads block state final) :
    run.called.program.WellLinked ∧
      ∃ members, run.called.program.kind run.extracted.nextStmt = .plain members := by
  set opened := run.extracted.newScratch.2
  have hopened : opened.WellLinked := hlinked.newStmt .none (List.forall_mem_nil _) .nil
  have hfit := Scope.Fits.everything hopened
  obtain ⟨hgathered, -⟩ := (stays_packCaptures hfit).build.of_eq_ok h.packs
  obtain ⟨hcalled, -⟩ :=
    (ensures_recursiveCallee trivial (hfit.after hgathered)).of_eq_ok h.calls
  refine ⟨hcalled.program.wellLinked (hgathered.wellLinked hopened), ?_⟩
  -- The block that statements are emitted to stands nowhere, and so it stays a plain block.
  have hroot : opened.Has run.extracted.nextStmt := (Program.has_newStmt ..).mpr (.inr rfl)
  have hdetached : opened.Detached run.extracted.nextStmt :=
    Program.WellLinked.detached_newStmt run.extracted .none (List.forall_mem_nil _)
  set frame := LoopFrame.ofRoot hopened hroot hdetached.parent
  have hinto : ¬ frame.fixed (run.cursor (state.program.span block)).block := not_false
  obtain ⟨hframe, -⟩ := (respects_packCaptures (.refl frame rfl) hinto).build.of_eq_ok h.packs
  obtain ⟨hframe, -⟩ := (respects_recursiveCallee hframe hinto).of_eq_ok h.calls
  have hcontent := hframe.content (decide_eq_true rfl : frame.kept run.extracted.nextStmt)
  have hplain : opened.kind run.extracted.nextStmt = .plain [] :=
    (Program.kind_newStmt ..).trans (if_pos rfl)
  change (opened.kind run.extracted.nextStmt).Resembles _ at hcontent
  rw [hplain] at hcontent
  generalize run.called.program.kind run.extracted.nextStmt = kind at hcontent
  cases hcontent with
  | block _ _ members => exact ⟨members, rfl⟩

/-- The call stands where the loop was. -/
theorem exists_call (hlinked : run.extracted.WellLinked) (h : run.Leads block state final)
    {outer : StmtId} (hanchor : run.emitted.ActionIn outer state.program.nextStmt .noop) :
    ∃ call, ¬ run.called.program.Has call ∧ final.program.ActionIn outer call
      (.evaluate (.call run.callee
        [.sym run.source, .int (Int64.ofNat run.slot), .sym run.argument])) := by
  obtain ⟨hcalled, members, hmembers⟩ := h.linked_called hlinked
  obtain ⟨_, hemits⟩ := h.emits
  obtain ⟨-, hputs⟩ := (Program.ensures_emitAction hcalled hmembers _).build.of_eq_ok hemits
  have hplain : run.emitted.kind run.extracted.nextStmt =
    .plain (members ++ [run.called.program.nextStmt]) := hputs.block
  have hmember : run.called.program.nextStmt ∈ run.emitted.blockBody run.extracted.nextStmt := by
    rw [Program.blockBody_of_kind hplain]
    exact List.mem_append_right _ (List.mem_singleton_self _)
  obtain ⟨_, spliced, hsplice, hremove⟩ := exists_of_bind_eq_ok h.replaces
  have hsplice := eq_ok_of_asPass_eq_ok hsplice
  obtain ⟨outer', hparent, hin⟩ :=
    Edit.actionIn_of_spliceBefore hputs.linked hmember hputs.new hsplice
  obtain rfl : outer' = outer := Option.some.inj (hparent.symm.trans hanchor.parent)
  have hmoved : Stays .everything run.emitted (Edit.spliceBefore state.program.nextStmt
    run.extracted.nextStmt) := Edit.fits_spliceBefore (.everything hputs.linked) trivial
  have hne : run.called.program.nextStmt ≠ state.program.nextStmt := by
    intro heq
    have hcall := hputs.new
    rw [heq, hanchor.kind] at hcall
    cases hcall
  exact ⟨_, run.called.program.not_has_nextStmt, Edit.actionIn_of_remove
    ((hmoved.of_eq_ok hsplice).1.wellLinked hputs.linked) hin hne (eq_ok_of_asPass_eq_ok hremove)⟩

/-- A frame of the loop holds all the way. -/
theorem holds_all (hlinked : state.program.WellLinked) (h : run.Leads block state final)
    {frame : LoopFrame} (hframe : frame.Holds state.program)
    (haround : frame.Surrounds state.program block) (hhome : frame.home = run.caller) :
    frame.Holds run.gathered ∧ frame.Holds run.called.program ∧ frame.Holds final.program := by
  have hanchored := h.anchored hlinked
  obtain ⟨hmade, hanchor⟩ := (respects_newAction hframe).build.of_eq_ok
    (rfl : (liftM (newAction .noop (state.program.span block)) : Pass StmtId) state.program =
      .ok state.program.nextStmt _)
  obtain ⟨hopened, -⟩ := (Edit.respects_insertBefore hmade (frame.not_fixed haround.loop)
    hanchor).edit.of_eq_ok h.opens
  have hextracted := h.holds_extracted hopened (hanchored.surrounds hlinked
    (hlinked.enclosingFunction?_eq_some.mp h.owner) haround) hhome (hanchored.header.trans h.header)
  obtain ⟨hgathered, hcalled, -, hfinal⟩ := h.holds_called hextracted
  exact ⟨hgathered, hcalled, hfinal hanchor⟩

/-- What is made on the way, and that the programs are typed. -/
structure Makes (run : CallbackRun) (block : StmtId) (state final : LoweringState) : Prop where
  opened : run.opened.functions.size = state.program.functions.size
  callback : run.opened.MakesCallback block run.loopBody run.slot run.bundle run.extracted
  gathered : run.gathered.functions.size = state.program.functions.size + 2
  apart : run.gathered.BundlesApart
  chooses : Chooses run.iterator run.loopBody { state with program := run.gathered } run.callee
    run.called
  functions : final.program.functions.size = run.called.program.functions.size
  typed : final.program.WellTyped
  finalApart : final.program.BundlesApart

theorem makes (hlinked : state.program.WellLinked) (htyped : state.program.WellTyped)
    (hapart : state.program.BundlesApart) (h : run.Leads block state final) :
    Makes run block state final := by
  have hanchored := h.anchored hlinked
  obtain ⟨outer, -, hparent, -⟩ := hanchored.anchor
  have hstart : state.program.TypedWith 0 _ := .refl htyped hapart
  have hmade := hstart.of_sameTables
    (.newStmt state.program (.action .noop) (state.program.span block))
  obtain ⟨-, hopened⟩ := (hmade.leaves Edit.leavesTables_insertBefore.edit).of_eq_ok h.opens
  have hmakes := makesCallback_of_eq_ok hanchored.linked hopened.typed hopened.apart
    hanchored.compound hparent h.extracts
  have hextracted := hopened.trans hmakes.typed
  have hscratch : run.extracted.TypedWith 0 run.extracted.newScratch.2 :=
    (Program.TypedWith.refl hextracted.typed hextracted.apart).of_sameTables (.newStmt ..)
  have hbundle := hscratch.type hmakes.bundle
  obtain ⟨-, hgathered⟩ := (keepsTyped_packCaptures hscratch hbundle).build.of_eq_ok h.packs
  obtain ⟨-, hchooses, hcalled⟩ := (typed_recursiveCallee hgathered.typed hgathered.apart
    (hgathered.type hmakes.bundle)).of_eq_ok h.calls
  have hcalled : run.called.program.TypedWith 0 _ := .refl hcalled.1 hcalled.2
  obtain ⟨_, hemits⟩ := h.emits
  obtain ⟨-, hemitted⟩ := (Cursor.keepsTyped_emit hcalled).build.of_eq_ok hemits
  obtain ⟨-, hfinal⟩ := (keepsTyped_replaceByMembers hemitted).of_eq_ok h.replaces
  exact ⟨hopened.functions, hmakes, (hextracted.trans hgathered).functions, hgathered.apart,
    hchooses, hfinal.functions, hfinal.typed, hfinal.apart⟩

/-- Functions that were there keep their signatures, and slots keep their functions. -/
theorem keeps_functions (hlinked : state.program.WellLinked) (htyped : state.program.WellTyped)
    (h : run.Leads block state final) :
    (∀ {function}, state.program.HasFunction function → final.program.HasFunction function ∧
      run.called.program.HasFunction function ∧
      final.program.signature function = state.program.signature function ∧
      run.gathered.signature function = state.program.signature function) ∧
    ∀ {slot function}, state.program.table.get? slot = some function →
      final.program.table.get? slot = some function := by
  have hstands := hlinked.enclosingFunction?_eq_some.mp h.owner
  obtain ⟨hgathered, hcalled, hfinal⟩ := h.holds_all hlinked
    (.refl (LoopFrame.around hlinked hstands) rfl) LoopFrame.surrounds_around rfl
  exact ⟨fun hfunction ↦ ⟨(hfinal.function hfunction).1, (hcalled.function hfunction).1,
    hfinal.signature htyped hfunction, hgathered.signature htyped hfunction⟩, hfinal.enlarges.slot⟩

/-- The placeholder stays in its function until the call has been put together. -/
theorem anchor_stands (hlinked : state.program.WellLinked) (hextracted : run.extracted.WellLinked)
    (h : run.Leads block state final) :
    run.extracted.StandsIn run.caller state.program.nextStmt ∧
    (∀ {outer}, state.program.parent block = some outer →
      run.emitted.ActionIn outer state.program.nextStmt .noop) ∧
    ∀ {id}, state.program.Has id → run.called.program.Has id := by
  have hanchored := h.anchored hlinked
  have hkept : (LoopFrame.around hanchored.linked hanchored.stands).kept state.program.nextStmt :=
    decide_eq_true (.inl hanchored.mem_bystanders)
  have hheld := h.holds_extracted (.refl (LoopFrame.around hanchored.linked hanchored.stands) rfl)
    LoopFrame.surrounds_around rfl (hanchored.header.trans h.header)
  obtain ⟨outer, houter, hparent, hanchor⟩ := hanchored.anchor
  have hstands := (hanchored.stands.under (.single hparent) hanchored.linked).inside
    (.single hanchor.parent)
  obtain ⟨-, hcalled, hemitted, -⟩ := h.holds_called hheld
  refine ⟨hheld.standsIn hextracted hstands hkept, fun houter' ↦ ?_,
    fun hid ↦ hcalled.has (hanchored.has hid)⟩
  obtain rfl := Option.some.inj (houter.symm.trans houter')
  have hcontent := hemitted.content hkept
  change (run.opened.kind state.program.nextStmt).Resembles _ at hcontent
  rw [hanchor.kind] at hcontent
  refine ⟨(hemitted.parent hkept).trans hanchor.parent, ?_⟩
  generalize run.emitted.kind state.program.nextStmt = kind at hcontent
  cases hcontent
  rfl

/-- Once the loop is moved, its new function and the other functions around stay as they are. -/
theorem keeps_moved (hextracted : run.extracted.WellLinked) (htyped : run.extracted.WellTyped)
    (h : run.Leads block state final)
    (hanchor : run.extracted.StandsIn run.caller state.program.nextStmt) :
    (∀ {function}, run.extracted.HasFunction function → final.program.HasFunction function ∧
      final.program.signature function = run.gathered.signature function ∧
      (function ≠ run.caller →
        final.program.bodyOf function = run.extracted.bodyOf function ∧
        ∀ {id}, run.extracted.StandsIn function id →
          final.program.stmt id = run.extracted.stmt id)) ∧
    ∀ {slot function}, run.extracted.table.get? slot = some function →
      final.program.table.get? slot = some function := by
  obtain ⟨hgathered, -, -, hfinal⟩ :=
    h.holds_called (.refl (LoopFrame.around hextracted hanchor) rfl)
  have hfinal := hfinal LoopFrame.not_kept_around_loop
  have hfixed {function : FnId} {id : StmtId} (hne : function ≠ run.caller)
      (hid : run.extracted.StandsIn function id) :
      (LoopFrame.around hextracted hanchor).fixed id :=
    hextracted.mem_elsewhere_iff.mpr ⟨function, hne, hid⟩
  refine ⟨fun hfunction ↦ ⟨(hfinal.function hfunction).1, ?_, fun hne ↦ ⟨?_, fun hid ↦ ?_⟩⟩,
    hfinal.enlarges.slot⟩
  · exact (hfinal.signature htyped hfunction).trans (hgathered.signature htyped hfunction).symm
  · exact (hfinal.function hfunction).2.2 (LoopFrame.kept_of_fixed _
      (hfixed hne (hextracted.standsIn_body hfunction)))
  · exact hfinal.stmt (hfixed hne hid)

end CallbackRun.Leads

/-! ### Functions that were made before -/

/-- A function that is found was made for the iterator and an equivalent loop body. -/
theorem LoweringContext.findGenerated?_eq_some {context : LoweringContext} {program : Program}
    (hapart : program.BundlesApart) {iterator loopBody callee : FnId}
    (h : context.findGenerated? program iterator loopBody = some callee) :
    ∃ entry ∈ context.generated, entry.iterator = iterator ∧ entry.generated = callee ∧
      program.signature entry.loopBody = program.signature loopBody := by
  obtain ⟨entry, hentry, rfl⟩ := Option.map_eq_some_iff.mp h
  have hfound := List.find?_some hentry
  obtain ⟨hiterator, hformals⟩ := Bool.and_eq_true_iff.mp hfound
  exact ⟨entry, List.mem_of_find?_eq_some hentry, beq_iff_eq.mp hiterator, rfl,
    (Program.equivalentFormals_iff hapart).mp hformals⟩

theorem LoweringContext.findGenerated?_eq_none {context : LoweringContext} {program : Program}
    (hapart : program.BundlesApart) {iterator loopBody : FnId}
    (h : context.findGenerated? program iterator loopBody = none) {entry : GeneratedIterator}
    (hentry : entry ∈ context.generated) :
    ¬ (entry.iterator = iterator ∧
      program.signature entry.loopBody = program.signature loopBody) := by
  rintro ⟨hiterator, hsignature⟩
  have hnone := List.find?_eq_none.mp (Option.map_eq_none_iff.mp h) entry hentry
  exact hnone (Bool.and_eq_true_iff.mpr ⟨beq_iff_eq.mpr hiterator,
    (Program.equivalentFormals_iff hapart).mpr hsignature⟩)

/-! ### Sites -/

/-- What one loop was lowered to. -/
structure CallbackSite where
  block : StmtId
  /-- The symbol of the instance that the loop goes over. -/
  source : SymId
  iterator : FnId
  loopBody : FnId
  /-- The function that takes a bundle and calls the loop body. -/
  wrapper : FnId
  /-- The slot of the function table that the wrapper is in. -/
  slot : Nat
  /-- The copy of the iterator that is called. -/
  callee : FnId
  deriving DecidableEq, Repr

/-- Whether a loop of the first program was lowered to a site: it is the body of a new function,
which a new function in the table calls, and where it was, the copy of its iterator is called with
the slot of that function. -/
structure CallbackSite.Replaces (site : CallbackSite) (program final : Program) : Prop where
  header : ∃ index, (program.kind site.block).forHeader? = some (index, site.source)
  iterator : program.iteratorFnOf (program.symbolType site.source) = some site.iterator
  loopBody : ¬ program.HasFunction site.loopBody ∧ final.HasFunction site.loopBody
  moved : final.parent site.block = some (final.bodyOf site.loopBody)
  wrapper : ¬ program.HasFunction site.wrapper ∧ final.HasFunction site.wrapper
  wraps : ∃ id args, final.ActionIn (final.bodyOf site.wrapper) id
    (.evaluate (.call site.loopBody args))
  slot : final.table.get? site.slot = some site.wrapper
  calls : ∃ outer id argument, program.parent site.block = some outer ∧ ¬ program.Has id ∧
    final.ActionIn outer id (.evaluate (.call site.callee
      [.sym site.source, .int (Int64.ofNat site.slot), .sym argument]))

/-- The function that a site calls was made before for the same iterator and the same signature, or
there was none, and it was made and remembered. -/
inductive CallbackSite.Shares (site : CallbackSite) (state final : LoweringState) : Prop
  | found {entry : GeneratedIterator} (hentry : entry ∈ state.context.generated)
      (hiterator : entry.iterator = site.iterator) (hcallee : entry.generated = site.callee)
      (hsignature : final.program.signature entry.loopBody = final.program.signature site.loopBody)
      (hcontext : final.context = state.context)
  | made (hnone : ∀ entry ∈ state.context.generated, ¬ (entry.iterator = site.iterator ∧
        final.program.signature entry.loopBody = final.program.signature site.loopBody))
      (hcallee : ¬ state.program.HasFunction site.callee)
      (hgenerated : final.context.generated = state.context.generated ++
        [{ iterator := site.iterator, generated := site.callee, loopBody := site.loopBody }])
      (hcount : final.context.summary.generatedFunctions =
        state.context.summary.generatedFunctions + 1)

/-- What is known after a loop was lowered to a site. -/
structure CallbackSite.Follows (site : CallbackSite) (state final : LoweringState) : Prop where
  linked : final.program.WellLinked
  typed : final.program.WellTyped
  apart : final.program.BundlesApart
  replaces : site.Replaces state.program final.program
  callee : final.program.HasFunction site.callee
  shares : site.Shares state final
  signature : ∀ {function}, state.program.HasFunction function →
    final.program.HasFunction function ∧
      final.program.signature function = state.program.signature function
  slot : ∀ {slot function}, state.program.table.get? slot = some function →
    final.program.table.get? slot = some function

namespace CallbackRun

variable {run : CallbackRun} {block : StmtId} {state final : LoweringState}

/-- The site that the steps lead to. -/
def site (run : CallbackRun) (block : StmtId) : CallbackSite where
  block := block
  source := run.source
  iterator := run.iterator
  loopBody := run.loopBody
  wrapper := ⟨run.opened.functions.size + 1⟩
  slot := run.slot
  callee := run.callee

namespace Leads

/-- The loop body and its wrapper come after all functions that were there. -/
theorem new_function (hlinked : state.program.WellLinked) (h : run.Leads block state final)
    (hmakes : Makes run block state final) {function : FnId}
    (hmade : function = (run.site block).loopBody ∨ function = (run.site block).wrapper) :
    run.extracted.HasFunction function ∧ ¬ state.program.HasFunction function ∧
      function ≠ run.caller := by
  have hopened := hmakes.opened
  have hsize := hmakes.callback.typed.functions
  have hnew : run.extracted.HasFunction function ∧ ¬ state.program.HasFunction function := by
    rcases hmade with rfl | rfl
    · simp only [site, hmakes.callback.isNext, Program.HasFunction]
      omega
    · simp only [site, Program.HasFunction]
      omega
  refine ⟨hnew.1, hnew.2, ?_⟩
  rintro rfl
  exact hnew.2 (hlinked.hasFunction_of_standsIn (hlinked.enclosingFunction?_eq_some.mp h.owner))

theorem site_replaces (hlinked : state.program.WellLinked) (h : run.Leads block state final)
    (hmakes : Makes run block state final) :
    (run.site block).Replaces state.program final.program := by
  have hcallback := hmakes.callback
  obtain ⟨hanchor, hplaceholder, hcalled⟩ := h.anchor_stands hlinked hcallback.linked
  obtain ⟨hmoved, hslot⟩ := h.keeps_moved hcallback.linked hcallback.typed.typed hanchor
  obtain ⟨hbody, hbodyNew, hbodyNe⟩ := h.new_function hlinked hmakes (.inl rfl)
  obtain ⟨hwrapper, hwrapperNew, hwrapperNe⟩ := h.new_function hlinked hmakes (.inr rfl)
  obtain ⟨outer, houter, -⟩ := (h.anchored hlinked).anchor
  obtain ⟨call, hcall, hin⟩ := h.exists_call hcallback.linked (hplaceholder houter)
  obtain ⟨inner, args, hwraps⟩ := hcallback.wraps
  exact {
    header := ⟨run.index, h.header⟩
    iterator := h.iterator
    loopBody := ⟨hbodyNew, (hmoved hbody).1⟩
    moved := by
      obtain ⟨-, -, hkept⟩ := hmoved hbody
      obtain ⟨hbodyOf, hstmt⟩ := hkept hbodyNe
      have hstands : run.extracted.StandsIn (run.site block).loopBody block :=
        ⟨_, .single hcallback.moved, hcallback.linked.bodyOf_body hbody⟩
      have hparent : final.program.parent block = run.extracted.parent block :=
        congrArg Stmt.parent (hstmt hstands)
      exact hparent.trans (hcallback.moved.trans (congrArg some hbodyOf.symm))
    wrapper := ⟨hwrapperNew, (hmoved hwrapper).1⟩
    wraps := by
      obtain ⟨-, -, hkept⟩ := hmoved hwrapper
      obtain ⟨hbodyOf, hstmt⟩ := hkept hwrapperNe
      have hstands : run.extracted.StandsIn (run.site block).wrapper inner :=
        ⟨_, .single hwraps.parent, hcallback.linked.bodyOf_body hwrapper⟩
      exact ⟨inner, args, hbodyOf ▸ hwraps.of_stmt_eq (hstmt hstands)⟩
    slot := hslot hcallback.slot
    calls := ⟨outer, call, run.argument, houter, fun hid ↦ hcall (hcalled hid), hin⟩ }

/-- The function that is called is there, whether it was found or made. -/
theorem site_shares (hlinked : state.program.WellLinked) (htyped : state.program.WellTyped)
    (h : run.Leads block state final) (hmakes : Makes run block state final)
    (hentries : ∀ entry ∈ state.context.generated,
      state.program.HasFunction entry.generated ∧ state.program.HasFunction entry.loopBody) :
    final.program.HasFunction run.callee ∧ (run.site block).Shares state final := by
  have hcallback := hmakes.callback
  obtain ⟨hold, -⟩ := h.keeps_functions hlinked htyped
  obtain ⟨hanchor, -⟩ := h.anchor_stands hlinked hcallback.linked
  obtain ⟨hmoved, -⟩ := h.keeps_moved hcallback.linked hcallback.typed.typed hanchor
  obtain ⟨-, hbody, -⟩ := hmoved (h.new_function hlinked hmakes (.inl rfl)).1
  -- Signatures are the same when the function is chosen and at the end.
  have hentry {entry : GeneratedIterator} (hmem : entry ∈ state.context.generated) :
      final.program.signature entry.loopBody = run.gathered.signature entry.loopBody := by
    obtain ⟨-, -, hfinal, hmiddle⟩ := hold (hentries entry hmem).2
    exact hfinal.trans hmiddle.symm
  have hcontext := h.context
  cases hmakes.chooses with
  | found hfound _ hsame =>
    obtain ⟨entry, hmem, hiterator, hgenerated, hsignature⟩ :=
      LoweringContext.findGenerated?_eq_some hmakes.apart hfound
    refine ⟨hgenerated ▸ (hold (hentries entry hmem).1).1,
      .found hmem hiterator hgenerated ?_ (hcontext.trans hsame)⟩
    exact (hentry hmem).trans (hsignature.trans hbody.symm)
  | made hnone hcallee hfunctions hgenerated hcount =>
    rw [← hcontext] at hgenerated hcount
    refine ⟨?_, .made (fun entry hmem hsame ↦ ?_) ?_ hgenerated hcount⟩
    · rw [hcallee, Program.HasFunction, hmakes.functions, hfunctions]
      exact Nat.lt_succ_self _
    · exact LoweringContext.findGenerated?_eq_none hmakes.apart hnone hmem
        ⟨hsame.1, (hentry hmem).symm.trans (hsame.2.trans hbody)⟩
    · have hsize := hmakes.gathered
      simp only [site, hcallee, Program.HasFunction]
      omega

end Leads

end CallbackRun

/-- A loop that is lowered with success is lowered to a site. -/
theorem exists_site {block : StmtId} {state final : LoweringState}
    (hlinked : state.program.WellLinked) (htyped : state.program.WellTyped)
    (hapart : state.program.BundlesApart)
    (hentries : ∀ entry ∈ state.context.generated,
      state.program.HasFunction entry.generated ∧ state.program.HasFunction entry.loopBody)
    (hrun : lowerWithCallback block state = .ok () final) :
    ∃ site : CallbackSite, site.block = block ∧ site.Follows state final := by
  obtain ⟨run, h⟩ := exists_leads hrun
  have hmakes := h.makes hlinked htyped hapart
  obtain ⟨hreworks, -⟩ := (ensures_lowerWithCallback trivial (.everything hlinked)
    (trivial : Scope.everything.moved block)).of_eq_ok hrun
  obtain ⟨hcallee, hshares⟩ := h.site_shares hlinked htyped hmakes hentries
  obtain ⟨hold, hslot⟩ := h.keeps_functions hlinked htyped
  exact ⟨run.site block, rfl, {
    linked := hreworks.program.wellLinked hlinked
    typed := hmakes.typed
    apart := hmakes.finalApart
    replaces := h.site_replaces hlinked hmakes
    callee := hcallee
    shares := hshares
    signature := fun hfunction ↦ ⟨(hold hfunction).1, (hold hfunction).2.2.1⟩
    slot := hslot }⟩

end IteratorLowering
