import IteratorLowering.Lowering.Protocol
import IteratorLowering.Proofs.Frame.Inlining

/-!
# Protocol calls keep a frame

Driving a loop through the iterator protocol puts blocks of calls in front of the loop, into it and
behind it. The only statement that is moved is a declaration of the index, wherever it stands in the
function around the loop. So a frame holds if it keeps neither the loop nor a declaration of the
index (`respects_lowerProtocol`).
-/

set_option autoImplicit false
set_option relaxedAutoImplicit false

namespace IteratorLowering

variable {frame : LoopFrame} {program : Program} {block : StmtId} {owner : FnId}

/-! ### Calls -/

theorem respects_protocolFnFor (h : frame.Holds program) {op : ProtocolOp} {type : TypeId} :
    frame.Respects program (protocolFnFor owner op type) :=
  ensures_get_bind.mpr (ensures_require h fun _ _ ↦ trivial)

theorem respects_emitProtocolCall (h : frame.Holds program) {cursor : Cursor} {callee : FnId}
    {source : SymId} {result : Option SymId} (hcursor : ¬ frame.fixed cursor.block) :
    frame.Respects program (emitProtocolCall cursor callee source result) := by
  unfold emitProtocolCall
  cases result with
  | none => exact LoopFrame.respects_ignore (Cursor.respects_action h hcursor)
  | some result =>
    refine ensures_get_bind.mpr ?_
    dsimp only
    split
    · exact LoopFrame.respects_ignore (Cursor.respects_action h hcursor)
    · refine Ensures.bind (Cursor.respects_fresh h hcursor) fun value _ h _ ↦ ?_
      refine Ensures.bind (Cursor.respects_action h hcursor) fun _ _ h _ ↦ ?_
      exact LoopFrame.respects_ignore (Cursor.respects_action h hcursor)

theorem respects_emitDispatch (h : frame.Holds program) {source : SymId} {result : Option SymId}
    {base : FnId} {cursor : Cursor} {targets : List (TypeId × FnId)}
    (hcursor : ¬ frame.fixed cursor.block) :
    frame.Respects program (emitDispatch source result base cursor targets) := by
  induction targets generalizing program cursor with
  | nil => exact respects_emitProtocolCall h hcursor
  | cons target rest ih =>
    unfold emitDispatch
    refine Ensures.bind (Cursor.respects_fresh h hcursor) fun isSubtype _ h _ ↦ ?_
    refine Ensures.bind (Cursor.respects_action h hcursor) fun _ _ h _ ↦ ?_
    refine Ensures.bind (Cursor.respects_openIfElse h hcursor) fun branches _ h hbranches ↦ ?_
    have hinner : ¬ frame.fixed (cursor.into branches.1).block := frame.not_fixed hbranches.1
    refine Ensures.bind (Cursor.respects_fresh h hinner) fun child _ h _ ↦ ?_
    refine Ensures.bind (Cursor.respects_action h hinner) fun _ _ h _ ↦ ?_
    exact Ensures.bind (respects_emitProtocolCall h hinner) fun _ _ h _ ↦
      ih h (frame.not_fixed hbranches.2)

theorem respects_protocolCall (h : frame.Holds program) {op : ProtocolOp} {source : SymId}
    {result : Option SymId} :
    Ensures (protocolCall owner op source result) program frame.Holds fun id _ ↦
      ¬ frame.kept id := by
  unfold protocolCall
  refine ensures_get_bind.mpr ?_
  refine Ensures.bind (LoopFrame.respects_mapM h fun subtype _ _ h ↦ ?_) fun targets _ h _ ↦ ?_
  · exact Ensures.bind (respects_protocolFnFor h) fun _ _ h _ ↦ .pure h trivial
  refine Ensures.bind (respects_protocolFnFor h) fun base _ h _ ↦ ?_
  refine Ensures.bind (LoopFrame.respects_newPlain h) fun call _ h hcall ↦ ?_
  exact Ensures.bind (.build (respects_emitDispatch h (frame.not_fixed hcall))) fun _ _ h _ ↦
    .pure h hcall

theorem respects_appendCall (h : frame.Holds program) (hblock : ¬ frame.fixed block)
    {op : ProtocolOp} {source : SymId} {result : Option SymId} :
    frame.Respects program (appendCall block owner op source result) :=
  Ensures.bind (respects_protocolCall h) fun _ _ h hcall ↦
    (Edit.respects_insertAtTail h hblock hcall).edit

theorem respects_emitLengthCheck (h : frame.Holds program) {cursor : Cursor}
    {reference flag : SymId} (hcursor : ¬ frame.fixed cursor.block) :
    frame.Respects program (emitLengthCheck cursor reference flag) := by
  unfold emitLengthCheck
  refine Ensures.bind (Cursor.respects_fresh h hcursor) fun mismatch _ h _ ↦ ?_
  refine Ensures.bind (Cursor.respects_action h hcursor) fun _ _ h _ ↦ ?_
  refine Ensures.bind (Cursor.respects_openIf h hcursor) fun thenBlock _ h hthen ↦ ?_
  have hinner : ¬ frame.fixed (cursor.into thenBlock).block := frame.not_fixed hthen
  exact LoopFrame.respects_ignore (Cursor.respects_action h hinner)

theorem respects_emitFlags (h : frame.Holds program) {cursor : Cursor} {checked flags : List SymId}
    {reference more : SymId} (hcursor : ¬ frame.fixed cursor.block) :
    frame.Respects program (emitFlags cursor checked reference flags more) := by
  unfold emitFlags
  refine Ensures.bind (.forM_keeping h fun flag _ _ h ↦ respects_emitLengthCheck h hcursor)
    fun _ _ h _ ↦ ?_
  cases flags with
  | nil => exact .pure h trivial
  | cons first rest =>
    refine Ensures.bind (Cursor.respects_action h hcursor) fun _ _ h _ ↦ ?_
    exact .forM_keeping h fun flag _ _ h ↦
      LoopFrame.respects_ignore (Cursor.respects_action h hcursor)

/-! ### The parts of a driven loop -/

namespace DrivenLoop

variable {loop : DrivenLoop}

theorem respects_start (h : frame.Holds program) (hblock : ¬ frame.fixed block) :
    frame.Respects program (loop.start block) := by
  refine LoopFrame.respects_mapM h fun component _ _ h ↦ ?_
  refine Ensures.bind (respects_appendCall h hblock) fun _ _ h _ ↦ ?_
  refine Ensures.bind (LoopFrame.respects_modifyGet (h.addSymbol _)) fun flag _ h _ ↦ ?_
  refine Ensures.bind (Edit.respects_pushAction h hblock).edit fun _ _ h _ ↦ ?_
  exact Ensures.bind (respects_appendCall h hblock) fun _ _ h _ ↦ .pure h trivial

/-- The declaration of the index moves into the loop. -/
theorem respects_head (h : frame.Holds program) (hblock : ¬ frame.fixed block)
    (howner : loop.owner = frame.home) (hhome : frame.start.HasFunction frame.home)
    (hindex : frame.Frees loop.index) : frame.Respects program (loop.head block) := by
  unfold head
  refine ensures_get_bind.mpr ?_
  -- What is done after the declaration has moved, or where there is none.
  have hrest : ∀ middle : Program, frame.Holds middle → frame.Respects middle (do
      loop.setup.indexDefs.forM fun index => do
        let _ ← Edit.push block (.action (.define index)) loop.span
      loop.setup.components.forM fun component => do
        appendCall block loop.owner .zip2 component.1 none
        appendCall block loop.owner .getValue component.1 (some component.2)
      loop.setup.indexStores.forM fun store => do
        let action : Action := .setField store.tuple (.index store.field) (.sym store.value)
        let _ ← Edit.push block (.action action) loop.span : Pass Unit) := by
    intro middle h
    refine Ensures.bind (.forM_keeping h fun index _ _ h ↦
      LoopFrame.respects_ignore (Edit.respects_pushAction h hblock).edit) fun _ _ h _ ↦ ?_
    refine Ensures.bind (.forM_keeping h fun component _ _ h ↦ ?_) fun _ _ h _ ↦ ?_
    · exact Ensures.bind (respects_appendCall h hblock) fun _ _ h _ ↦ respects_appendCall h hblock
    · exact .forM_keeping h fun store _ _ h ↦
        LoopFrame.respects_ignore (Edit.respects_pushAction h hblock).edit
  split
  · rename_i declaration hfound
    rw [howner] at hfound
    have hdeclaration := h.not_kept_of_findDefinition hhome hindex hfound
    exact Ensures.bind (Edit.respects_insertAtTail h hblock hdeclaration).edit fun _ middle h _ ↦
      hrest middle h
  · exact hrest program h

theorem respects_tail (h : frame.Holds program) (hblock : ¬ frame.fixed block)
    {flags : List SymId} : frame.Respects program (loop.tail block flags) :=
  .forM_keeping h fun _ _ _ h ↦ Ensures.bind (respects_appendCall h hblock) fun _ _ h _ ↦
    respects_appendCall h hblock

theorem respects_finish (h : frame.Holds program) (hblock : ¬ frame.fixed block) :
    frame.Respects program (loop.finish block) :=
  .forM_keeping h fun _ _ _ h ↦ respects_appendCall h hblock

end DrivenLoop

/-! ### The loop -/

/-- Driving a loop through the protocol touches nothing around the loop but declarations of its
index. -/
theorem respects_lowerProtocol (h : frame.Holds program) (haround : frame.Surrounds program block)
    {config : LoweringConfig} : frame.Respects program (lowerProtocol config block) := by
  have hfree := frame.not_fixed haround.loop
  unfold lowerProtocol
  refine ensures_loopHeader_bind h fun (index, iterator) hheader ↦ ?_
  refine ensures_get_bind.mpr ?_
  refine ensures_loopOwner_bind h fun owner henclosing ↦ ?_
  obtain rfl := haround.owner henclosing
  refine Ensures.bind (respects_zipSetup h hfree) fun setup _ h _ ↦ ?_
  dsimp only
  split
  · exact ensures_throw_bind.mpr h
  refine ensures_get_bind.mpr ?_
  -- The blocks in front of the loop and at its head.
  refine Ensures.bind (LoopFrame.respects_newPlain h) fun before _ h hbefore ↦ ?_
  have hinto := frame.not_fixed hbefore
  refine Ensures.bind (DrivenLoop.respects_start h hinto) fun flags _ h _ ↦ ?_
  refine Ensures.bind (LoopFrame.respects_modifyGet (h.addSymbol _)) fun more _ h _ ↦ ?_
  refine Ensures.bind (Edit.respects_pushAction h hinto).edit fun _ _ h _ ↦ ?_
  refine Ensures.bind (.build (respects_emitFlags h hinto)) fun _ _ h _ ↦ ?_
  refine Ensures.bind (Edit.respects_spliceBefore h hbefore hfree).edit fun _ _ h _ ↦ ?_
  refine Ensures.bind (LoopFrame.respects_newPlain h) fun head _ h hhead ↦ ?_
  refine Ensures.bind (DrivenLoop.respects_head h (frame.not_fixed hhead) rfl haround.home
    (haround.index hheader)) fun _ _ h _ ↦ ?_
  refine Ensures.bind (Edit.respects_spliceAtHead h hhead hfree).edit fun _ _ h _ ↦ ?_
  -- The block at its tail.
  refine Ensures.bind (LoopFrame.respects_newPlain h) fun tail _ h htail ↦ ?_
  have hinto := frame.not_fixed htail
  refine Ensures.bind (DrivenLoop.respects_tail h hinto) fun _ _ h _ ↦ ?_
  refine Ensures.bind (.build (respects_emitFlags h hinto)) fun _ _ h _ ↦ ?_
  refine Ensures.bind (Edit.respects_spliceAtTail h htail hfree).edit fun _ _ h _ ↦ ?_
  -- The loop itself, and the block behind it.
  refine Ensures.bind (LoopFrame.respects_modify (h.setBlockInfo haround.loop _)) fun _ _ h _ ↦ ?_
  refine Ensures.bind (LoopFrame.respects_newPlain h) fun after _ h hafter ↦ ?_
  refine Ensures.bind (DrivenLoop.respects_finish h (frame.not_fixed hafter)) fun _ _ h _ ↦ ?_
  exact (Edit.respects_spliceAfter h hafter hfree).edit

end IteratorLowering
