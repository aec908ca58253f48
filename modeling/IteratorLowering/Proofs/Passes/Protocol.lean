import IteratorLowering.Lowering.Protocol
import IteratorLowering.Proofs.Forest.Enclosing
import IteratorLowering.Proofs.Passes.Zipping

/-!
# The iterator protocol within a scope

A loop that is driven through the protocol gets new blocks in front of it, at its head, at its
tail and behind it. Nothing that was there before is moved, apart from the declaration of the
index, which is an action; the loop keeps its place and its members (`ensures_lowerProtocol`).
-/

set_option autoImplicit false
set_option relaxedAutoImplicit false

namespace IteratorLowering

variable {scope : Scope} {program : Program} {block : StmtId} {owner : FnId}

/-! ### Calls -/

theorem stays_protocolFnFor {op : ProtocolOp} {type : TypeId} :
    Stays scope program (protocolFnFor owner op type) :=
  ensures_get_bind.mpr stays_require

theorem stays_emitProtocolCall {cursor : Cursor} {callee : FnId} {instanceSym : SymId}
    {result : Option SymId} (hfit : scope.Fits program) :
    Stays scope program (emitProtocolCall cursor callee instanceSym result) := by
  unfold emitProtocolCall
  cases result with
  | none => exact (Cursor.stays_evaluate hfit).ignore
  | some result =>
    refine ensures_get_bind.mpr ?_
    dsimp only
    split
    · exact (Cursor.stays_assign hfit).ignore
    · refine hfit.seq (Cursor.stays_fresh hfit) fun value _ hfit ↦ ?_
      refine hfit.seq (Cursor.stays_assign hfit) fun _ _ hfit ↦ ?_
      exact (Cursor.stays_assign hfit).ignore

theorem stays_emitDispatch {instanceSym : SymId} {result : Option SymId} {base : FnId}
    {cursor : Cursor} {targets : List (TypeId × FnId)} (hfit : scope.Fits program) :
    Stays scope program (emitDispatch instanceSym result base cursor targets) := by
  induction targets generalizing program cursor with
  | nil => exact stays_emitProtocolCall hfit
  | cons target rest ih =>
    unfold emitDispatch
    refine hfit.seq (Cursor.stays_fresh hfit) fun isSubtype _ hfit ↦ ?_
    refine hfit.seq (Cursor.stays_assign hfit) fun _ _ hfit ↦ ?_
    refine hfit.seq (Cursor.stays_openIfElse hfit) fun branches _ hfit ↦ ?_
    refine hfit.seq (Cursor.stays_fresh hfit) fun child _ hfit ↦ ?_
    refine hfit.seq (Cursor.stays_assign hfit) fun _ _ hfit ↦ ?_
    exact hfit.seq (stays_emitProtocolCall hfit) fun _ _ hfit ↦ ih hfit

/-- The block of a call can be inserted. -/
theorem ensures_protocolCall {op : ProtocolOp} {instanceSym : SymId} {result : Option SymId}
    (hfit : scope.Fits program) :
    Ensures (protocolCall owner op instanceSym result) program (program.Reworks scope)
      fun block final ↦ final.Loose scope block := by
  unfold protocolCall
  refine ensures_get_bind.mpr ?_
  refine Ensures.seq (hfit.mapM fun subtype _ state _ ↦ ?_) fun targets first h _ ↦ ?_
  · exact Ensures.seq stays_protocolFnFor fun _ _ _ _ ↦ .stay trivial
  refine Ensures.seq stays_protocolFnFor fun base second h' _ ↦ ?_
  have hfit' := (hfit.after h).after h'
  refine Ensures.seq (Program.ensures_newPlain hfit' .none) fun block third h'' hblock ↦ ?_
  have hloose : third.Loose scope block := ⟨hblock.2.1.has, hblock.2.1.owner, .inl hblock.1⟩
  refine Ensures.seq (.build (stays_emitDispatch (hfit'.after h''))) fun _ final hfinal _ ↦ .stay ?_
  exact hfinal.loose hfit.calm hloose

theorem stays_appendCall {op : ProtocolOp} {instanceSym : SymId} {result : Option SymId}
    (hfit : scope.Fits program) :
    Stays scope program (appendCall block owner op instanceSym result) :=
  Ensures.seq (ensures_protocolCall hfit) fun _ _ _ hcall ↦
    (Edit.ensures_insertAtTail hcall).stays.edit

theorem stays_emitLengthCheck {cursor : Cursor} {reference flag : SymId}
    (hfit : scope.Fits program) :
    Stays scope program (emitLengthCheck cursor reference flag) := by
  unfold emitLengthCheck
  refine hfit.seq (Cursor.stays_fresh hfit) fun mismatch _ hfit ↦ ?_
  refine hfit.seq (Cursor.stays_assign hfit) fun _ _ hfit ↦ ?_
  exact hfit.seq (Cursor.stays_openIf hfit) fun _ _ hfit ↦ (Cursor.stays_fail hfit).ignore

theorem stays_emitFlags {cursor : Cursor} {checked flags : List SymId} {reference more : SymId}
    (hfit : scope.Fits program) :
    Stays scope program (emitFlags cursor checked reference flags more) := by
  unfold emitFlags
  refine hfit.seq (hfit.forM fun flag _ _ hfit ↦ stays_emitLengthCheck hfit) fun _ _ hfit ↦ ?_
  cases flags with
  | nil => exact .stay trivial
  | cons first rest =>
    refine hfit.seq (Cursor.stays_assign hfit) fun _ _ hfit ↦ ?_
    exact hfit.forM fun flag _ _ hfit ↦ (Cursor.stays_assign hfit).ignore

/-! ### The parts of a driven loop -/

namespace DrivenLoop

variable {loop : DrivenLoop}

theorem stays_start (hfit : scope.Fits program) : Stays scope program (loop.start block) :=
  hfit.mapM fun component _ _ hfit ↦ by
    refine hfit.seq (stays_appendCall hfit) fun _ _ hfit ↦ ?_
    refine hfit.seq (stays_modifyGet (.addSymbol _)) fun flag _ hfit ↦ ?_
    refine hfit.seq Edit.stays_pushAction.edit fun _ _ hfit ↦ ?_
    exact hfit.seq (stays_appendCall hfit) fun _ _ _ ↦ .stay trivial

/-- The declaration of the index moves into the loop. -/
theorem stays_head (hfit : scope.Fits program)
    (hbody : (program.kind (program.bodyOf loop.owner)).isAction = false) :
    Stays scope program (loop.head block) := by
  unfold head
  refine ensures_get_bind.mpr ?_
  -- What is done after the declaration has moved, or where there is none.
  have hrest : ∀ middle : Program, scope.Fits middle → Stays scope middle (do
      loop.setup.indexDefs.forM fun index => do
        let _ ← Edit.push block (.action (.define index)) loop.span
      loop.setup.components.forM fun component => do
        appendCall block loop.owner .zip2 component.1 none
        appendCall block loop.owner .getValue component.1 (some component.2)
      loop.setup.indexStores.forM fun store => do
        let action : Action := .setField store.tuple (.index store.field) (.sym store.value)
        let _ ← Edit.push block (.action action) loop.span : Pass Unit) := by
    intro middle hfit
    refine hfit.seq (hfit.forM fun index _ _ _ ↦ Edit.stays_pushAction.edit.ignore)
      fun _ _ hfit ↦ ?_
    refine hfit.seq (hfit.forM fun component _ _ hfit ↦ ?_) fun _ _ hfit ↦ ?_
    · exact hfit.seq (stays_appendCall hfit) fun _ _ hfit ↦ stays_appendCall hfit
    · exact hfit.forM fun store _ _ _ ↦ Edit.stays_pushAction.edit.ignore
  split
  · rename_i declaration hfound
    have hloose : program.Loose scope declaration :=
      Program.loose_of_findDefinition hfit.wellLinked hbody hfound
    exact hfit.seq (Edit.ensures_insertAtTail hloose).stays.edit fun _ middle hfit ↦
      hrest middle hfit
  · exact hrest program hfit

theorem stays_tail {flags : List SymId} (hfit : scope.Fits program) :
    Stays scope program (loop.tail block flags) :=
  hfit.forM fun _ _ _ hfit ↦ hfit.seq (stays_appendCall hfit) fun _ _ hfit ↦ stays_appendCall hfit

theorem stays_finish (hfit : scope.Fits program) : Stays scope program (loop.finish block) :=
  hfit.forM fun _ _ _ hfit ↦ stays_appendCall hfit

end DrivenLoop

/-! ### The loop -/

/-- A loop that is driven through the protocol keeps its place and is no longer a for-loop. -/
theorem ensures_lowerProtocol {config : LoweringConfig} (hfit : scope.Fits program)
    (hmarked : scope.marked block) :
    Ensures (lowerProtocol config block) program (program.Reworks scope)
      fun _ final ↦ (final.kind block).isForLoop = false := by
  unfold lowerProtocol
  refine ensures_loopHeader_bind (.refl scope program) fun (index, iterator) hheader ↦ ?_
  refine ensures_get_bind.mpr ?_
  refine ensures_loopOwner_bind (.refl scope program) fun owner howner ↦ ?_
  have hcompound := StmtKind.isAction_of_forHeader hheader
  obtain ⟨hfunction, hbody⟩ := hfit.wellLinked.compound_body hcompound howner
  have hsofar := Program.Reworks.refl scope program
  refine hsofar.next stays_zipSetup fun setup _ hsofar _ ↦ ?_
  dsimp only
  split
  · exact ensures_throw_bind.mpr (.refl scope _)
  refine ensures_get_bind.mpr ?_
  -- The blocks in front of the loop and at its head.
  refine hsofar.next (Program.ensures_newPlain (hfit.after hsofar) .none)
    fun before _ hsofar hbefore ↦ ?_
  refine hsofar.next (DrivenLoop.stays_start (hfit.after hsofar)) fun flags _ hsofar _ ↦ ?_
  refine hsofar.next (stays_modifyGet (.addSymbol _)) fun more _ hsofar _ ↦ ?_
  refine hsofar.next Edit.stays_pushAction.edit fun _ _ hsofar _ ↦ ?_
  refine hsofar.next (.build (stays_emitFlags (hfit.after hsofar))) fun _ _ hsofar _ ↦ ?_
  refine hsofar.next (Edit.fits_spliceBefore (hfit.after hsofar) hbefore.1).edit
    fun _ _ hsofar _ ↦ ?_
  refine hsofar.next (Program.ensures_newPlain (hfit.after hsofar) .none)
    fun head _ hsofar hhead ↦ ?_
  refine hsofar.next (DrivenLoop.stays_head (hfit.after hsofar) ?_) fun _ _ hsofar _ ↦ ?_
  · rw [hsofar.body hfit.calm hfunction, hsofar.isAction (hfit.wellLinked.has_body hfunction),
      hbody]
  refine hsofar.next (Edit.fits_spliceAtHead (hfit.after hsofar) hhead.1).edit
    fun _ _ hsofar _ ↦ ?_
  -- The block at its tail.
  refine hsofar.next (Program.ensures_newPlain (hfit.after hsofar) .none)
    fun tail _ hsofar htail ↦ ?_
  refine hsofar.next (DrivenLoop.stays_tail (hfit.after hsofar)) fun _ _ hsofar _ ↦ ?_
  refine hsofar.next (.build (stays_emitFlags (hfit.after hsofar))) fun _ _ hsofar _ ↦ ?_
  refine hsofar.next (Edit.fits_spliceAtTail (hfit.after hsofar) htail.1).edit
    fun _ _ hsofar _ ↦ ?_
  -- The loop itself, and the block behind it.
  refine hsofar.next (ensures_unmark rfl hmarked) fun _ unmarked hsofar hunmarked ↦ ?_
  have hhas := hsofar.has (has_of_forHeader hheader)
  refine Stays.isForLoop_eq_false ?_ hhas hunmarked
  refine hsofar.next (Program.ensures_newPlain (hfit.after hsofar) .none)
    fun after _ hsofar hafter ↦ ?_
  refine hsofar.next (DrivenLoop.stays_finish (hfit.after hsofar)) fun _ _ hsofar _ ↦ ?_
  exact (Edit.fits_spliceAfter (hfit.after hsofar) hafter.1).edit

end IteratorLowering
