import IteratorLowering.Lowering.Strategy
import IteratorLowering.Proofs.Frame.Edits
import IteratorLowering.Proofs.Passes.Inlining

/-!
# Copied iterators keep a frame

Inlining a loop and fusing a zippered loop put copies of iterator bodies in the place of the loop or
inside it. All substitutions are made in the copies, and what is moved comes from a copy or is new,
so a frame holds as long as the loop itself is not kept (`respects_inlineLoop`, `respects_zipLoop`).

One kept statement may change. The yield of an iterator whose body is nothing but that yield comes
to stand right after the statement before the loop, and if that statement assigns the yielded local,
it is made to assign the index of the loop instead (`LoopFrame.Holds.retarget`).
-/

set_option autoImplicit false
set_option relaxedAutoImplicit false

namespace IteratorLowering

variable {frame : LoopFrame} {program : Program} {block : StmtId} {owner : FnId}

theorem respects_newAction (h : frame.Holds program) {action : Action} {span : Span} :
    Ensures (newAction action span) program frame.Holds fun id _ ↦ ¬ frame.kept id :=
  LoopFrame.respects_newStmt h nofun

/-! ### The formals of a copied iterator -/

theorem respects_rebindFormal (h : frame.Holds program) {cursor : Cursor} {root : StmtId}
    {source formal : SymId} {ordinal : Nat} (hcursor : ¬ frame.fixed cursor.block)
    (hroot : ¬ frame.kept root) :
    frame.Respects program (rebindFormal cursor root source formal ordinal) := by
  unfold rebindFormal
  refine ensures_get_bind.mpr ?_
  split
  · exact .pure h trivial
  · refine Ensures.bind (Cursor.respects_fresh h hcursor) fun copy _ h _ ↦ ?_
    refine Ensures.bind (LoopFrame.respects_modify (h.substitute hroot _ _)) fun _ _ h _ ↦ ?_
    exact LoopFrame.respects_ignore (Cursor.respects_action h hcursor)

theorem respects_rebindFormals (h : frame.Holds program) {root : StmtId} {iterator : FnId}
    {source : SymId} (hroot : ¬ frame.kept root) :
    frame.Respects program (rebindFormals root iterator source owner) := by
  unfold rebindFormals
  refine ensures_get_bind.mpr ?_
  refine Ensures.bind (LoopFrame.respects_newPlain h) fun scratch _ h hscratch ↦ ?_
  refine Ensures.bind (.forM_keeping h fun item _ _ h ↦ ?_) fun _ _ h _ ↦ ?_
  · exact respects_rebindFormal h (frame.not_fixed hscratch) hroot
  · exact (Edit.respects_spliceAtHead h hscratch (frame.not_fixed hroot)).edit

/-! ### Inlining -/

theorem Program.exists_of_prevSibling {id previous : StmtId}
    (h : program.prevSibling? id = some previous) :
    ∃ outer, program.parent id = some outer ∧ previous ∈ (program.kind outer).children := by
  unfold prevSibling? at h
  split at h
  · rename_i outer position hposition
    obtain ⟨_, _, _, _, _, hparent⟩ := exists_of_positionInParent hposition
    exact ⟨outer, hparent, mem_children_of_mem_blockBody (List.mem_of_getElem? h)⟩
  · cases h
  · cases h

theorem Program.prevSibling_of_reusableMove {root yieldStmt move : StmtId} {value : Operand}
    (h : program.reusableMove? root yieldStmt value = some move) :
    program.prevSibling? yieldStmt = some move := by
  unfold reusableMove? at h
  obtain ⟨symbol, -, h⟩ := Option.bind_eq_some_iff.mp h
  obtain ⟨-, -, h⟩ := Option.bind_eq_some_iff.mp h
  obtain ⟨previous, hprevious, h⟩ := Option.bind_eq_some_iff.mp h
  obtain ⟨-, -, h⟩ := Option.bind_eq_some_iff.mp h
  obtain ⟨-, -, hmove⟩ := Option.bind_eq_some_iff.mp h
  exact hprevious.trans hmove

namespace LoopFrame.Holds

/-- An assignment that is kept may write to another local, as long as it is not fixed. -/
theorem retarget (h : frame.Holds program) {id : StmtId} (hid : ¬ frame.fixed id)
    (target : SymId) : frame.Holds (program.retarget id target) := by
  unfold Program.retarget
  split
  · rename_i old value hkind
    exact h.setKind hid (fun _ ↦ hkind ▸ .assign old target value) (hkind ▸ rfl)
  · exact h

/-- The move before a yield may stand in a kept block, but not in a fixed one. -/
theorem not_fixed_of_reusableMove (h : frame.Holds program) {root yieldStmt move : StmtId}
    {value : Operand} (hyield : ¬ frame.kept yieldStmt)
    (hmove : program.reusableMove? root yieldStmt value = some move) : ¬ frame.fixed move := by
  obtain ⟨outer, hparent, hchild⟩ :=
    Program.exists_of_prevSibling (Program.prevSibling_of_reusableMove hmove)
  exact h.not_fixed_of_child (h.not_fixed_of_parent (frame.not_fixed hyield) hparent) hchild

end LoopFrame.Holds

theorem respects_inlineYield (h : frame.Holds program) {loop : InlinedLoop} {yieldStmt : StmtId}
    (hyield : ¬ frame.kept yieldStmt) : frame.Respects program (inlineYield loop yieldStmt) := by
  unfold inlineYield
  refine ensures_get_bind.mpr ?_
  split
  · rename_i value hkind
    refine Ensures.bind (LoopFrame.respects_modifyGet (h.addSymbol _)) fun index _ h _ ↦ ?_
    refine Ensures.bind (.build (Program.respects_copyTree h)) fun copied _ h hbody ↦ ?_
    refine Ensures.bind (.build (respects_newAction h)) fun declaration _ h hdeclaration ↦ ?_
    refine ensures_get_bind.mpr ?_
    dsimp only
    split
    · rename_i move hmove
      have hfree := h.not_fixed_of_reusableMove hyield hmove
      refine Ensures.bind (LoopFrame.respects_modify (h.retarget hfree index)) fun _ _ h _ ↦ ?_
      refine Ensures.bind (Edit.respects_insertBefore h hfree hdeclaration).edit fun _ _ h _ ↦ ?_
      exact (Edit.respects_replace h hyield hbody).edit
    · have hhead := frame.not_fixed hbody
      refine Ensures.bind (.build (respects_newAction h)) fun move _ h hmove ↦ ?_
      refine Ensures.bind (Edit.respects_insertAtHead h hhead hmove).edit fun _ _ h _ ↦ ?_
      refine Ensures.bind (Edit.respects_insertAtHead h hhead hdeclaration).edit fun _ _ h _ ↦ ?_
      exact (Edit.respects_replace h hyield hbody).edit
  · exact .pure h trivial

/-- Inlining a loop touches no statement of the iterator, and none around the loop. -/
theorem respects_inlineLoop (h : frame.Holds program) (hblock : ¬ frame.kept block) :
    frame.Respects program (inlineLoop block) := by
  unfold inlineLoop
  refine ensures_loopHeader_bind h fun (index, source) _ ↦ ?_
  refine ensures_get_bind.mpr ?_
  refine ensures_instanceIterator_bind h fun iterator _ ↦ ?_
  refine ensures_loopOwner_bind h fun owner _ ↦ ?_
  refine Ensures.bind (LoopFrame.respects_modify (h.setBlockInfo hblock none)) fun _ _ h _ ↦ ?_
  refine ensures_get_bind.mpr ?_
  refine Ensures.bind (.build (Program.respects_copyTree h)) fun (copy, _) _ h hcopy ↦ ?_
  refine Ensures.bind (Edit.respects_replace h hblock hcopy).edit fun _ placed h _ ↦ ?_
  refine ensures_get_bind.mpr ?_
  -- The yields and the returns were found in the copy, before anything was done to it.
  have hinside : ∀ {id}, id ∈ placed.walk copy → ¬ frame.kept id := h.not_kept_of_mem_walk hcopy
  refine Ensures.bind (.forM_keeping h fun id hid _ h ↦ ?_) fun _ _ h _ ↦ ?_
  · exact respects_inlineYield h (hinside (List.mem_filter.mp hid).1)
  refine Ensures.bind (.forM_keeping h fun id hid _ h ↦ ?_) fun _ _ h _ ↦ ?_
  · exact (Edit.respects_remove h (hinside (List.mem_filter.mp hid).1)).edit
  refine Ensures.bind (respects_rebindFormals h hcopy) fun _ _ h _ ↦ ?_
  exact LoopFrame.respects_modify (h.claimLocals owner copy)

/-! ### Opening the header of a zippered loop -/

theorem respects_emitBefore (h : frame.Holds program) {anchor : StmtId} {action : Action}
    {span : Span} (hanchor : ¬ frame.fixed anchor) :
    frame.Respects program (emitBefore anchor action span) :=
  Ensures.bind (.build (respects_newAction h)) fun _ _ h hid ↦
    (Edit.respects_insertBefore h hanchor hid).edit

theorem respects_readComponent (h : frame.Holds program) (hblock : ¬ frame.fixed block)
    {tuple : SymId} {position : Nat} {type : TypeId} :
    frame.Respects program (readComponent block owner tuple position type) := by
  unfold readComponent
  refine ensures_get_bind.mpr ?_
  refine Ensures.bind (LoopFrame.respects_modifyGet (h.addSymbol _)) fun component _ h _ ↦ ?_
  refine Ensures.bind (respects_emitBefore h hblock) fun _ _ h _ ↦ ?_
  exact Ensures.bind (respects_emitBefore h hblock) fun _ _ h _ ↦ .pure h trivial

theorem respects_zipSetupTo (h : frame.Holds program) (hblock : ¬ frame.fixed block) {depth : Nat}
    {index iterator : SymId} :
    frame.Respects program (zipSetupTo block owner depth index iterator) := by
  induction depth generalizing program index iterator with
  | zero => exact .pure h trivial
  | succ depth ih =>
    unfold zipSetupTo
    refine ensures_get_bind.mpr ?_
    split
    · exact .pure h trivial
    · dsimp only
      split
      · exact ensures_throw_bind.mpr h
      · refine .foldlM_keeping h fun item _ setup _ h ↦ ?_
        refine Ensures.bind (respects_readComponent h hblock) fun component _ h _ ↦ ?_
        refine Ensures.bind (LoopFrame.respects_modifyGet (h.addSymbol _))
          fun componentIndex _ h _ ↦ ?_
        exact Ensures.bind (ih h) fun _ _ h _ ↦ .pure h trivial

theorem respects_zipSetup (h : frame.Holds program) (hblock : ¬ frame.fixed block)
    {index iterator : SymId} : frame.Respects program (zipSetup block index iterator owner) :=
  ensures_get_bind.mpr (respects_zipSetupTo h hblock)

/-! ### Fusing -/

theorem respects_placeMembers (h : frame.Holds program) {loop : FusedLoop} {index : SymId}
    {afterYield : Bool} {members : List StmtId} (hsplit : ¬ frame.fixed loop.split)
    (hmembers : ∀ member ∈ members, ¬ frame.kept member) :
    Ensures (placeMembers loop index afterYield members) program frame.Holds
      fun parts _ ↦ ∀ id ∈ parts.1 ++ parts.2, ¬ frame.kept id := by
  induction members generalizing program afterYield with
  | nil => exact .pure h nofun
  | cons id rest ih =>
    have hid := hmembers id List.mem_cons_self
    have hrest : ∀ member ∈ rest, ¬ frame.kept member := fun member hmember ↦
      hmembers member (List.mem_cons_of_mem _ hmember)
    unfold placeMembers
    refine ensures_get_bind.mpr ?_
    split
    · refine Ensures.bind (.build (respects_newAction h)) fun move _ h hmove ↦ ?_
      refine Ensures.bind (ih h hrest) fun parts _ h hparts ↦ .pure h fun other hother ↦ ?_
      rcases List.mem_cons.mp hother with rfl | hother
      · exact hmove
      · exact hparts other hother
    · exact ih h hrest
    · dsimp only
      split
      · refine Ensures.bind (ih h hrest) fun parts _ h hparts ↦ .pure h fun other hother ↦ ?_
        rcases List.mem_append.mp hother with hother | hother
        · exact hparts other (List.mem_append_left _ hother)
        · rcases List.mem_cons.mp hother with rfl | hother
          · exact hid
          · exact hparts other (List.mem_append_right _ hother)
      · exact Ensures.bind (Edit.respects_insertBefore h hsplit hid).edit fun _ _ h _ ↦ ih h hrest

theorem respects_fuseComponent (h : frame.Holds program) {loop : FusedLoop}
    {component : SymId × SymId} (hsplit : ¬ frame.fixed loop.split) :
    Ensures (fuseComponent loop component) program frame.Holds
      fun parts _ ↦ ∀ id ∈ parts.1 ++ parts.2, ¬ frame.kept id := by
  unfold fuseComponent
  refine ensures_instanceIterator_bind h fun iterator _ ↦ ?_
  refine ensures_get_bind.mpr ?_
  refine Ensures.bind (.build (Program.respects_copyTree h)) fun (copy, _) _ h hcopy ↦ ?_
  refine Ensures.bind (respects_rebindFormals h hcopy) fun _ _ h _ ↦ ?_
  refine Ensures.bind (Edit.respects_takeBody h hcopy).edit fun members _ h hmembers ↦ ?_
  exact respects_placeMembers h hsplit hmembers

theorem respects_fuseLoop (h : frame.Holds program) (hblock : ¬ frame.kept block)
    {setup : ZipSetup} : frame.Respects program (fuseLoop block setup owner) := by
  have hfree := frame.not_fixed hblock
  unfold fuseLoop
  refine ensures_get_bind.mpr ?_
  refine Ensures.bind (LoopFrame.respects_modify (h.setBlockInfo hblock none)) fun _ _ h _ ↦ ?_
  refine Ensures.bind (.build (respects_newAction h)) fun split _ h hsplit ↦ ?_
  refine Ensures.bind (Edit.respects_insertAtHead h hfree hsplit).edit fun _ _ h _ ↦ ?_
  refine Ensures.bind (.mapM_keeping h fun component _ _ h ↦
    respects_fuseComponent h (frame.not_fixed hsplit)) fun parts _ h hparts ↦ ?_
  refine Ensures.bind (.mapM_keeping h fun store _ _ h ↦ .build (respects_newAction h))
    fun stores _ h hstores ↦ ?_
  refine Ensures.bind (Edit.respects_insertChain h (frame.not_fixed hsplit) fun id hid ↦ ?_).edit
    fun _ _ h _ ↦ ?_
  · rcases List.mem_append.mp hid with hid | hid
    · obtain ⟨part, hpart, hid⟩ := List.mem_flatMap.mp hid
      exact hparts part hpart id (List.mem_append_left _ hid)
    · exact hstores id hid
  refine Ensures.bind (.forM_keeping h fun id hid _ h ↦ ?_) fun _ _ h _ ↦ ?_
  · obtain ⟨part, hpart, hid⟩ := List.mem_flatMap.mp hid
    exact (Edit.respects_insertAtTail h hfree
      (hparts part hpart id (List.mem_append_right _ hid))).edit
  refine Ensures.bind (.forM_keeping h fun index _ _ h ↦ ?_) fun _ _ h _ ↦ ?_
  · exact Ensures.bind (.build (respects_newAction h)) fun _ _ h hid ↦
      (Edit.respects_insertAtHead h hfree hid).edit
  refine Ensures.bind (Edit.respects_remove h hsplit).edit fun _ _ h _ ↦ ?_
  exact LoopFrame.respects_modify (h.claimLocals owner block)

/-- Fusing a zippered loop touches no statement of its iterators, and none around the loop. -/
theorem respects_zipLoop (h : frame.Holds program) (hblock : ¬ frame.kept block) :
    frame.Respects program (zipLoop block) := by
  unfold zipLoop
  refine ensures_loopHeader_bind h fun (index, iterator) _ ↦ ?_
  refine ensures_loopOwner_bind h fun owner _ ↦ ?_
  exact Ensures.bind (respects_zipSetup h (frame.not_fixed hblock)) fun setup _ h _ ↦
    respects_fuseLoop h hblock

end IteratorLowering
