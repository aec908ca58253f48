import IteratorLowering.Lowering.Inline
import IteratorLowering.Proofs.Forest.Emitting

/-!
# Inlining within a scope

Inlining a loop moves nothing but the loop itself: what it inserts are copies, and what it
removes from them are actions (`stays_inlineLoop`). The copy may become the body of a function,
where the loop was one.
-/

set_option autoImplicit false
set_option relaxedAutoImplicit false

namespace IteratorLowering

variable {scope : Scope} {program : Program}

/-! ### What every strategy needs of a loop -/

theorem ensures_loopHeader {block : StmtId} :
    Ensures (loopHeader block) program (program.Reworks scope) fun header _ ↦
      (program.kind block).forHeader? = some header :=
  ensures_get_bind.mpr (ensures_require (.refl scope program) fun _ h ↦ h)

theorem ensures_loopOwner {block : StmtId} :
    Ensures (loopOwner block) program (program.Reworks scope) fun owner _ ↦
      program.enclosingFunction? block = some owner :=
  ensures_get_bind.mpr (ensures_require (.refl scope program) fun _ h ↦ h)

theorem ensures_instanceIterator {source : SymId} {absent : Fault} {span : Span} :
    Ensures (instanceIterator source absent span) program (program.Reworks scope)
      fun iterator _ ↦ program.iteratorFnOf (program.symbolType source) = some iterator :=
  ensures_get_bind.mpr (ensures_require (.refl scope program) fun _ h ↦ h)

section

variable {α : Type} {holds : Program → Prop} {result : α → Program → Prop} {block : StmtId}

theorem ensures_loopHeader_bind {next : SymId × SymId → Pass α} (hholds : holds program)
    (hnext : ∀ header, (program.kind block).forHeader? = some header →
      Ensures (next header) program holds result) :
    Ensures (loopHeader block >>= next) program holds result := by
  unfold loopHeader
  rw [bind_assoc, ensures_get_bind]
  exact ensures_require_bind hholds hnext

theorem ensures_loopOwner_bind {next : FnId → Pass α} (hholds : holds program)
    (hnext : ∀ owner, program.enclosingFunction? block = some owner →
      Ensures (next owner) program holds result) :
    Ensures (loopOwner block >>= next) program holds result := by
  unfold loopOwner
  rw [bind_assoc, ensures_get_bind]
  exact ensures_require_bind hholds hnext

theorem ensures_instanceIterator_bind {source : SymId} {absent : Fault} {span : Span}
    {next : FnId → Pass α} (hholds : holds program)
    (hnext : ∀ iterator, program.iteratorFnOf (program.symbolType source) = some iterator →
      Ensures (next iterator) program holds result) :
    Ensures (instanceIterator source absent span >>= next) program holds result := by
  unfold instanceIterator
  rw [bind_assoc, ensures_get_bind]
  exact ensures_require_bind hholds hnext

end

theorem ensures_newAction_kind {action : Action} {span : Span} :
    Ensures (newAction action span) program (program.Reworks scope) fun id final ↦
      final.Loose scope id ∧ (final.kind id).isAction = true := by
  have hmade := @Edit.ensures_newStmt scope program Build _ _ _ (.action action) span nofun .nil
    nofun (.inl rfl)
  exact hmade.mono (fun _ h ↦ h) fun _ _ _ h ↦
    ⟨⟨h.1.has, h.1.owner, h.2.1⟩, by rw [h.2.2.2]; rfl⟩

theorem ensures_newAction {action : Action} {span : Span} :
    Ensures (newAction action span) program (program.Reworks scope) fun id final ↦
      final.Loose scope id :=
  ensures_newAction_kind.mono (fun _ h ↦ h) fun _ _ _ h ↦ h.1

theorem stays_rebindFormal {cursor : Cursor} {root : StmtId} {source formal : SymId}
    {ordinal : Nat} (hfit : scope.Fits program) (hroot : scope.Renames root) :
    Stays scope program (rebindFormal cursor root source formal ordinal) := by
  unfold rebindFormal
  refine ensures_get_bind.mpr ?_
  split
  · exact .stay trivial
  · refine hfit.seq (Cursor.stays_fresh hfit) fun copy _ hfit ↦ ?_
    refine hfit.seq (stays_modify (hfit.substitute hroot)) fun _ _ hfit ↦ ?_
    exact (Cursor.stays_assign hfit).ignore

theorem stays_rebindFormals {root : StmtId} {iterator owner : FnId} {source : SymId}
    (hfit : scope.Fits program) (hroot : scope.Renames root) :
    Stays scope program (rebindFormals root iterator source owner) := by
  unfold rebindFormals
  refine ensures_get_bind.mpr ?_
  refine (Program.ensures_newPlain hfit .none).seq fun scratch middle h hscratch ↦ ?_
  refine Ensures.seq (.forM fun item _ state hstate ↦ ?_) fun _ final h' _ ↦ ?_
  · exact stays_rebindFormal ((hfit.after h).after hstate) hroot
  · have hfit' := (hfit.after h).after h'
    exact (Edit.fits_spliceAtHead hfit' hscratch.1).edit

/-! ### Inlining -/

theorem Program.Reworks.retarget (id : StmtId) (target : SymId) :
    program.Reworks scope (program.retarget id target) := by
  unfold Program.retarget
  split
  · rename_i hkind
    exact .setKind id (hkind ▸ rfl) (hkind ▸ rfl) (.inl (hkind ▸ rfl))
  · exact .refl scope program

theorem has_of_yield {id : StmtId} {value : Operand}
    (h : program.kind id = .action (.yield value)) : program.Has id := by
  by_contra hout
  rw [Program.kind, Program.stmt_of_not_has hout] at h
  cases h

theorem stays_inlineYield {loop : InlinedLoop} {yieldStmt : StmtId} (hlooping : scope.looping)
    (hfit : scope.Fits program) : Stays scope.rooted program (inlineYield loop yieldStmt) := by
  unfold inlineYield
  refine ensures_get_bind.mpr ?_
  split
  · rename_i value hkind
    refine Ensures.seq (Ensures.rooted (stays_modifyGet (.addSymbol _))) fun index first _ h ↦ ?_
    have hfirst := hfit.after h.1
    refine Ensures.seq (Ensures.rooted (.build (Program.ensures_copyTree hlooping hfirst)))
      fun copied second _ h' ↦ ?_
    refine Ensures.seq (Ensures.rooted (.build ensures_newAction)) fun declaration third _ h'' ↦ ?_
    have hyield : program.Has yieldStmt := has_of_yield hkind
    have hbody : third.Loose scope copied.1 :=
      h''.1.loose hfit.calm ⟨h'.2.detached.has, h'.2.detached.owner, .inl (hfirst.new h'.2.new)⟩
    have hthird := (h.1.trans h'.1).trans h''.1
    -- Whatever happens before it, the copy takes the place of the yield.
    have hreplace : ∀ final, third.Reworks scope final →
        Stays scope.rooted final (liftM (Edit.replace yieldStmt copied.1) : Pass Unit) := by
      intro final hfinal
      have hall := hthird.trans hfinal
      have haction : program.Movable scope yieldStmt := .inr (by rw [hkind]; rfl)
      exact (Edit.ensures_replace (hall.wellLinked hfit.wellLinked)
        (hfinal.loose hfit.calm hbody).rooted (.inl (hall.has hyield))
        (hall.movable hyield haction) (.inl trivial)).stays.edit
    refine ensures_get_bind.mpr ?_
    dsimp only
    split
    · rename_i move _
      refine Ensures.seq (Ensures.rooted (stays_modify (.retarget move index)))
        fun _ fourth _ hfourth ↦ ?_
      refine Ensures.seq (Ensures.rooted (Edit.ensures_insertBefore
        (hfourth.1.loose hfit.calm h''.2)).edit) fun _ fifth _ hfifth ↦ ?_
      exact hreplace fifth (hfourth.1.trans hfifth.1)
    · refine Ensures.seq (Ensures.rooted (.build ensures_newAction)) fun move fourth _ hfourth ↦ ?_
      refine Ensures.seq (Ensures.rooted (Edit.ensures_insertAtHead hfourth.2).edit)
        fun _ fifth _ hfifth ↦ ?_
      have hbefore := hfourth.1.trans hfifth.1
      refine Ensures.seq (Ensures.rooted (Edit.ensures_insertAtHead
        (hbefore.loose hfit.calm h''.2)).edit) fun _ sixth _ hsixth ↦ ?_
      exact hreplace sixth (hbefore.trans hsixth.1)
  · exact .stay trivial

theorem has_of_isReturn {id : StmtId} (h : (program.kind id).isReturn = true) :
    program.Has id := by
  by_contra hout
  rw [Program.kind, Program.stmt_of_not_has hout] at h
  cases h

theorem StmtKind.isAction_of_isReturn {kind : StmtKind} (h : kind.isReturn = true) :
    kind.isAction = true := by
  cases kind with
  | action => rfl
  | branch | block => cases h

theorem StmtKind.isAction_of_forHeader {kind : StmtKind} {header : SymId × SymId}
    (h : kind.forHeader? = some header) : kind.isAction = false := by
  cases kind with
  | action => cases h
  | branch | block => rfl

theorem has_of_forHeader {id : StmtId} {header : SymId × SymId}
    (h : (program.kind id).forHeader? = some header) : program.Has id := by
  by_contra hout
  rw [Program.kind, Program.stmt_of_not_has hout] at h
  cases h

/-- What is done with the copy of an iterator's body once it stands in the place of the loop. -/
theorem ensures_inlineRest {loop : InlinedLoop} {iterator : FnId} {source : SymId}
    (hlooping : scope.looping) (hfit : scope.Fits program) (hcopy : scope.moved loop.copy) :
    Stays scope.rooted program (do
      let program ← get
      let returns := (program.walk loop.copy).filter fun id ↦ (program.kind id).isReturn
      (program.yieldsIn loop.copy).forM (inlineYield loop)
      returns.forM fun id ↦ (Edit.remove id : Edit Unit)
      rebindFormals loop.copy iterator source loop.owner
      modify fun program ↦ program.claimLocals loop.owner loop.copy : Pass Unit) := by
  refine ensures_get_bind.mpr ?_
  dsimp only
  refine Ensures.seq (.forM fun id _ state hstate ↦
    stays_inlineYield hlooping (hfit.afterRooted hstate)) fun _ first hfirst _ ↦ ?_
  refine Ensures.seq (.forM fun id hid state hstate ↦ ?_) fun _ second hsecond _ ↦ ?_
  · have hreturn := (List.mem_filter.mp hid).2
    refine (Edit.ensures_remove (Program.Reworks.movable (hfirst.trans hstate)
      (has_of_isReturn hreturn) (.inr ?_))).stays.edit
    exact StmtKind.isAction_of_isReturn hreturn
  · have hfit' := hfit.afterRooted (hfirst.trans hsecond)
    refine Ensures.seq (Ensures.rooted (stays_rebindFormals hfit' (.inl hcopy)))
      fun _ third _ _ ↦ ?_
    exact stays_modify (.claimLocals loop.owner loop.copy)

/-- Inlining a loop moves the loop and nothing else that was there, and leaves it standing
nowhere, no longer a loop. -/
theorem ensures_inlineLoop {block : StmtId} (hlooping : scope.looping) (hfit : scope.Fits program)
    (hmarked : scope.marked block) :
    Ensures (inlineLoop block) program (program.Reworks (scope.adding block).rooted)
      fun _ final ↦ (final.kind block).isForLoop = false ∧ (¬ scope.moved block →
        final.parent block = none ∧ (final.stmt block).bodyOf = none) := by
  unfold inlineLoop
  have hrefl := Program.Reworks.refl (scope.adding block).rooted program
  refine ensures_loopHeader_bind hrefl fun (index, source) hheader ↦ ?_
  refine ensures_get_bind.mpr ?_
  refine ensures_instanceIterator_bind hrefl fun iterator _ ↦ ?_
  refine ensures_loopOwner_bind hrefl fun owner _ ↦ ?_
  have hblock := has_of_forHeader hheader
  have hle := scope.le_adding_rooted block
  refine Ensures.seq (.within hle (ensures_unmark rfl hmarked)) fun _ first _ hfirst ↦ ?_
  have hfit' := hfit.after hfirst.1
  refine ensures_get_bind.mpr ?_
  refine Ensures.seq (.within hle (.build (Program.ensures_copyTree hlooping hfit')))
    fun copied second _ hsecond ↦ ?_
  have hsofar := hfirst.1.trans hsecond.1
  have hcopy : scope.moved copied.1 := hfit'.new hsecond.2.new
  have hloose : second.Loose (scope.adding block).rooted copied.1 :=
    ⟨hsecond.2.detached.has, hsecond.2.detached.owner, .inl (.inl hcopy)⟩
  refine Ensures.seq (Edit.ensures_replace (hsofar.wellLinked hfit.wellLinked) hloose
    (.inl (hsofar.has hblock)) (.inl (.inr rfl)) (.inl trivial)).edit
      fun _ third hthird hdetached ↦ ?_
  have hfit'' := (hfit.after hsofar).afterAdding hthird (.inr hdetached.1)
  -- From here on the loop stands nowhere, and nothing that is done takes it from there.
  have hrest := @ensures_inlineRest scope third ⟨block, index, program.span block, owner, copied.1⟩
    iterator source hlooping hfit'' hcopy
  refine Ensures.mono hrest (fun final hfinal ↦ hfinal.mono (scope.rooted_le_adding block)) ?_
  intro _ final hfinal _
  have hthere := hthird.has (hsofar.has hblock)
  refine ⟨?_, fun hmoved ↦ ?_⟩
  · have hloop := hsecond.1.isForLoop_eq_false (hfirst.1.has hblock) hfirst.2
    exact hfinal.isForLoop_eq_false hthere (hthird.isForLoop_eq_false (hsofar.has hblock) hloop)
  · have hcompound : (third.kind block).isAction = false := by
      rw [hthird.isAction (hsofar.has hblock), hsofar.isAction hblock]
      exact StmtKind.isAction_of_forHeader hheader
    have hplace := hfinal.place hthere hcompound hmoved
    exact ⟨hplace.1.trans hdetached.1, hplace.2.trans hdetached.2.1⟩

end IteratorLowering
