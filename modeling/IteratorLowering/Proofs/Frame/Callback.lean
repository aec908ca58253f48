import IteratorLowering.Lowering.Callback
import IteratorLowering.Proofs.Frame.Inlining

/-!
# Callbacks keep a frame

Lowering a loop over a recursive iterator moves the loop into a new function and makes two or three
functions in all. What is changed in them is new or comes from the loop: the copy of the iterator is
the body of a function of its own before anything in it is replaced. So a frame holds if it keeps
neither the loop nor a declaration of its index (`respects_lowerWithCallback`), and functions that
were there before get no formals and no flags, since formals are only given to functions that were
just made (`LoopFrame.making`).
-/

set_option autoImplicit false
set_option relaxedAutoImplicit false

namespace IteratorLowering

variable {frame : LoopFrame} {program : Program} {block : StmtId} {function owner : FnId}

/-! ### New functions -/

theorem LoopFrame.respects_of_making {m : Type → Type} [Monad m] [MonadStateOf Program m]
    [Runs m Program] {α : Type} {computation : m α} (hnew : ¬ frame.start.HasFunction function)
    (h : (frame.making function hnew).Respects program computation) :
    frame.Respects program computation :=
  h.mono (fun _ h ↦ h.of_making) fun _ _ _ _ ↦ trivial

theorem respects_newGenerated (h : frame.Holds program) {name : String} {span : Span} :
    Ensures (newGenerated name span) program frame.Holds fun function final ↦
      ¬ frame.start.HasFunction function ∧ final.HasFunction function := by
  have hnew : ¬ frame.start.HasFunction ⟨program.functions.size⟩ := fun hold ↦
    Nat.lt_irrefl _ (h.function hold).1
  have hbody : ¬ frame.kept program.nextStmt := h.not_kept_of_new program.not_has_nextStmt
  have hempty : ∀ child ∈ (StmtKind.plain []).children, ¬ frame.kept child := nofun
  have hmade : frame.Holds (program.newFunction name .void span).2 :=
    LoopFrame.Holds.withFunction (h.newStmt hempty) hbody
  obtain ⟨hthere, -⟩ := program.function_newFlagged name .void span
    fun flags ↦ { flags with generated := true }
  refine ensures_modifyGet_bind.mpr (ensures_modify_bind.mpr (ensures_pure.mpr ⟨?_, hnew, hthere⟩))
  exact hmade.modifyFunction (fun hold ↦ absurd hold hnew) fun hthere ↦
    hmade.body hthere fun hold ↦ absurd hold hnew

/-! ### Loop bodies as functions -/

theorem respects_bindCapture (h : frame.Holds program) {load store : Cursor} {body : StmtId}
    {capture : Capture} (hmade : load.function ∈ frame.made) (hload : ¬ frame.fixed load.block)
    (hstore : ¬ frame.fixed store.block) (hbody : ¬ frame.kept body) :
    frame.Respects program (bindCapture load store body capture) := by
  unfold bindCapture
  refine ensures_get_bind.mpr ?_
  dsimp only
  split
  · refine Ensures.bind (LoopFrame.respects_modifyGet (h.refOf _)) fun reference _ h _ ↦ ?_
    refine Ensures.bind (LoopFrame.respects_modifyGet (h.addFormal hmade _ _)) fun formal _ h _ ↦ ?_
    refine Ensures.bind (LoopFrame.respects_modifyGet (h.addSymbol _)) fun copy _ h _ ↦ ?_
    refine Ensures.bind (LoopFrame.respects_modify (h.substitute hbody _ _)) fun _ _ h _ ↦ ?_
    refine Ensures.bind (Cursor.respects_action h hload) fun _ _ h _ ↦ ?_
    refine Ensures.bind (Cursor.respects_action h hload) fun _ _ h _ ↦ ?_
    exact LoopFrame.respects_ignore (Cursor.respects_action h hstore)
  · refine Ensures.bind (LoopFrame.respects_modifyGet (h.addFormal hmade _ _)) fun formal _ h _ ↦ ?_
    exact LoopFrame.respects_modify (h.substitute hbody _ _)

theorem respects_freeCaptures (h : frame.Holds program) :
    frame.Respects program (freeCaptures function) := by
  unfold freeCaptures
  refine ensures_get_bind.mpr ?_
  refine Ensures.bind (.forM_keeping h fun id _ _ h ↦ ?_) fun _ _ h _ ↦ .pure h trivial
  split
  · exact ensures_fault.mpr h
  · exact .pure h trivial

theorem respects_closeBody (h : frame.Holds program) (hmade : function ∈ frame.made) :
    frame.Respects program (closeBody function) := by
  unfold closeBody
  refine Ensures.bind (respects_freeCaptures h) fun captures _ h _ ↦ ?_
  refine ensures_get_bind.mpr ?_
  dsimp only
  have hbody := h.not_kept_body hmade
  refine Ensures.bind (LoopFrame.respects_newPlain h) fun entry _ h hentry ↦ ?_
  refine Ensures.bind (LoopFrame.respects_newPlain h) fun exit _ h hexit ↦ ?_
  refine Ensures.bind (.forM_keeping h fun capture _ _ h ↦ ?_) fun _ _ h _ ↦ ?_
  · exact (respects_bindCapture h hmade (frame.not_fixed hentry) (frame.not_fixed hexit)
      hbody).build
  refine Ensures.bind (Edit.respects_spliceAtHead h hentry (frame.not_fixed hbody)).edit
    fun _ _ h _ ↦ ?_
  refine Ensures.bind (Edit.respects_spliceAtTail h hexit (frame.not_fixed hbody)).edit
    fun _ _ h _ ↦ ?_
  exact .pure h trivial

/-- The loop moves into a new function, and so does what is nested in it. -/
theorem respects_extractLoopBody (h : frame.Holds program) (hblock : ¬ frame.kept block)
    (hhome : frame.start.HasFunction frame.home) {index : SymId} (hindex : frame.Frees index) :
    frame.Respects program (extractLoopBody frame.home block index) := by
  unfold extractLoopBody
  refine ensures_get_bind.mpr ?_
  refine Ensures.bind (.build (respects_newGenerated h)) fun function _ h ⟨hnew, hthere⟩ ↦ ?_
  refine LoopFrame.respects_of_making hnew ?_
  have h := h.making hthere hnew
  have hmade : function ∈ (frame.making function hnew).made := List.mem_cons_self
  refine Ensures.bind (LoopFrame.respects_modifyGet (h.addFormal hmade _ _)) fun formal _ h _ ↦ ?_
  refine ensures_get_bind.mpr ?_
  -- What is done after the declaration of the index was removed, or where there is none.
  have hrest : ∀ middle : Program, (frame.making function hnew).Holds middle →
      (frame.making function hnew).Respects middle (do
        let body := (← get).bodyOf function
        let _ ← Edit.push body (.action (.define index)) (program.span block)
        let _ ← Edit.push body (.action (.assign index (.use (.sym formal)))) (program.span block)
        modify fun program => program.setBlockInfo block none
        Edit.insertAtTail body block
        let captures ← closeBody function
        let _ ← Edit.push body (.action (.ret .void)) (program.span block)
        modify fun program => program.claimLocals function body
        return (function, captures) : Pass (FnId × List Capture)) := by
    intro middle h
    refine ensures_get_bind.mpr ?_
    have hbody := LoopFrame.not_fixed (h.not_kept_body hmade)
    refine Ensures.bind (Edit.respects_pushAction h hbody).edit fun _ _ h _ ↦ ?_
    refine Ensures.bind (Edit.respects_pushAction h hbody).edit fun _ _ h _ ↦ ?_
    refine Ensures.bind (LoopFrame.respects_modify (h.setBlockInfo hblock none)) fun _ _ h _ ↦ ?_
    refine Ensures.bind (Edit.respects_insertAtTail h hbody hblock).edit fun _ _ h _ ↦ ?_
    refine Ensures.bind (respects_closeBody h hmade) fun captures _ h _ ↦ ?_
    refine Ensures.bind (Edit.respects_pushAction h hbody).edit fun _ _ h _ ↦ ?_
    exact Ensures.bind (LoopFrame.respects_modify (h.claimLocals function _)) fun _ _ h _ ↦
      .pure h trivial
  dsimp only
  split
  · rename_i declaration hfound
    have hdeclaration := h.of_making.not_kept_of_findDefinition hhome hindex hfound
    exact Ensures.bind (Edit.respects_remove h hdeclaration).edit fun _ middle h _ ↦ hrest middle h
  · exact hrest _ h

/-! ### The wrapper -/

theorem respects_newBundle (h : frame.Holds program) {loopBody : FnId} :
    frame.Respects program (newBundle loopBody) :=
  ensures_get_bind.mpr (LoopFrame.respects_modifyGet (h.addType _))

theorem respects_readFields (h : frame.Holds program) {cursor : Cursor} {record : SymId}
    {fields : List FieldDef} (hcursor : ¬ frame.fixed cursor.block) :
    frame.Respects program (readFields cursor record fields) :=
  LoopFrame.respects_mapM h fun _ _ _ h ↦ by
    refine Ensures.bind (Cursor.respects_fresh h hcursor) fun value _ h _ ↦ ?_
    exact Ensures.bind (Cursor.respects_action h hcursor) fun _ _ h _ ↦ .pure h trivial

theorem respects_buildWrapper (h : frame.Holds program) {caller loopBody : FnId} {bundle : TypeId}
    {span : Span} : frame.Respects program (buildWrapper caller loopBody bundle span) := by
  unfold buildWrapper
  refine ensures_get_bind.mpr ?_
  refine Ensures.bind (.build (respects_newGenerated h)) fun wrapper _ h ⟨hnew, hthere⟩ ↦ ?_
  refine LoopFrame.respects_of_making hnew ?_
  have h := h.making hthere hnew
  have hmade : wrapper ∈ (frame.making wrapper hnew).made := List.mem_cons_self
  refine ensures_require_bind h fun indexType _ ↦ ?_
  refine Ensures.bind (LoopFrame.respects_modifyGet (h.addFormal hmade _ _)) fun index _ h _ ↦ ?_
  refine Ensures.bind (LoopFrame.respects_modifyGet (h.refOf _)) fun reference _ h _ ↦ ?_
  refine Ensures.bind (LoopFrame.respects_modifyGet (h.addFormal hmade _ _)) fun packed _ h _ ↦ ?_
  refine ensures_get_bind.mpr ?_
  have hbody := LoopFrame.not_fixed (h.not_kept_body hmade)
  refine Ensures.bind (.build (Cursor.respects_fresh h hbody)) fun unpacked _ h _ ↦ ?_
  refine Ensures.bind (.build (Cursor.respects_action h hbody)) fun _ _ h _ ↦ ?_
  refine Ensures.bind (.build (respects_readFields h hbody)) fun values _ h _ ↦ ?_
  refine Ensures.bind (.build (Cursor.respects_action h hbody)) fun _ _ h _ ↦ ?_
  exact Ensures.bind (.build (Cursor.respects_action h hbody)) fun _ _ h _ ↦ .pure h trivial

theorem respects_buildCallback (h : frame.Holds program) (hblock : ¬ frame.kept block)
    (hhome : frame.start.HasFunction frame.home) {index : SymId} {span : Span}
    (hindex : frame.Frees index) :
    frame.Respects program (buildCallback frame.home block index span) := by
  unfold buildCallback
  refine Ensures.bind (respects_extractLoopBody h hblock hhome hindex) fun extracted _ h _ ↦ ?_
  refine Ensures.bind (.build (respects_newBundle h)) fun bundle _ h _ ↦ ?_
  refine Ensures.bind (respects_buildWrapper h) fun wrapper _ h _ ↦ ?_
  exact Ensures.bind (LoopFrame.respects_modifyGet (h.register wrapper)) fun _ _ h _ ↦
    .pure h trivial

theorem respects_passCapture (h : frame.Holds program) {cursor : Cursor} {capture : Capture}
    (hcursor : ¬ frame.fixed cursor.block) :
    frame.Respects program (passCapture cursor capture) := by
  unfold passCapture
  split
  · refine ensures_get_bind.mpr ?_
    refine Ensures.bind (LoopFrame.respects_modifyGet (h.refOf _)) fun reference _ h _ ↦ ?_
    refine Ensures.bind (Cursor.respects_fresh h hcursor) fun address _ h _ ↦ ?_
    exact Ensures.bind (Cursor.respects_action h hcursor) fun _ _ h _ ↦ .pure h trivial
  · exact .pure h trivial

theorem respects_packCaptures (h : frame.Holds program) {cursor : Cursor} {captures : List Capture}
    {bundle : TypeId} (hcursor : ¬ frame.fixed cursor.block) :
    frame.Respects program (packCaptures cursor captures bundle) := by
  unfold packCaptures
  refine Ensures.bind (LoopFrame.respects_mapM h fun _ _ _ h ↦ respects_passCapture h hcursor)
    fun values _ h _ ↦ ?_
  refine Ensures.bind (Cursor.respects_fresh h hcursor) fun packed _ h _ ↦ ?_
  refine Ensures.bind (.forM_keeping h fun _ _ _ h ↦
    LoopFrame.respects_ignore (Cursor.respects_action h hcursor)) fun _ _ h _ ↦ ?_
  exact .pure h trivial

/-! ### The copy of the iterator -/

theorem respects_castInstance (h : frame.Holds program) {cursor : Cursor} {copy : RecursiveCopy}
    {inner : SymId} (hcursor : ¬ frame.fixed cursor.block) :
    frame.Respects program (castInstance cursor copy inner) := by
  unfold castInstance
  refine ensures_get_bind.mpr ?_
  dsimp only
  split
  · exact .pure h trivial
  · refine Ensures.bind (Cursor.respects_fresh h hcursor) fun cast _ h _ ↦ ?_
    exact Ensures.bind (Cursor.respects_action h hcursor) fun _ _ h _ ↦ .pure h trivial

theorem respects_replaceByMembers (h : frame.Holds program) {anchor scratch : StmtId}
    (hanchor : ¬ frame.kept anchor) (hscratch : ¬ frame.kept scratch) :
    frame.Respects program (replaceByMembers anchor scratch) :=
  Ensures.bind (Edit.respects_spliceBefore h hscratch (frame.not_fixed hanchor)).edit
    fun _ _ h _ ↦ (Edit.respects_remove h hanchor).edit

theorem respects_forwardLoop (h : frame.Holds program) {copy : RecursiveCopy} {id : StmtId}
    (hid : ¬ frame.kept id) : frame.Respects program (forwardLoop copy id) := by
  unfold forwardLoop
  refine ensures_get_bind.mpr ?_
  dsimp only
  split
  · exact .pure h trivial
  · split
    · refine Ensures.bind (LoopFrame.respects_newPlain h) fun scratch _ h hscratch ↦ ?_
      have hinto := frame.not_fixed hscratch
      refine Ensures.bind (.build (respects_castInstance h hinto)) fun source _ h _ ↦ ?_
      refine Ensures.bind (.build (Cursor.respects_action h hinto)) fun _ _ h _ ↦ ?_
      exact respects_replaceByMembers h hid hscratch
    · exact .pure h trivial

theorem respects_forwardLoops (h : frame.Holds program) {copy : RecursiveCopy}
    (hmade : copy.function ∈ frame.made) : frame.Respects program (forwardLoops copy) :=
  ensures_get_bind.mpr (.forM_keeping h fun _ hid _ h' ↦
    respects_forwardLoop h' (h.not_kept_of_mem_walk (h.not_kept_body hmade) hid))

theorem respects_localResult (h : frame.Holds program) {result : SymId}
    {made : FiniteMap StmtId SymId} (hblock : ¬ frame.fixed block) :
    frame.Respects program (localResult owner result made block) := by
  unfold localResult
  split
  · exact .pure h trivial
  · refine ensures_get_bind.mpr ?_
    refine Ensures.bind (LoopFrame.respects_modifyGet (h.addSymbol _)) fun copy _ h _ ↦ ?_
    refine Ensures.bind (.build (respects_newAction h)) fun seed _ h hseed ↦ ?_
    refine Ensures.bind (Edit.respects_insertAtHead h hblock hseed).edit fun _ _ h _ ↦ ?_
    refine Ensures.bind (.build (respects_newAction h)) fun declaration _ h hdeclaration ↦ ?_
    exact Ensures.bind (Edit.respects_insertAtHead h hblock hdeclaration).edit fun _ _ h _ ↦
      .pure h trivial

/-- A local is put at the head of the block around a statement, which is not fixed. -/
theorem respects_localizeIn (h : frame.Holds program) {result : SymId} {home : Option StmtId}
    {made : FiniteMap StmtId SymId} {id : StmtId} (hid : ¬ frame.kept id) :
    frame.Respects program (localizeIn owner result home made id) := by
  unfold localizeIn
  refine ensures_get_bind.mpr ?_
  split
  · exact .pure h trivial
  · rename_i block hblock
    have houter : block ∈ program.ancestors id :=
      List.mem_of_mem_tail (List.mem_of_find?_eq_some hblock)
    split
    · exact .pure h trivial
    · refine Ensures.bind (respects_localResult h
        (h.not_fixed_of_mem_upwards (frame.not_fixed hid) houter)) fun local' _ h _ ↦ ?_
      refine Ensures.bind (LoopFrame.respects_modify (h.setOwnKind hid ?_)) fun _ _ h _ ↦
        .pure h trivial
      exact StmtKind.children_mapSymbols ..

theorem respects_localizeResult (h : frame.Holds program) {root : StmtId} {result : SymId}
    (hroot : ¬ frame.kept root) : frame.Respects program (localizeResult owner root result) :=
  ensures_get_bind.mpr (LoopFrame.respects_ignore (.foldlM_keeping h fun _ hid _ _ h' ↦
    respects_localizeIn h' (h.not_kept_of_mem_walk hroot (List.mem_filter.mp hid).1)))

theorem respects_callBack (h : frame.Holds program) {copy : RecursiveCopy} {valueType : TypeId}
    {id : StmtId} (hid : ¬ frame.kept id) :
    frame.Respects program (callBack copy valueType id) := by
  unfold callBack
  refine ensures_get_bind.mpr ?_
  dsimp only
  split
  · refine Ensures.bind (LoopFrame.respects_modifyGet (h.addSymbol _)) fun yielded _ h _ ↦ ?_
    refine Ensures.bind (LoopFrame.respects_newPlain h) fun scratch _ h hscratch ↦ ?_
    have hinto := frame.not_fixed hscratch
    refine Ensures.bind (.build (Cursor.respects_action h hinto)) fun _ _ h _ ↦ ?_
    refine Ensures.bind (.build (Cursor.respects_action h hinto)) fun _ _ h _ ↦ ?_
    refine Ensures.bind (.build (Cursor.respects_action h hinto)) fun _ _ h _ ↦ ?_
    exact respects_replaceByMembers h hid hscratch
  · exact .pure h trivial

/-- The copy is the body of a new function before anything in it is changed. -/
theorem respects_buildRecursiveCopy (h : frame.Holds program) {iterator : FnId} {bundle : TypeId}
    {span : Span} : frame.Respects program (buildRecursiveCopy iterator bundle span) := by
  unfold buildRecursiveCopy
  refine ensures_get_bind.mpr ?_
  refine ensures_require_bind h fun info _ ↦ ?_
  refine Ensures.bind (.build (respects_newGenerated h)) fun function _ h ⟨hnew, hthere⟩ ↦ ?_
  refine LoopFrame.respects_of_making hnew ?_
  have h := h.making hthere hnew
  have hmade : function ∈ (frame.making function hnew).made := List.mem_cons_self
  refine Ensures.bind (LoopFrame.respects_modifyGet (h.addFormal hmade _ _)) fun source _ h _ ↦ ?_
  refine Ensures.bind (LoopFrame.respects_modifyGet (h.addFormal hmade _ _)) fun callback _ h _ ↦ ?_
  refine Ensures.bind (LoopFrame.respects_modifyGet (h.addFormal hmade _ _)) fun packed _ h _ ↦ ?_
  dsimp only
  refine Ensures.bind (.build (Program.respects_copyTree h)) fun (body, renamed) _ h hbody ↦ ?_
  refine ensures_get_bind.mpr ?_
  refine Ensures.bind (Edit.respects_replace h (h.not_kept_body hmade) hbody).edit fun _ _ h _ ↦ ?_
  refine Ensures.bind (respects_forwardLoops h hmade) fun _ _ h _ ↦ ?_
  refine Ensures.bind (respects_rebindFormals h hbody) fun _ _ h _ ↦ ?_
  -- The steps after the result symbol has been localized, or where there is none.
  have hrest : ∀ middle : Program, (frame.making function hnew).Holds middle →
      (frame.making function hnew).Respects middle (do
        ((← get).yieldsIn body).forM (callBack
          { function, iterator, source, callback, bundle := packed }
          (program.function iterator).retType)
        let program ← get
        ((program.walk body).filter fun id => (program.kind id).isReturn).forM fun id =>
          (Edit.remove id : Edit Unit)
        let _ ← Edit.push body (.action (.ret .void)) span
        modify fun program => program.claimLocals function body
        return function : Pass FnId) := by
    intro middle h
    refine ensures_get_bind.mpr ?_
    refine Ensures.bind (.forM_keeping h fun _ hid _ h' ↦ ?_) fun _ called h _ ↦ ?_
    · exact respects_callBack h' (h.not_kept_of_mem_walk hbody (List.mem_filter.mp hid).1)
    refine ensures_get_bind.mpr ?_
    refine Ensures.bind (.forM_keeping h fun id hid _ h' ↦ ?_) fun _ _ h _ ↦ ?_
    · exact (Edit.respects_remove h'
        (h.not_kept_of_mem_walk hbody (List.mem_filter.mp hid).1)).edit
    refine Ensures.bind (Edit.respects_pushAction h (LoopFrame.not_fixed hbody)).edit
      fun _ _ h _ ↦ ?_
    exact Ensures.bind (LoopFrame.respects_modify (h.claimLocals function body)) fun _ _ h _ ↦
      .pure h trivial
  cases (program.function iterator).retSym with
  | none => exact hrest _ h
  | some result =>
    exact Ensures.bind (respects_localizeResult h hbody) fun _ middle h _ ↦ hrest middle h

/-! ### The loop -/

theorem respects_instanceIterator (h : frame.Holds program) {source : SymId} {absent : Fault}
    {span : Span} : frame.Respects program (instanceIterator source absent span) :=
  ensures_get_bind.mpr (ensures_require h fun _ _ ↦ trivial)

section

variable {state : LoweringState}

/-- Whether a lowering that starts at a state keeps a frame. -/
abbrev LoopFrame.RespectsIn {α : Type} (frame : LoopFrame) (state : LoweringState)
    (computation : Lowering α) : Prop :=
  Ensures computation state (fun final ↦ frame.Holds final.program) fun _ _ ↦ True

/-- A pass keeps a frame as part of a lowering if it does so on its own. -/
theorem LoopFrame.respectsIn_lift {α : Type} {pass : Pass α} {result : α → Program → Prop}
    (h : Ensures pass state.program frame.Holds result) :
    Ensures (liftM pass : Lowering α) state (fun final ↦ frame.Holds final.program)
      fun value final ↦ result value final.program :=
  ensures_asLowering.mpr h

theorem LoopFrame.respectsIn_modify {change : LoweringState → LoweringState}
    (h : frame.Holds (change state).program) :
    frame.RespectsIn state (modify change : Lowering PUnit) :=
  ensures_modify.mpr ⟨h, trivial⟩

theorem respects_recursiveCallee (h : frame.Holds state.program) {cursor : Cursor}
    {iterator loopBody : FnId} {bundle : TypeId} {packed : SymId}
    (hcursor : ¬ frame.fixed cursor.block) :
    frame.RespectsIn state (recursiveCallee cursor iterator loopBody bundle packed) := by
  unfold recursiveCallee
  refine ensures_get_bind.mpr ?_
  split
  · have hrequire : ∀ {value : Option TypeId} {absent : Fault} {span : Span},
        frame.Respects state.program (Pass.require value absent span) :=
      ensures_require h fun _ _ ↦ trivial
    refine Ensures.bind (LoopFrame.respectsIn_lift hrequire) fun expected middle h _ ↦ ?_
    have hcast : frame.Respects middle.program (do
        let cast ← cursor.fresh "_fn_args_cast" expected
        let _ ← cursor.assign cast (.cast expected (.sym packed))
        return cast : Build SymId) := by
      refine Ensures.bind (Cursor.respects_fresh h hcursor) fun cast _ h _ ↦ ?_
      exact Ensures.bind (Cursor.respects_action h hcursor) fun _ _ h _ ↦ .pure h trivial
    exact Ensures.bind (LoopFrame.respectsIn_lift hcast.build) fun _ _ h _ ↦ .pure h trivial
  · refine Ensures.bind (LoopFrame.respectsIn_lift (respects_buildRecursiveCopy h))
      fun generated _ h _ ↦ ?_
    refine Ensures.bind (LoopFrame.respectsIn_modify h) fun _ _ h _ ↦ ?_
    exact Ensures.bind (LoopFrame.respectsIn_modify h) fun _ _ h _ ↦ .pure h trivial

/-- Turning a loop into a call with a callback touches nothing around the loop but declarations of
its index. -/
theorem respects_lowerWithCallback (h : frame.Holds state.program)
    (haround : frame.Surrounds state.program block) :
    frame.RespectsIn state (lowerWithCallback block) := by
  unfold lowerWithCallback
  have hheader : Ensures (loopHeader block) state.program frame.Holds fun header final ↦
      final = state.program ∧ (state.program.kind block).forHeader? = some header :=
    ensures_get_bind.mpr (ensures_require h fun _ hheader ↦ ⟨rfl, hheader⟩)
  refine Ensures.bind (LoopFrame.respectsIn_lift hheader)
    fun (index, source) middle h ⟨hsame, hheader⟩ ↦ ?_
  refine ensures_get_bind.mpr ?_
  have henclosing : Ensures (loopOwner block) middle.program frame.Holds fun owner _ ↦
      middle.program.enclosingFunction? block = some owner :=
    ensures_get_bind.mpr (ensures_require h fun _ howner ↦ howner)
  refine Ensures.bind (LoopFrame.respectsIn_lift henclosing) fun caller _ h hcaller ↦ ?_
  obtain rfl := haround.owner (hsame ▸ hcaller)
  refine Ensures.bind (LoopFrame.respectsIn_lift (respects_instanceIterator h))
    fun iterator _ h _ ↦ ?_
  refine Ensures.bind (LoopFrame.respectsIn_lift (.build (respects_newAction h)))
    fun anchor _ h hanchor ↦ ?_
  refine Ensures.bind (LoopFrame.respectsIn_lift (Edit.respects_insertBefore h
    (frame.not_fixed haround.loop) hanchor).edit) fun _ _ h _ ↦ ?_
  refine Ensures.bind (LoopFrame.respectsIn_lift (respects_buildCallback h haround.loop haround.home
    (haround.index hheader))) fun (loopBody, slot, bundle, captures) _ h _ ↦ ?_
  refine Ensures.bind (LoopFrame.respectsIn_lift (LoopFrame.respects_newPlain h))
    fun site _ h hsite ↦ ?_
  have hinto := frame.not_fixed hsite
  refine Ensures.bind (LoopFrame.respectsIn_lift (.build (respects_packCaptures h hinto)))
    fun packed _ h _ ↦ ?_
  refine Ensures.bind (respects_recursiveCallee h hinto) fun (callee, argument) _ h _ ↦ ?_
  refine Ensures.bind (LoopFrame.respectsIn_lift (.build (Cursor.respects_action h hinto)))
    fun _ _ h _ ↦ ?_
  exact LoopFrame.respectsIn_lift (respects_replaceByMembers h hanchor hsite)

end

end IteratorLowering
