import IteratorLowering.Lowering.Callback
import IteratorLowering.Proofs.Sharing.Typing

/-!
# Lowering with callbacks keeps a program typed

Every symbol that is made on the way has a type that is there: the type of another symbol, a
reference type, a bundle, or what an iterator returns. So each step leaves a typed program, and
tells how many functions were made: one for a loop body (`typed_extractLoopBody`), one for its
wrapper (`typed_buildWrapper`), and one for a copy of an iterator (`typed_buildRecursiveCopy`).
-/

set_option autoImplicit false
set_option relaxedAutoImplicit false

namespace IteratorLowering

variable {start program : Program} {made : Nat} {type : TypeId} {function : FnId}
variable {cursor : Cursor} {block : StmtId}

/-! ### Loop bodies as functions -/

theorem typed_newGenerated (h : start.TypedWith made program) {name : String} {span : Span} :
    Ensures (newGenerated name span) program (fun _ ↦ True) fun function final ↦
      start.TypedWith (made + 1) final ∧ function = ⟨program.functions.size⟩ :=
  ensures_modifyGet_bind.mpr (ensures_modify_bind.mpr (ensures_pure.mpr
    ⟨trivial, h.newFlagged name span fun flags ↦ { flags with generated := true }, rfl⟩))

theorem keepsTyped_bindCapture (h : start.TypedWith made program) {load store : Cursor}
    {body : StmtId} {capture : Capture} :
    start.KeepsTyped made program (bindCapture load store body capture) := by
  refine h.rebaseSame ?_
  have h := Program.TypedWith.refl h.typed h.apart
  have htype := h.typed.symbolType capture.symbol
  unfold bindCapture
  refine ensures_get_bind.mpr ?_
  dsimp only
  split
  · refine Ensures.bind (Program.typed_refOf h htype) fun reference _ _ ⟨h, hreference⟩ ↦ ?_
    refine Ensures.bind (Program.keepsTyped_modifyGet (h.addFormal load.function _ hreference))
      fun formal _ _ h ↦ ?_
    refine Ensures.bind (Program.keepsTyped_modifyGet (h.addSymbol (h.type htype)))
      fun copy _ _ h ↦ ?_
    refine Ensures.bind (Program.keepsTyped_modify (h.of_sameTables (.mapSymbolsIn ..)))
      fun _ _ _ h ↦ ?_
    refine Ensures.bind (Cursor.keepsTyped_emit h) fun _ _ _ h ↦ ?_
    refine Ensures.bind (Cursor.keepsTyped_emit h) fun _ _ _ h ↦ ?_
    exact Ensures.bind (Cursor.keepsTyped_emit h) fun _ _ _ h ↦ .pure trivial h
  · refine Ensures.bind (Program.keepsTyped_modifyGet (h.addFormal load.function _ htype))
      fun formal _ _ h ↦ ?_
    exact Program.keepsTyped_modify (h.of_sameTables (.mapSymbolsIn ..))

theorem keepsTyped_freeCaptures (h : start.TypedWith made program) :
    start.KeepsTyped made program (freeCaptures function) := by
  unfold freeCaptures
  refine ensures_get_bind.mpr ?_
  refine Ensures.bind (.forM_result (fun _ ↦ trivial) (fun id _ state h ↦ ?_) h) fun _ _ _ h ↦
    .pure trivial h
  split
  · exact ensures_fault.mpr trivial
  · exact .pure trivial h

theorem keepsTyped_closeBody (h : start.TypedWith made program) :
    start.KeepsTyped made program (closeBody function) := by
  unfold closeBody
  refine (keepsTyped_freeCaptures h).bind fun captures _ _ h ↦ ?_
  refine ensures_get_bind.mpr ?_
  dsimp only
  refine Ensures.bind (Program.keepsTyped_modifyGet (h.of_sameTables (.newStmt ..)))
    fun entry _ _ h ↦ ?_
  refine Ensures.bind (Program.keepsTyped_modifyGet (h.of_sameTables (.newStmt ..)))
    fun exit _ _ h ↦ ?_
  refine Ensures.bind (.forM_result (fun _ ↦ trivial)
    (fun capture _ _ h ↦ (keepsTyped_bindCapture h).build) h) fun _ _ _ h ↦ ?_
  refine Ensures.bind (h.leaves Edit.leavesTables_spliceAtHead.edit) fun _ _ _ h ↦ ?_
  refine Ensures.bind (h.leaves Edit.leavesTables_spliceAtTail.edit) fun _ _ _ h ↦ ?_
  exact .pure trivial h

theorem typed_extractLoopBody (h : start.TypedWith made program) {caller : FnId} {index : SymId} :
    Ensures (extractLoopBody caller block index) program (fun _ ↦ True) fun extracted final ↦
      start.TypedWith (made + 1) final ∧ extracted.1 = ⟨program.functions.size⟩ := by
  unfold extractLoopBody
  refine ensures_get_bind.mpr ?_
  refine Ensures.bind (typed_newGenerated h).build fun function first _ ⟨h, hfunction⟩ ↦ ?_
  refine Ensures.bind (Program.keepsTyped_modifyGet
    (h.addFormal function _ (h.typed.symbolType index))) fun formal _ _ h ↦ ?_
  refine ensures_get_bind.mpr ?_
  -- What is done after the declaration of the index was removed, or where there is none.
  have hrest : ∀ middle : Program, start.TypedWith (made + 1) middle → Ensures (do
        let body := (← get).bodyOf function
        let _ ← Edit.push body (.action (.define index)) (program.span block)
        let _ ← Edit.push body (.action (.assign index (.use (.sym formal)))) (program.span block)
        modify fun program => program.setBlockInfo block none
        Edit.insertAtTail body block
        let captures ← closeBody function
        let _ ← Edit.push body (.action (.ret .void)) (program.span block)
        modify fun program => program.claimLocals function body
        return (function, captures) : Pass (FnId × List Capture)) middle (fun _ ↦ True)
      fun extracted final ↦ start.TypedWith (made + 1) final ∧
        extracted.1 = ⟨program.functions.size⟩ := by
    intro middle h
    refine ensures_get_bind.mpr ?_
    refine Ensures.bind (h.leaves Edit.leavesTables_push.edit) fun _ _ _ h ↦ ?_
    refine Ensures.bind (h.leaves Edit.leavesTables_push.edit) fun _ _ _ h ↦ ?_
    refine Ensures.bind (Program.keepsTyped_modify (h.of_sameTables (.setBlockInfo ..)))
      fun _ _ _ h ↦ ?_
    refine Ensures.bind (h.leaves Edit.leavesTables_insertAtTail.edit) fun _ _ _ h ↦ ?_
    refine Ensures.bind (keepsTyped_closeBody h) fun captures _ _ h ↦ ?_
    refine Ensures.bind (h.leaves Edit.leavesTables_push.edit) fun _ _ _ h ↦ ?_
    exact Ensures.bind (Program.keepsTyped_modify (h.claimLocals ..)) fun _ _ _ h ↦
      .pure trivial ⟨h, hfunction⟩
  dsimp only
  split
  · exact Ensures.bind (h.leaves Edit.leavesTables_remove.edit) fun _ middle _ h ↦ hrest middle h
  · exact hrest _ h

/-! ### The wrapper -/

theorem typed_newBundle (h : start.TypedWith made program) {loopBody : FnId} :
    Ensures (newBundle loopBody) program (fun _ ↦ True) fun bundle final ↦
      start.TypedWith made final ∧ final.HasType bundle := by
  refine ensures_get_bind.mpr (ensures_modifyGet.mpr ⟨trivial, ?_, ?_⟩)
  · refine h.addType rfl (fun field hfield ↦ ?_) (by simp) (by simp)
    obtain ⟨⟨type, number⟩, htype, rfl⟩ := List.mem_map.mp hfield
    exact h.typed.formalTypes loopBody type
      (List.mem_of_mem_drop (List.fst_mem_of_mem_zipIdx htype))
  · exact (Program.TypedWith.hasType_addType ..).mpr (.inr rfl)

theorem keepsTyped_readFields (h : start.TypedWith made program) {record : SymId}
    {fields : List FieldDef} (hfields : ∀ field ∈ fields, program.HasType field.type) :
    start.KeepsTyped made program (readFields cursor record fields) := by
  refine h.rebaseSame (.mapM_result (fun _ ↦ trivial) (fun (field, position) hfield _ h ↦ ?_)
    (.refl h.typed h.apart))
  have htype := h.type (hfields field (List.fst_mem_of_mem_zipIdx hfield))
  refine Ensures.bind (Cursor.keepsTyped_fresh h htype) fun value _ _ h ↦ ?_
  exact Ensures.bind (Cursor.keepsTyped_emit h) fun _ _ _ h ↦ .pure trivial h

theorem typed_buildWrapper (h : start.TypedWith made program) {caller loopBody : FnId}
    {bundle : TypeId} {span : Span} (hbundle : program.HasType bundle) :
    Ensures (buildWrapper caller loopBody bundle span) program (fun _ ↦ True) fun wrapper final ↦
      start.TypedWith (made + 1) final ∧ wrapper = ⟨program.functions.size⟩ := by
  refine h.rebase ?_
  have hindices := h.typed.formalTypes loopBody
  unfold buildWrapper
  refine ensures_get_bind.mpr ?_
  refine Ensures.bind (typed_newGenerated (.refl h.typed h.apart)).build
    fun wrapper _ _ ⟨h, hwrapper⟩ ↦ ?_
  refine ensures_require_bind trivial fun indexType hindex ↦ ?_
  have htype := h.type (hindices indexType (List.mem_of_head? hindex))
  refine Ensures.bind (Program.keepsTyped_modifyGet (h.addFormal wrapper _ htype))
    fun index _ _ h ↦ ?_
  refine Ensures.bind (Program.typed_refOf h (h.type hbundle)) fun reference _ _ ⟨h, href⟩ ↦ ?_
  refine Ensures.bind (Program.keepsTyped_modifyGet (h.addFormal wrapper _ href))
    fun packed middle _ h ↦ ?_
  refine ensures_get_bind.mpr (h.rebase_zero ?_)
  have hfields := h.typed.field (h.type hbundle)
  have hbundle := h.type hbundle
  have h := Program.TypedWith.refl h.typed h.apart
  refine Ensures.bind (Cursor.keepsTyped_fresh h hbundle).build fun unpacked _ _ h ↦ ?_
  refine Ensures.bind (Cursor.keepsTyped_emit h).build fun _ _ _ h ↦ ?_
  refine Ensures.bind (keepsTyped_readFields h fun field hfield ↦
    h.type (hfields field hfield)).build fun values _ _ h ↦ ?_
  refine Ensures.bind (Cursor.keepsTyped_emit h).build fun _ _ _ h ↦ ?_
  exact Ensures.bind (Cursor.keepsTyped_emit h).build fun _ _ _ h ↦ .pure trivial ⟨h, hwrapper⟩

/-- The loop body and its wrapper are the next two functions, and the wrapper is in the table. -/
theorem typed_buildCallback (h : start.TypedWith made program) {caller : FnId} {index : SymId}
    {span : Span} :
    Ensures (buildCallback caller block index span) program (fun _ ↦ True)
      fun (loopBody, slot, bundle, _) final ↦ start.TypedWith (made + 2) final ∧
        loopBody = ⟨program.functions.size⟩ ∧ final.HasType bundle ∧
        final.table.get? slot = some ⟨program.functions.size + 1⟩ := by
  unfold buildCallback
  refine Ensures.bind (typed_extractLoopBody h) fun (loopBody, captures) _ _ ⟨h', hbody⟩ ↦ ?_
  refine Ensures.bind (typed_newBundle h').build fun bundle middle _ ⟨h', hbundle⟩ ↦ ?_
  have hnext : middle.functions.size = program.functions.size + 1 := by
    rw [h'.functions, h.functions, Nat.add_assoc]
  refine Ensures.bind (typed_buildWrapper (.refl h'.typed h'.apart) hbundle)
    fun wrapper _ _ ⟨hmade, hwrapper⟩ ↦ ?_
  refine ensures_modifyGet_bind.mpr (ensures_pure.mpr ⟨trivial, ?_, hbody, hmade.type hbundle, ?_⟩)
  · exact (h'.trans hmade).register wrapper
  · rw [FunctionTable.get?_register_self, hwrapper, hnext]

theorem keepsTyped_passCapture (h : start.TypedWith made program) {capture : Capture} :
    start.KeepsTyped made program (passCapture cursor capture) := by
  unfold passCapture
  split
  · refine ensures_get_bind.mpr ?_
    refine Ensures.bind (Program.typed_refOf h (h.typed.symbolType _))
      fun reference _ _ ⟨h, href⟩ ↦ ?_
    refine Ensures.bind (Cursor.keepsTyped_fresh h href) fun address _ _ h ↦ ?_
    exact Ensures.bind (Cursor.keepsTyped_emit h) fun _ _ _ h ↦ .pure trivial h
  · exact .pure trivial h

theorem keepsTyped_packCaptures (h : start.TypedWith made program) {captures : List Capture}
    {bundle : TypeId} (hbundle : program.HasType bundle) :
    start.KeepsTyped made program (packCaptures cursor captures bundle) := by
  refine h.rebaseSame ?_
  have h := Program.TypedWith.refl h.typed h.apart
  unfold packCaptures
  refine Ensures.bind (.mapM_result (fun _ ↦ trivial) (fun _ _ _ h ↦ keepsTyped_passCapture h) h)
    fun values _ _ h ↦ ?_
  refine Ensures.bind (Cursor.keepsTyped_fresh h (h.type hbundle)) fun packed _ _ h ↦ ?_
  refine Ensures.bind (.forM_result (fun _ ↦ trivial) (fun _ _ _ h ↦ ?_) h) fun _ _ _ h ↦
    .pure trivial h
  exact Ensures.bind (Cursor.keepsTyped_emit h) fun _ _ _ h ↦ .pure trivial h

/-! ### The copy of the iterator -/

theorem keepsTyped_castInstance (h : start.TypedWith made program) {copy : RecursiveCopy}
    {inner : SymId} : start.KeepsTyped made program (castInstance cursor copy inner) := by
  unfold castInstance
  refine ensures_get_bind.mpr ?_
  dsimp only
  split
  · exact .pure trivial h
  · refine Ensures.bind (Cursor.keepsTyped_fresh h (h.typed.symbolType _)) fun cast _ _ h ↦ ?_
    exact Ensures.bind (Cursor.keepsTyped_emit h) fun _ _ _ h ↦ .pure trivial h

theorem keepsTyped_replaceByMembers (h : start.TypedWith made program) {anchor scratch : StmtId} :
    start.KeepsTyped made program (replaceByMembers anchor scratch) :=
  Ensures.bind (h.leaves Edit.leavesTables_spliceBefore.edit) fun _ _ _ h ↦
    h.leaves Edit.leavesTables_remove.edit

theorem keepsTyped_newPlain (h : start.TypedWith made program) :
    start.KeepsTyped made program (modifyGet Program.newScratch : Pass StmtId) :=
  Program.keepsTyped_modifyGet (h.of_sameTables (.newStmt ..))

theorem keepsTyped_newAction (h : start.TypedWith made program) {action : Action} {span : Span} :
    start.KeepsTyped made program (newAction action span) :=
  Program.keepsTyped_modifyGet (h.of_sameTables (.newStmt ..))

theorem keepsTyped_forwardLoop (h : start.TypedWith made program) {copy : RecursiveCopy}
    {id : StmtId} : start.KeepsTyped made program (forwardLoop copy id) := by
  unfold forwardLoop
  refine ensures_get_bind.mpr ?_
  dsimp only
  split
  · exact .pure trivial h
  · split
    · refine Ensures.bind (keepsTyped_newPlain h) fun scratch _ _ h ↦ ?_
      refine Ensures.bind (keepsTyped_castInstance h).build fun source _ _ h ↦ ?_
      refine Ensures.bind (Cursor.keepsTyped_emit h).build fun _ _ _ h ↦ ?_
      exact keepsTyped_replaceByMembers h
    · exact .pure trivial h

theorem keepsTyped_forwardLoops (h : start.TypedWith made program) {copy : RecursiveCopy} :
    start.KeepsTyped made program (forwardLoops copy) :=
  ensures_get_bind.mpr (.forM_result (fun _ ↦ trivial) (fun _ _ _ h ↦ keepsTyped_forwardLoop h) h)

theorem keepsTyped_rebindFormal (h : start.TypedWith made program) {root : StmtId}
    {source formal : SymId} {ordinal : Nat} :
    start.KeepsTyped made program (rebindFormal cursor root source formal ordinal) := by
  unfold rebindFormal
  refine ensures_get_bind.mpr ?_
  split
  · exact .pure trivial h
  · refine Ensures.bind (Cursor.keepsTyped_fresh h (h.typed.symbolType _)) fun copy _ _ h ↦ ?_
    refine Ensures.bind (Program.keepsTyped_modify (h.of_sameTables (.mapSymbolsIn ..)))
      fun _ _ _ h ↦ ?_
    exact Ensures.bind (Cursor.keepsTyped_emit h) fun _ _ _ h ↦ .pure trivial h

theorem keepsTyped_rebindFormals (h : start.TypedWith made program) {root : StmtId}
    {iterator owner : FnId} {source : SymId} :
    start.KeepsTyped made program (rebindFormals root iterator source owner) := by
  unfold rebindFormals
  refine ensures_get_bind.mpr ?_
  refine Ensures.bind (keepsTyped_newPlain h) fun scratch _ _ h ↦ ?_
  refine Ensures.bind (.forM_result (fun _ ↦ trivial)
    (fun _ _ _ h ↦ (keepsTyped_rebindFormal h).build) h) fun _ _ _ h ↦ ?_
  exact h.leaves Edit.leavesTables_spliceAtHead.edit

theorem keepsTyped_localResult (h : start.TypedWith made program) {owner : FnId} {result : SymId}
    {found : FiniteMap StmtId SymId} :
    start.KeepsTyped made program (localResult owner result found block) := by
  unfold localResult
  split
  · exact .pure trivial h
  · refine ensures_get_bind.mpr ?_
    refine Ensures.bind (Program.keepsTyped_modifyGet (h.addSymbol (h.typed.symbolType _)))
      fun copy _ _ h ↦ ?_
    refine Ensures.bind (keepsTyped_newAction h).build fun seed _ _ h ↦ ?_
    refine Ensures.bind (h.leaves Edit.leavesTables_insertAtHead.edit) fun _ _ _ h ↦ ?_
    refine Ensures.bind (keepsTyped_newAction h).build fun declaration _ _ h ↦ ?_
    exact Ensures.bind (h.leaves Edit.leavesTables_insertAtHead.edit) fun _ _ _ h ↦ .pure trivial h

theorem keepsTyped_localizeIn (h : start.TypedWith made program) {owner : FnId} {result : SymId}
    {home : Option StmtId} {found : FiniteMap StmtId SymId} {id : StmtId} :
    start.KeepsTyped made program (localizeIn owner result home found id) := by
  unfold localizeIn
  refine ensures_get_bind.mpr ?_
  split
  · exact .pure trivial h
  · split
    · exact .pure trivial h
    · refine Ensures.bind (keepsTyped_localResult h) fun local' _ _ h ↦ ?_
      exact Ensures.bind (Program.keepsTyped_modify (h.of_sameTables (.modifyStmt ..)))
        fun _ _ _ h ↦ .pure trivial h

theorem keepsTyped_localizeResult (h : start.TypedWith made program) {owner : FnId} {root : StmtId}
    {result : SymId} : start.KeepsTyped made program (localizeResult owner root result) :=
  ensures_get_bind.mpr (Ensures.bind (.foldlM_result (fun _ ↦ trivial)
    (fun _ _ _ _ h ↦ keepsTyped_localizeIn h) h) fun _ _ _ h ↦ .pure trivial h)

theorem keepsTyped_callBack (h : start.TypedWith made program) {copy : RecursiveCopy}
    {valueType : TypeId} (hvalue : program.HasType valueType) {id : StmtId} :
    start.KeepsTyped made program (callBack copy valueType id) := by
  unfold callBack
  refine ensures_get_bind.mpr ?_
  dsimp only
  split
  · refine Ensures.bind (Program.keepsTyped_modifyGet (h.addSymbol hvalue)) fun yielded _ _ h ↦ ?_
    refine Ensures.bind (keepsTyped_newPlain h) fun scratch _ _ h ↦ ?_
    refine Ensures.bind (Cursor.keepsTyped_emit h).build fun _ _ _ h ↦ ?_
    refine Ensures.bind (Cursor.keepsTyped_emit h).build fun _ _ _ h ↦ ?_
    refine Ensures.bind (Cursor.keepsTyped_emit h).build fun _ _ _ h ↦ ?_
    exact keepsTyped_replaceByMembers h
  · exact .pure trivial h

theorem SymbolMap.keepsTyped_cloneMissing (h : start.TypedWith made program) (map : SymbolMap)
    (symbols : List SymId) : start.KeepsTyped made program (map.cloneMissing symbols) := by
  induction symbols generalizing map program with
  | nil => exact .pure trivial h
  | cons symbol rest ih =>
    unfold cloneMissing
    split
    · exact ih h map
    · refine Ensures.bind (Program.keepsTyped_modifyGet ?_) fun clone _ _ h ↦ ih h _
      exact h.addSymbol (h.typed.symbolType symbol)

namespace Program

theorem keepsTyped_copyNode (h : start.TypedWith made program) {map : SymbolMap} {depth : Nat}
    (id : StmtId) : start.KeepsTyped made program (copyNode map depth id) := by
  have hparent {middle : Program} {kind : StmtKind} {span : Span}
      (h : start.TypedWith made middle) : start.KeepsTyped made middle
        (modifyGet fun program ↦ program.newStmt kind span : Build StmtId) :=
    keepsTyped_modifyGet (h.of_sameTables (.newStmt ..))
  induction depth generalizing program id with
  | zero => exact hparent h
  | succ depth ih =>
    unfold copyNode
    refine ensures_get_bind.mpr ?_
    dsimp only
    split
    · rw [pure_bind]
      exact hparent h
    · rename_i condition thenBlock elseBlock _
      refine (ih h thenBlock).bind fun thenCopy _ _ h ↦ ?_
      split
      · rename_i elseBlock _
        refine (ih h elseBlock).bind fun elseCopy _ _ h ↦ ?_
        rw [pure_bind]
        exact hparent h
      · rw [pure_bind]
        exact hparent h
    · rename_i info body _
      refine (Ensures.mapM_result (fun _ ↦ trivial) (fun member _ _ h ↦ ih h member) h).bind
        fun members _ _ h ↦ ?_
      rw [pure_bind]
      exact hparent h

theorem keepsTyped_copyTree (h : start.TypedWith made program) {root : StmtId} {map : SymbolMap} :
    start.KeepsTyped made program (copyTree root map) := by
  unfold copyTree
  refine ensures_get_bind.mpr ?_
  refine Ensures.bind (map.keepsTyped_cloneMissing h _) fun map _ _ h ↦ ?_
  exact Ensures.bind (keepsTyped_copyNode h root) fun copy _ _ h ↦ .pure trivial h

end Program

/-- The copy of an iterator is the next function. -/
theorem typed_buildRecursiveCopy (h : start.TypedWith made program) {iterator : FnId}
    {bundle : TypeId} {span : Span} (hbundle : program.HasType bundle) :
    Ensures (buildRecursiveCopy iterator bundle span) program (fun _ ↦ True)
      fun function final ↦ start.TypedWith (made + 1) final ∧
        function = ⟨program.functions.size⟩ := by
  refine h.rebase ?_
  unfold buildRecursiveCopy
  refine ensures_get_bind.mpr ?_
  refine ensures_require_bind trivial fun info hinfo ↦ ?_
  have hiterator : program.HasFunction iterator := by
    by_contra hnot
    rw [Program.function_of_not_has hnot] at hinfo
    cases hinfo
  have hclass := h.typed.instances hiterator hinfo
  have hreturned := h.typed.returned hiterator
  refine Ensures.bind (typed_newGenerated (.refl h.typed h.apart)).build
    fun function _ _ ⟨h, hfunction⟩ ↦ ?_
  refine Ensures.bind (Program.keepsTyped_modifyGet (h.addFormal function _ (h.type hclass)))
    fun source _ _ h ↦ ?_
  refine Ensures.bind (Program.keepsTyped_modifyGet (h.addFormal function _ h.typed.int))
    fun callback _ _ h ↦ ?_
  refine Ensures.bind (Program.keepsTyped_modifyGet (h.addFormal function _ (h.type hbundle)))
    fun packed _ _ h ↦ ?_
  dsimp only
  refine Ensures.bind (Program.keepsTyped_copyTree h).build fun (body, renamed) _ _ h ↦ ?_
  refine ensures_get_bind.mpr ?_
  refine Ensures.bind (h.leaves Edit.leavesTables_replace.edit) fun _ _ _ h ↦ ?_
  refine Ensures.bind (keepsTyped_forwardLoops h) fun _ _ _ h ↦ ?_
  refine Ensures.bind (keepsTyped_rebindFormals h) fun _ middle _ h ↦ ?_
  -- The steps after the result symbol has been localized, or where there is none.
  have hrest : ∀ middle : Program, program.TypedWith 1 middle → Ensures (do
        ((← get).yieldsIn body).forM (callBack
          { function, iterator, source, callback, bundle := packed }
          (program.function iterator).retType)
        let program ← get
        ((program.walk body).filter fun id => (program.kind id).isReturn).forM fun id =>
          (Edit.remove id : Edit Unit)
        let _ ← Edit.push body (.action (.ret .void)) span
        modify fun program => program.claimLocals function body
        return function : Pass FnId) middle (fun _ ↦ True) fun function final ↦
      program.TypedWith 1 final ∧ function = ⟨program.functions.size⟩ := by
    intro middle h
    refine ensures_get_bind.mpr ?_
    refine Ensures.bind (.forM_result (fun _ ↦ trivial)
      (fun _ _ _ h ↦ keepsTyped_callBack h (h.type hreturned)) h) fun _ _ _ h ↦ ?_
    refine ensures_get_bind.mpr ?_
    refine Ensures.bind (.forM_result (fun _ ↦ trivial)
      (fun _ _ _ h ↦ h.leaves Edit.leavesTables_remove.edit) h) fun _ _ _ h ↦ ?_
    refine Ensures.bind (h.leaves Edit.leavesTables_push.edit) fun _ _ _ h ↦ ?_
    exact Ensures.bind (Program.keepsTyped_modify (h.claimLocals ..)) fun _ _ _ h ↦
      .pure trivial ⟨h, hfunction⟩
  cases (program.function iterator).retSym with
  | none => exact hrest middle h
  | some result =>
    exact Ensures.bind (keepsTyped_localizeResult h) fun _ middle _ h ↦ hrest middle h

end IteratorLowering
