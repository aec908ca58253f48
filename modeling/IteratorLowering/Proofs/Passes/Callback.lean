import IteratorLowering.Lowering.Callback
import IteratorLowering.Proofs.Passes.LoopBody

/-!
# Callbacks within a scope

Lowering a loop over a recursive iterator moves the loop into a function of its own
(`Program.MovesOut`). Everything else is new: the wrapper of that function, the copy of the
iterator, in which loops and yields become calls, and the call that stands where the loop was.
-/

set_option autoImplicit false
set_option relaxedAutoImplicit false

namespace IteratorLowering

variable {scope : Scope} {program : Program}

/-! ### The wrapper -/

theorem stays_newBundle {loopBody : FnId} : Stays scope program (newBundle loopBody) :=
  ensures_get_bind.mpr (stays_modifyGet (.addType _))

theorem stays_readFields {cursor : Cursor} {record : SymId} {fields : List FieldDef}
    (hfit : scope.Fits program) : Stays scope program (readFields cursor record fields) :=
  hfit.mapM fun _ _ _ hfit ↦ by
    refine hfit.seq (Cursor.stays_fresh hfit) fun value _ hfit ↦ ?_
    exact hfit.seq (Cursor.stays_assign hfit) fun _ _ _ ↦ .stay trivial

theorem stays_buildWrapper {caller loopBody : FnId} {bundle : TypeId} {span : Span}
    (hfit : scope.Fits program) :
    Stays scope program (buildWrapper caller loopBody bundle span) := by
  unfold buildWrapper
  refine ensures_get_bind.mpr ?_
  refine Ensures.seq (.build ensures_newGenerated) fun wrapper first h hmade ↦ ?_
  have hfit := hfit.after h
  have hplain := hmade.2.1
  refine ensures_require_bind (.refl scope first) fun indexType _ ↦ ?_
  have hsofar := Program.Reworks.refl scope first
  refine hsofar.next (stays_modifyGet (.addFormal hplain _ _)) fun index _ hsofar _ ↦ ?_
  refine hsofar.next (stays_modifyGet (.refOf _)) fun reference _ hsofar _ ↦ ?_
  refine hsofar.next (stays_modifyGet (.addFormal (hsofar.grows.isPlain hplain) _ _))
    fun packed _ hsofar _ ↦ ?_
  have hfit := hfit.after hsofar
  refine ensures_get_bind.mpr ?_
  refine hfit.seq (.build (Cursor.stays_fresh hfit)) fun unpacked _ hfit ↦ ?_
  refine hfit.seq (.build (Cursor.stays_assign hfit)) fun _ _ hfit ↦ ?_
  refine hfit.seq (.build (stays_readFields hfit)) fun values _ hfit ↦ ?_
  refine hfit.seq (.build (Cursor.stays_call hfit)) fun _ _ hfit ↦ ?_
  exact hfit.seq (.build (Cursor.stays_ret hfit)) fun _ _ _ ↦ .stay trivial

theorem stays_passCapture {cursor : Cursor} {capture : Capture} (hfit : scope.Fits program) :
    Stays scope program (passCapture cursor capture) := by
  unfold passCapture
  split
  · refine ensures_get_bind.mpr ?_
    refine hfit.seq (stays_modifyGet (.refOf _)) fun reference _ hfit ↦ ?_
    refine hfit.seq (Cursor.stays_fresh hfit) fun address _ hfit ↦ ?_
    exact hfit.seq (Cursor.stays_assign hfit) fun _ _ _ ↦ .stay trivial
  · exact .stay trivial

theorem stays_packCaptures {cursor : Cursor} {captures : List Capture} {bundle : TypeId}
    (hfit : scope.Fits program) : Stays scope program (packCaptures cursor captures bundle) := by
  unfold packCaptures
  refine hfit.seq (hfit.mapM fun _ _ _ hfit ↦ stays_passCapture hfit) fun values _ hfit ↦ ?_
  refine hfit.seq (Cursor.stays_fresh hfit) fun packed _ hfit ↦ ?_
  refine hfit.seq (hfit.forM fun _ _ _ hfit ↦ (Cursor.stays_setField hfit).ignore) fun _ _ _ ↦ ?_
  exact .stay trivial

/-! ### The copy of the iterator -/

theorem stays_castInstance {cursor : Cursor} {copy : RecursiveCopy} {inner : SymId}
    (hfit : scope.Fits program) : Stays scope program (castInstance cursor copy inner) := by
  unfold castInstance
  refine ensures_get_bind.mpr ?_
  dsimp only
  split
  · exact .stay trivial
  · refine hfit.seq (Cursor.stays_fresh hfit) fun cast _ hfit ↦ ?_
    exact hfit.seq (Cursor.stays_assign hfit) fun _ _ _ ↦ .stay trivial

/-- A statement that may be moved may be replaced by the members of a block. -/
theorem stays_replaceByMembers {anchor scratch : StmtId} (hfit : scope.Fits program)
    (hscratch : scope.moved scratch) (hanchor : program.Has anchor)
    (hmovable : program.Movable scope anchor) :
    Stays scope program (replaceByMembers anchor scratch) := by
  unfold replaceByMembers
  refine Ensures.seq (Edit.fits_spliceBefore hfit hscratch).edit fun _ _ h _ ↦ ?_
  exact (Edit.ensures_remove (h.movable hanchor hmovable)).stays.edit

theorem Program.has_of_reyielded {block : StmtId} {inner : SymId}
    (h : program.reyieldedIterator? block = some inner) : program.Has block := by
  obtain ⟨header, hheader, _⟩ := Option.bind_eq_some_iff.mp h
  exact has_of_forHeader hheader

theorem stays_forwardLoop {copy : RecursiveCopy} {id : StmtId} (hfit : scope.Fits program)
    (hmovable : program.Movable scope id) : Stays scope program (forwardLoop copy id) := by
  unfold forwardLoop
  refine ensures_get_bind.mpr ?_
  dsimp only
  split
  · exact .stay trivial
  · rename_i inner hinner
    split
    · have hsofar := Program.Reworks.refl scope program
      refine hsofar.next (Program.ensures_newPlain hfit .none) fun scratch _ hsofar hscratch ↦ ?_
      refine hsofar.next (.build (stays_castInstance (hfit.after hsofar)))
        fun source _ hsofar _ ↦ ?_
      refine hsofar.next (.build (Cursor.stays_call (hfit.after hsofar))) fun _ _ hsofar _ ↦ ?_
      exact stays_replaceByMembers (hfit.after hsofar) hscratch.1
        (hsofar.has (Program.has_of_reyielded hinner)) (hfit.movable_after hsofar hmovable)
    · exact .stay trivial

theorem stays_forwardLoops {copy : RecursiveCopy} (hfit : scope.Fits program)
    (hbody : scope.moved (program.bodyOf copy.function)) :
    Stays scope program (forwardLoops copy) := by
  refine ensures_get_bind.mpr (.forM fun id hid middle h ↦ ?_)
  exact stays_forwardLoop (hfit.after h)
    (hfit.movable_after h (hfit.movable_of_mem_walk hbody hid))

theorem stays_localResult {owner : FnId} {result : SymId} {made : FiniteMap StmtId SymId}
    {block : StmtId} : Stays scope program (localResult owner result made block) := by
  unfold localResult
  split
  · exact .stay trivial
  · refine ensures_get_bind.mpr ?_
    refine Ensures.seq (stays_modifyGet (.addSymbol _)) fun copy _ _ _ ↦ ?_
    refine Ensures.seq (.build ensures_newAction) fun seed _ _ hseed ↦ ?_
    refine Ensures.seq (Edit.ensures_insertAtHead hseed).edit fun _ _ _ _ ↦ ?_
    refine Ensures.seq (.build ensures_newAction) fun declaration _ _ hdeclaration ↦ ?_
    exact Ensures.seq (Edit.ensures_insertAtHead hdeclaration).edit fun _ _ _ _ ↦ .stay trivial

theorem stays_localizeIn {owner : FnId} {result : SymId} {home : Option StmtId}
    {made : FiniteMap StmtId SymId} {id : StmtId} (hfit : scope.Fits program)
    (hmovable : program.Movable scope id) :
    Stays scope program (localizeIn owner result home made id) := by
  unfold localizeIn
  refine ensures_get_bind.mpr ?_
  split
  · exact .stay trivial
  · split
    · exact .stay trivial
    · refine Ensures.seq stays_localResult fun local' _ h _ ↦ ?_
      refine Ensures.seq (stays_modify (.mapSymbols id _ fun hloop ↦ ?_)) fun _ _ _ _ ↦
        .stay trivial
      have hmovable := hfit.movable_after h hmovable
      refine hfit.marked (hmovable.resolve_right ?_)
      simp [StmtKind.isAction_eq_false_of_isForLoop hloop]

theorem stays_localizeResult {owner : FnId} {root : StmtId} {result : SymId}
    (hfit : scope.Fits program) (hroot : scope.moved root) :
    Stays scope program (localizeResult owner root result) := by
  refine ensures_get_bind.mpr (Ensures.ignore (.foldlM fun id hid made middle h ↦ ?_))
  have hid := (List.mem_filter.mp hid).1
  exact stays_localizeIn (hfit.after h) (hfit.movable_after h (hfit.movable_of_mem_walk hroot hid))

theorem stays_callBack {copy : RecursiveCopy} {valueType : TypeId} {id : StmtId}
    (hfit : scope.Fits program) : Stays scope program (callBack copy valueType id) := by
  unfold callBack
  refine ensures_get_bind.mpr ?_
  dsimp only
  split
  · rename_i value hkind
    have hsofar := Program.Reworks.refl scope program
    refine hsofar.next (stays_modifyGet (.addSymbol _)) fun yielded _ hsofar _ ↦ ?_
    refine hsofar.next (Program.ensures_newPlain (hfit.after hsofar) .none)
      fun scratch _ hsofar hscratch ↦ ?_
    refine hsofar.next (.build (Cursor.stays_define (hfit.after hsofar))) fun _ _ hsofar _ ↦ ?_
    refine hsofar.next (.build (Cursor.stays_assign (hfit.after hsofar))) fun _ _ hsofar _ ↦ ?_
    refine hsofar.next (.build (Cursor.stays_evaluate (hfit.after hsofar))) fun _ _ hsofar _ ↦ ?_
    have hmovable : program.Movable scope id := .inr (by rw [hkind]; rfl)
    exact stays_replaceByMembers (hfit.after hsofar) hscratch.1 (hsofar.has (has_of_yield hkind))
      (hfit.movable_after hsofar hmovable)
  · exact .stay trivial

/-- What is done with the copy of the iterator once it is the body of the new function. -/
theorem stays_finishCopy {copy : RecursiveCopy} {definition : FnDef} {body : StmtId}
    {renamed : SymbolMap} {span : Span} (hfit : scope.Fits program)
    (hfunction : scope.moved (program.bodyOf copy.function)) (hbody : scope.moved body) :
    Stays scope program (do
      forwardLoops copy
      rebindFormals body copy.iterator copy.source copy.function
      if let some result := definition.retSym then
        localizeResult copy.function body (renamed.resolve result)
      ((← get).yieldsIn body).forM (callBack copy definition.retType)
      let program ← get
      ((program.walk body).filter fun id => (program.kind id).isReturn).forM fun id =>
        (Edit.remove id : Edit Unit)
      let _ ← Edit.push body (.action (.ret .void)) span
      modify fun program => program.claimLocals copy.function body
      return copy.function : Pass FnId) := by
  refine hfit.seq (stays_forwardLoops hfit hfunction) fun _ _ hfit ↦ ?_
  refine hfit.seq (stays_rebindFormals hfit (.inl hbody)) fun _ middle hfit ↦ ?_
  -- The steps after the result symbol has been localized, or where there is none.
  have hrest : ∀ middle : Program, scope.Fits middle → Stays scope middle (do
      ((← get).yieldsIn body).forM (callBack copy definition.retType)
      let program ← get
      ((program.walk body).filter fun id => (program.kind id).isReturn).forM fun id =>
        (Edit.remove id : Edit Unit)
      let _ ← Edit.push body (.action (.ret .void)) span
      modify fun program => program.claimLocals copy.function body
      return copy.function : Pass FnId) := by
    intro middle hfit
    refine ensures_get_bind.mpr ?_
    refine hfit.seq (hfit.forM fun _ _ _ hfit ↦ stays_callBack hfit) fun _ called hfit ↦ ?_
    refine ensures_get_bind.mpr ?_
    refine hfit.seq (.forM fun id hid state h ↦ ?_) fun _ _ hfit ↦ ?_
    · have haction := StmtKind.isAction_of_isReturn (List.mem_filter.mp hid).2
      exact (Edit.ensures_remove (hfit.movable_after h (.inr haction))).stays.edit
    refine hfit.seq Edit.stays_pushAction.edit fun _ _ hfit ↦ ?_
    exact hfit.seq (stays_modify (.claimLocals copy.function body)) fun _ _ _ ↦ .stay trivial
  cases definition.retSym with
  | none => exact hrest middle hfit
  | some result =>
    exact hfit.seq (stays_localizeResult hfit hbody) fun _ middle hfit ↦ hrest middle hfit

/-- The copy of the iterator becomes the body of a new function. -/
theorem stays_buildRecursiveCopy {iterator : FnId} {bundle : TypeId} {span : Span}
    (hlooping : scope.looping) (hfit : scope.Fits program) :
    Stays scope.rooted program (buildRecursiveCopy iterator bundle span) := by
  unfold buildRecursiveCopy
  refine ensures_get_bind.mpr ?_
  refine ensures_require_bind (.refl _ program) fun info _ ↦ ?_
  have hle := scope.le_rooted
  have hsofar := Program.Reworks.refl scope program
  refine hsofar.nextWithin hle (.build ensures_newGenerated) fun function first hfirst hmade ↦ ?_
  obtain ⟨_, hplain, hbody⟩ := hmade
  have hbody := hfit.new hbody
  have hsofar := Program.Reworks.refl scope first
  refine hsofar.nextWithin hle (stays_modifyGet (.addFormal hplain _ _)) fun source _ hsofar _ ↦ ?_
  refine hsofar.nextWithin hle (stays_modifyGet (.addFormal (hsofar.grows.isPlain hplain) _ _))
    fun callback _ hsofar _ ↦ ?_
  refine hsofar.nextWithin hle (stays_modifyGet (.addFormal (hsofar.grows.isPlain hplain) _ _))
    fun packed second hsofar _ ↦ ?_
  dsimp only
  have hfit' := hfit.after (hfirst.trans hsofar)
  refine hsofar.nextWithin hle (.build (Program.ensures_copyTree hlooping hfit'))
    fun copied third hsofar hcopied ↦ ?_
  obtain ⟨body, renamed⟩ := copied
  have hcopy : scope.moved body := hfit'.new hcopied.new
  have hfit' := hfit.after (hfirst.trans hsofar)
  refine ensures_get_bind.mpr ?_
  rw [← hsofar.body hfit.calm hplain.has] at hbody
  have hfunction := (hsofar.grows.isPlain hplain).has
  have hloose : third.Loose scope.rooted body :=
    ⟨hcopied.detached.has, hcopied.detached.owner, .inl hcopy⟩
  refine Ensures.seq (Edit.ensures_replace hfit'.wellLinked hloose
    (.inl (hfit'.wellLinked.has_body hfunction)) (.inl hbody) (.inl trivial)).edit
    fun _ fourth hreplaced hresult ↦ ?_
  refine Stays.rooted (stays_finishCopy (hfit'.afterRooted hreplaced) ?_ hcopy)
  rcases hresult.2.2 function with hsame | hsame
  · rwa [hsame]
  · rwa [hsame]

/-! ### The loop -/

variable {block : StmtId}

namespace Program

theorem MovesOut.after {middle final : Program}
    (hbefore : program.Reworks (Scope.around program block) middle)
    (h : middle.MovesOut block final) : program.MovesOut block final := by
  obtain ⟨moved, hextracted, hfinal⟩ := h
  obtain ⟨function, hnew, hinside⟩ := hextracted.inside
  refine ⟨moved, ⟨(hbefore.mono ?_).trans (hextracted.reworks.mono ?_), hextracted.unmarked,
    function, fun hfunction ↦ hnew (hbefore.grows.function hfunction).1, hinside⟩, hfinal⟩
  · exact ⟨.inl, id, id, id⟩
  · exact ⟨.imp_left (mt hbefore.has), .imp_left (mt hbefore.has), id, id⟩

/-- What comes after a loop was moved out leaves it where it is. -/
theorem MovesOut.next {α β : Type} {first : Pass α} {rest : α → Pass β} (hfit : scope.Fits program)
    (h : Ensures first program (program.Reworks scope) fun _ final ↦ program.MovesOut block final)
    (hrest : ∀ value middle, ∀ {scope : Scope}, scope.Fits middle →
      Stays scope middle (rest value)) :
    Ensures (first >>= rest) program (program.Reworks scope)
      fun _ final ↦ program.MovesOut block final := by
  refine h.seq fun value middle hmiddle ⟨moved, hextracted, hmoved⟩ ↦ ?_
  have hlinked := hextracted.reworks.wellLinked hfit.wellLinked
  have hfit' := (Scope.fits_relabeling hlinked).afterRooted hmoved
  refine ((hrest value middle (hfit.after hmiddle)).and (hrest value middle hfit')).mono
    (fun _ h ↦ h.1) fun _ final hfinal _ ↦ ⟨moved, hextracted, hmoved.trans ?_⟩
  exact hfinal.2.mono (Scope.le_rooted _)

end Program

theorem ensures_buildCallback {caller : FnId} {index : SymId} {span : Span}
    (hlooping : scope.looping) (hfit : scope.Fits program) (hblock : scope.moved block)
    (hhas : program.Has block) (howner : (program.stmt block).bodyOf = none) :
    Ensures (buildCallback caller block index span) program (program.Reworks scope)
      fun _ final ↦ program.MovesOut block final := by
  refine Program.MovesOut.next hfit (ensures_extractLoopBody hlooping hfit hblock hhas howner) ?_
  intro extracted middle scope hfit
  refine hfit.seq (.build stays_newBundle) fun bundle _ hfit ↦ ?_
  refine hfit.seq (stays_buildWrapper hfit) fun wrapper _ hfit ↦ ?_
  exact hfit.seq (stays_modifyGet (.setTable _)) fun _ _ _ ↦ .stay trivial

/-- What a lowering has in common with a state in which it was before: the program is reworked
within a scope, and it was told the same and has left as many loops. -/
structure LoweringState.Reworks (scope : Scope) (state final : LoweringState) : Prop where
  program : state.program.Reworks scope final.program
  config : final.context.config = state.context.config
  recursive : final.context.recursive = state.context.recursive
  left : final.context.summary.leftForStateMachine = state.context.summary.leftForStateMachine

namespace LoweringState.Reworks

variable {state middle final : LoweringState}

theorem refl (scope : Scope) (state : LoweringState) : state.Reworks scope state :=
  ⟨.refl scope state.program, rfl, rfl, rfl⟩

theorem trans (first : state.Reworks scope middle) (second : middle.Reworks scope final) :
    state.Reworks scope final :=
  ⟨first.program.trans second.program, second.config.trans first.config,
    second.recursive.trans first.recursive, second.left.trans first.left⟩

theorem mono {scope' : Scope} (hle : scope.Le scope') (h : state.Reworks scope final) :
    state.Reworks scope' final :=
  ⟨h.program.mono hle, h.config, h.recursive, h.left⟩

instance : IsPreorder LoweringState (LoweringState.Reworks scope) where
  refl := refl scope
  trans _ _ _ := trans

end LoweringState.Reworks

/-- A pass leaves the context of a lowering alone. -/
theorem Ensures.lowering {α : Type} {pass : Pass α} {state : LoweringState}
    {result : α → Program → Prop}
    (h : Ensures pass state.program (state.program.Reworks scope) result) :
    Ensures (liftM pass : Lowering α) state (state.Reworks scope)
      fun value final ↦ result value final.program :=
  ensures_asLowering.mpr (h.mono (fun _ h ↦ ⟨h, rfl, rfl, rfl⟩) fun _ _ _ h ↦ h)

/-- One step further in a lowering that stays within a scope and has stayed within a smaller one so
far. -/
theorem Program.Reworks.nextLowering {α β : Type} {scope' : Scope} {start : Program}
    {state : LoweringState} {pass : Pass α} {rest : α → Lowering β} {result : α → Program → Prop}
    {final : β → LoweringState → Prop} (hle : scope.Le scope')
    (hsofar : start.Reworks scope state.program)
    (h : Ensures pass state.program (state.program.Reworks scope) result)
    (hrest : ∀ value middle, start.Reworks scope middle.program → result value middle.program →
      Ensures (rest value) middle (middle.Reworks scope') final) :
    Ensures (liftM pass >>= rest : Lowering β) state (state.Reworks scope') final :=
  Ensures.seq (Ensures.lowering (h.within hle)) fun value middle _ h ↦
    hrest value middle (hsofar.trans h.1) h.2

theorem ensures_count {change : Summary → Summary} {state : LoweringState}
    (h : ∀ summary, (change summary).leftForStateMachine = summary.leftForStateMachine) :
    Ensures (Lowering.count change) state (state.Reworks scope) fun _ _ ↦ True :=
  ensures_modify.mpr ⟨⟨.refl scope state.program, rfl, rfl, h _⟩, trivial⟩

theorem ensures_remember {entry : GeneratedIterator} {state : LoweringState} :
    Ensures (Lowering.remember entry) state (state.Reworks scope) fun _ _ ↦ True :=
  ensures_modify.mpr ⟨⟨.refl scope state.program, rfl, rfl, rfl⟩, trivial⟩

theorem ensures_recursiveCallee {cursor : Cursor} {iterator loopBody : FnId} {bundle : TypeId}
    {packed : SymId} {state : LoweringState} (hlooping : scope.looping)
    (hfit : scope.Fits state.program) :
    Ensures (recursiveCallee cursor iterator loopBody bundle packed) state
      (state.Reworks scope.rooted) fun _ _ ↦ True := by
  unfold recursiveCallee
  refine ensures_get_bind.mpr ?_
  split
  · refine Ensures.seq (Ensures.lowering stays_require) fun expected middle h _ ↦ ?_
    have hfit' := hfit.afterRooted h.program
    refine Ensures.seq (Ensures.lowering (.build (Stays.rooted ?_))) fun _ _ _ _ ↦ .stay trivial
    refine hfit'.seq (Cursor.stays_fresh hfit') fun cast _ hfit' ↦ ?_
    exact hfit'.seq (Cursor.stays_assign hfit') fun _ _ _ ↦ .stay trivial
  · refine Ensures.seq (Ensures.lowering (stays_buildRecursiveCopy hlooping hfit))
      fun generated _ _ _ ↦ ?_
    refine Ensures.seq ensures_remember fun _ _ _ _ ↦ ?_
    exact Ensures.seq (ensures_count fun _ ↦ rfl) fun _ _ _ _ ↦ .stay trivial

/-- What is put in the place of a loop that was moved out. -/
theorem ensures_callSite {caller : FnId} {span : Span} {anchor : StmtId}
    {captures : List Capture} {iterator loopBody : FnId} {bundle : TypeId} {source : SymId}
    {slot : Nat} {state : LoweringState} (hlooping : scope.looping)
    (hfit : scope.Fits state.program) (hanchor : state.program.Has anchor)
    (haction : (state.program.kind anchor).isAction = true) :
    Ensures (do
      let site ← (modifyGet Program.newScratch : Pass StmtId)
      let cursor : Cursor := { function := caller, block := site, span }
      let packed ← (packCaptures cursor captures bundle : Pass SymId)
      let (callee, argument) ← recursiveCallee cursor iterator loopBody bundle packed
      let _ ← (cursor.call callee [.sym source, .int (Int64.ofNat slot), .sym argument] :
        Pass StmtId)
      replaceByMembers anchor site : Lowering Unit) state (state.Reworks scope.rooted)
      fun _ _ ↦ True := by
  refine Ensures.seq (Ensures.lowering (Ensures.rooted
    (Program.ensures_newPlain hfit .none))) fun site first hfirst hsite ↦ ?_
  have hfit' := hfit.afterRooted hfirst.program
  refine Ensures.seq (Ensures.lowering (Stays.rooted (.build (stays_packCaptures hfit'))))
    fun packed second hsecond _ ↦ ?_
  have hfit' := hfit'.afterRooted hsecond.program
  refine Ensures.seq (ensures_recursiveCallee hlooping hfit') fun called third hthird _ ↦ ?_
  have hfit' := hfit'.afterRooted hthird.program
  refine Ensures.seq (Ensures.lowering (Stays.rooted (.build (Cursor.stays_call hfit'))))
    fun _ fourth hfourth _ ↦ ?_
  have hfit' := hfit'.afterRooted hfourth.program
  have hsofar := ((hfirst.trans hsecond).trans hthird).trans hfourth
  have hmovable := (hsofar.program.isAction hanchor).trans haction
  exact Ensures.lowering (Stays.rooted (stays_replaceByMembers hfit' hsite.2.1
    (hsofar.program.has hanchor) (.inr hmovable)))

/-- A loop whose body becomes a callback is moved out of its function. -/
theorem ensures_lowerWithCallback {state : LoweringState} (hlooping : scope.looping)
    (hfit : scope.Fits state.program) (hblock : scope.moved block) :
    Ensures (lowerWithCallback block) state (state.Reworks scope.rooted)
      fun _ final ↦ state.program.MovesOut block final.program := by
  have hle : (Scope.around state.program block).Le scope.rooted := by
    refine ⟨hfit.new, fun h ↦ ?_, False.elim, fun _ ↦ hlooping⟩
    exact h.elim (fun hnew ↦ hfit.marked (hfit.new hnew)) fun heq ↦ heq ▸ hfit.marked hblock
  unfold lowerWithCallback
  have hsofar := Program.Reworks.refl (Scope.around state.program block) state.program
  refine hsofar.nextLowering hle ensures_loopHeader fun header _ hsofar hheader ↦ ?_
  obtain ⟨index, source⟩ := header
  refine ensures_get_bind.mpr ?_
  refine hsofar.nextLowering hle ensures_loopOwner fun caller _ hsofar _ ↦ ?_
  refine hsofar.nextLowering hle ensures_instanceIterator fun iterator _ hsofar _ ↦ ?_
  refine hsofar.nextLowering hle (.build ensures_newAction_kind) fun anchor made hsofar hanchor ↦ ?_
  refine hsofar.nextLowering hle (Edit.ensures_insertBefore hanchor.1).tagged.edit
    fun _ inserted hsofar hinserted ↦ ?_
  obtain ⟨hinsert, -, parent, -, hparent⟩ := hinserted
  have hreworks := hsofar.mono hle
  have hfit' := hfit.afterRooted hreworks
  refine Ensures.seq (Ensures.lowering (Ensures.rooted (ensures_buildCallback hlooping hfit' hblock
    (Program.has_of_parent hparent) (hfit'.wellLinked.ownerless_of_parent hparent))))
      fun callback extracted h hextracted ↦ ?_
  obtain ⟨loopBody, slot, bundle, captures⟩ := callback
  obtain ⟨moved, hmoved, hrenamed⟩ := hextracted.2.after hsofar
  have hlinked := hmoved.reworks.wellLinked hfit.wellLinked
  have hfit'' := (Scope.fits_relabeling hlinked).afterRooted hrenamed
  have hhasAnchor := h.program.has (hinsert.has hanchor.1.has)
  have haction : (extracted.program.kind anchor).isAction = true := by
    rw [h.program.isAction (hinsert.has hanchor.1.has), hinsert.isAction hanchor.1.has, hanchor.2]
  refine ((ensures_callSite hlooping (hfit'.afterRooted h.program) hhasAnchor haction).and
    (ensures_callSite trivial hfit'' hhasAnchor haction)).mono (fun _ h ↦ h.1)
      fun _ final hfinal _ ↦ ⟨moved, hmoved, hrenamed.trans hfinal.2.program⟩

end IteratorLowering
