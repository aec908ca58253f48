import IteratorLowering.Instance.HelperArgs
import IteratorLowering.Instance.Ordinals
import IteratorLowering.Instance.Routines
import IteratorLowering.Instance.SubtypeDispatch
import IteratorLowering.Proofs.Passes.Inlining

/-!
# Finishing instances within a scope

The passes over iterator instances change actions where they stand and make new statements. The
only statements that get another place are the bodies of the routines that are rebuilt
(`Program.IsRoutine`): each of them is replaced by a new one (`ensures_rebuildRoutine`).
-/

set_option autoImplicit false
set_option relaxedAutoImplicit false

namespace IteratorLowering

variable {scope : Scope} {program : Program}

/-! ### Ordinals -/

theorem ensures_resolveOrdinal {base : SymId} {ordinal : Nat} {span : Span} :
    Ensures (resolveOrdinal base ordinal span) program (Eq program) fun _ _ ↦ True :=
  ensures_get_bind.mpr (ensures_require rfl fun _ _ ↦ trivial)

theorem ensures_resolveAddress {target base : SymId} {ordinal : Nat} {span : Span} :
    Ensures (resolveAddress target base ordinal span) program (Eq program) fun _ _ ↦ True := by
  refine Ensures.seq ensures_resolveOrdinal fun found middle _ _ ↦ ?_
  refine ensures_get_bind.mpr ?_
  dsimp only
  split
  · exact .stay trivial
  · split
    · exact .stay trivial
    · exact ensures_fault.mpr rfl

/-- Looking up ordinals changes nothing. -/
theorem ensures_resolveAction {action : Action} {span : Span} :
    Ensures (resolveAction action span) program (Eq program) fun _ _ ↦ True := by
  unfold resolveAction
  split
  · exact Ensures.seq ensures_resolveAddress fun _ _ _ _ ↦ .stay trivial
  · exact Ensures.seq ensures_resolveOrdinal fun _ _ _ _ ↦ .stay trivial
  · exact Ensures.seq ensures_resolveOrdinal fun _ _ _ _ ↦ .stay trivial
  · exact ensures_fault.mpr rfl
  · exact .stay trivial

theorem stays_resolveStatement {count : Nat} {id : StmtId} :
    Stays scope program (resolveStatement count id) := by
  unfold resolveStatement
  refine ensures_get_bind.mpr ?_
  split
  · rename_i action hkind
    refine Ensures.seq ensures_resolveAction.unchanged fun resolved middle _ hsame ↦ ?_
    obtain ⟨rfl, -⟩ := hsame
    split
    · exact Ensures.seq (stays_modify (.setAction (by rw [hkind]; rfl) _)) fun _ _ _ _ ↦
        .stay trivial
    · exact .stay trivial
  · exact .stay trivial
  · exact .stay trivial

theorem stays_resolveOrdinals : Stays scope program resolveOrdinals :=
  ensures_get_bind.mpr (.foldlM fun _ _ _ _ _ ↦ stays_resolveStatement)

/-! ### Arguments of dispatch helpers -/

theorem stays_readFormalField {helper : FnId} {iterator formal : SymId} {call : StmtId}
    {position : Nat} :
    Stays scope program (readFormalField helper iterator call formal position) := by
  unfold readFormalField
  refine ensures_get_bind.mpr ?_
  refine Ensures.seq stays_require fun field _ _ _ ↦ ?_
  -- However the value is read, it goes into a new local before the call.
  have hread : ∀ (value : Expr) (middle : Program), Stays scope middle (do
      let copy ← modifyGet fun current =>
        current.newLocal helper "_field" (program.symbolType formal)
      let declaration ← newAction (.define copy) (program.span call)
      Edit.insertBefore call declaration
      let read ← newAction (.assign copy value) (program.span call)
      Edit.insertBefore call read
      return copy : Pass SymId) := by
    intro value middle
    refine Ensures.seq (stays_modifyGet (.addSymbol _)) fun copy _ _ _ ↦ ?_
    refine Ensures.seq (.build ensures_newAction) fun declaration _ _ hdeclaration ↦ ?_
    refine Ensures.seq (Edit.ensures_insertBefore hdeclaration).edit fun _ _ _ _ ↦ ?_
    refine Ensures.seq (.build ensures_newAction) fun read _ _ hread ↦ ?_
    exact Ensures.seq (Edit.ensures_insertBefore hread).edit fun _ _ _ _ ↦ .stay trivial
  dsimp only
  split
  · rw [pure_bind]
    exact hread _ _
  · split
    · rw [pure_bind]
      exact hread _ _
    · exact ensures_throw_bind.mpr (.refl scope _)

theorem stays_replaceForeign {helper : FnId} {iterator : SymId} {call : StmtId} {position : Nat}
    {args : List Operand} :
    Stays scope program (replaceForeign helper iterator call position args) := by
  induction args generalizing program position with
  | nil => exact .stay trivial
  | cons arg rest ih =>
    unfold replaceForeign
    refine ensures_get_bind.mpr ?_
    split
    · refine Ensures.seq stays_readFormalField fun copy _ _ _ ↦ ?_
      exact Ensures.seq ih fun _ _ _ _ ↦ .stay trivial
    · exact Ensures.seq ih fun _ _ _ _ ↦ .stay trivial

namespace StmtKind

theorem children_withCallArgs (args : List Operand) (kind : StmtKind) :
    (kind.withCallArgs args).children = kind.children := by
  unfold withCallArgs
  split <;> rfl

theorem isAction_withCallArgs (args : List Operand) (kind : StmtKind) :
    (kind.withCallArgs args).isAction = kind.isAction := by
  unfold withCallArgs
  split <;> rfl

theorem loopHeader?_withCallArgs (args : List Operand) (kind : StmtKind) :
    (kind.withCallArgs args).loopHeader? = kind.loopHeader? := by
  unfold withCallArgs
  split <;> rfl

end StmtKind

theorem stays_readHelperCall {helper : FnId} {iterator : SymId} {count : Nat} {call : StmtId} :
    Stays scope program (readHelperCall helper iterator count call) := by
  unfold readHelperCall
  refine ensures_get_bind.mpr ?_
  dsimp only
  split
  · exact .stay trivial
  · refine Ensures.seq stays_replaceForeign fun replaced _ _ _ ↦ ?_
    refine Ensures.seq (stays_modify (.setKind call ?_ ?_ (.inl ?_))) fun _ _ _ _ ↦ .stay trivial
    · exact StmtKind.children_withCallArgs ..
    · exact StmtKind.isAction_withCallArgs ..
    · exact StmtKind.loopHeader?_withCallArgs ..

theorem stays_readHelper {count : Nat} {helper : FnId} :
    Stays scope program (readHelper count helper) := by
  unfold readHelper
  refine ensures_get_bind.mpr ?_
  split
  · exact .stay trivial
  · exact .foldlM fun _ _ _ _ _ ↦ stays_readHelperCall

theorem stays_readHelperArgs : Stays scope program readHelperArgs :=
  ensures_get_bind.mpr (.foldlM fun _ _ _ _ _ ↦ stays_readHelper)

/-! ### Tests for subtypes -/

theorem stays_fieldCopies {base child : TypeId} {span : Span} :
    Stays scope program (fieldCopies base child span) := by
  refine ensures_get_bind.mpr (stays_mapM fun field _ state _ ↦ ?_)
  refine Ensures.seq stays_require fun source _ _ _ ↦ ?_
  exact Ensures.seq stays_require fun _ _ _ _ ↦ .stay trivial

theorem stays_subtypeCase {base child : TypeId} {span : Span} :
    Stays scope program (subtypeCase base child span) := by
  unfold subtypeCase
  refine ensures_get_bind.mpr ?_
  refine Ensures.seq stays_require fun getIterator _ _ _ ↦ ?_
  refine Ensures.seq stays_require fun first _ _ _ ↦ ?_
  exact Ensures.seq stays_fieldCopies fun _ _ _ _ ↦ .stay trivial

theorem stays_emitFieldCopy {cursor : Cursor} {source target : SymId} {copy : FieldCopy}
    (hfit : scope.Fits program) :
    Stays scope program (emitFieldCopy cursor source target copy) := by
  unfold emitFieldCopy
  refine hfit.seq (Cursor.stays_fresh hfit) fun value _ hfit ↦ ?_
  refine hfit.seq (Cursor.stays_assign hfit) fun _ _ hfit ↦ ?_
  split
  · exact (Cursor.stays_setField hfit).ignore
  · refine hfit.seq (Cursor.stays_fresh hfit) fun cast _ hfit ↦ ?_
    refine hfit.seq (Cursor.stays_assign hfit) fun _ _ hfit ↦ ?_
    exact (Cursor.stays_setField hfit).ignore

theorem stays_emitSubtypeCase {cursor : Cursor} {record : SymId} {tagType : TypeId}
    {subtype : SubtypeCase} (hfit : scope.Fits program) :
    Stays scope program (emitSubtypeCase cursor record tagType subtype) := by
  unfold emitSubtypeCase
  refine ensures_get_bind.mpr ?_
  refine hfit.seq (Cursor.stays_fresh hfit) fun tag _ hfit ↦ ?_
  refine hfit.seq (Cursor.stays_assign hfit) fun _ _ hfit ↦ ?_
  refine hfit.seq (Cursor.stays_fresh hfit) fun isSubtype _ hfit ↦ ?_
  refine hfit.seq (Cursor.stays_assign hfit) fun _ _ hfit ↦ ?_
  refine hfit.seq (Cursor.stays_openIf hfit) fun thenBlock _ hfit ↦ ?_
  refine hfit.seq (Cursor.stays_fresh hfit) fun rebuilt _ hfit ↦ ?_
  refine hfit.seq (hfit.forM fun _ _ _ hfit ↦ stays_emitFieldCopy hfit) fun _ _ hfit ↦ ?_
  refine hfit.seq (Cursor.stays_fresh hfit) fun made _ hfit ↦ ?_
  refine hfit.seq (Cursor.stays_assign hfit) fun _ _ hfit ↦ ?_
  refine hfit.seq (Cursor.stays_fresh hfit) fun result _ hfit ↦ ?_
  refine hfit.seq (Cursor.stays_assign hfit) fun _ _ hfit ↦ ?_
  exact (Cursor.stays_ret hfit).ignore

theorem stays_addSubtypeCases {count : Nat} {target : FnId × TypeId} (hfit : scope.Fits program) :
    Stays scope program (addSubtypeCases count target) := by
  unfold addSubtypeCases
  dsimp only
  refine ensures_get_bind.mpr ?_
  refine hfit.seq stays_require fun formal _ hfit ↦ ?_
  refine hfit.seq stays_require fun tag _ hfit ↦ ?_
  refine Ensures.seq (Program.ensures_newPlain hfit .none) fun cascade _ h hcascade ↦ ?_
  have hfit := hfit.after h
  refine hfit.seq (hfit.forM fun child _ _ hfit ↦ ?_) fun _ _ hfit ↦ ?_
  · exact hfit.seq stays_subtypeCase fun subtype _ hfit ↦ (stays_emitSubtypeCase hfit).build
  · refine ensures_get_bind.mpr ?_
    exact hfit.seq (Edit.fits_spliceAtHead hfit hcascade.1).edit fun _ _ _ ↦ .stay trivial

theorem stays_addSubtypeDispatch (hfit : scope.Fits program) :
    Stays scope program addSubtypeDispatch :=
  ensures_get_bind.mpr (hfit.foldlM fun _ _ _ _ hfit ↦ stays_addSubtypeCases hfit)

/-! ### Copy and destroy routines -/

theorem stays_emitFieldRead {cursor : Cursor} {record : SymId} {position : Nat} {type : TypeId}
    (hfit : scope.Fits program) :
    Stays scope program (emitFieldRead cursor record position type) := by
  refine hfit.seq (Cursor.stays_fresh hfit) fun value _ hfit ↦ ?_
  exact hfit.seq (Cursor.stays_assign hfit) fun _ _ _ ↦ .stay trivial

theorem stays_emitFieldDuplicate {cursor : Cursor} {record result : SymId} {position : Nat}
    {type : TypeId} (hfit : scope.Fits program) :
    Stays scope program (emitFieldDuplicate cursor record result position type) := by
  unfold emitFieldDuplicate
  refine hfit.seq (stays_emitFieldRead hfit) fun value _ hfit ↦ ?_
  refine ensures_get_bind.mpr ?_
  split
  · refine hfit.seq (Cursor.stays_fresh hfit) fun copied _ hfit ↦ ?_
    refine hfit.seq (Cursor.stays_assign hfit) fun _ _ hfit ↦ ?_
    exact (Cursor.stays_setField hfit).ignore
  · exact (Cursor.stays_setField hfit).ignore

theorem stays_emitFieldDestroy {cursor : Cursor} {record : SymId} {position : Nat}
    {type : TypeId} (hfit : scope.Fits program) :
    Stays scope program (emitFieldDestroy cursor record position type) := by
  unfold emitFieldDestroy
  refine ensures_get_bind.mpr ?_
  split
  · refine hfit.seq (stays_emitFieldRead hfit) fun value _ hfit ↦ ?_
    exact (Cursor.stays_call hfit).ignore
  · exact .stay trivial

theorem stays_resultSymbol {function : FnId} : Stays scope program (resultSymbol function) := by
  unfold resultSymbol
  refine ensures_get_bind.mpr ?_
  dsimp only
  split
  · exact .stay trivial
  · exact stays_modifyGet (.addSymbol _)

/-- A new body can take the place of the old one. -/
theorem ensures_copyBody {function : FnId} {record : SymId} {fields : List FieldDef}
    (hfit : scope.Fits program) :
    Ensures (copyBody function record fields) program (program.Reworks scope)
      fun body final ↦ final.Loose scope body := by
  unfold copyBody
  refine hfit.seq stays_resultSymbol fun result _ hfit ↦ ?_
  refine Ensures.seq (Program.ensures_newPlain hfit .none) fun block made h hblock ↦ ?_
  have hloose : made.Loose scope block := ⟨hblock.2.1.has, hblock.2.1.owner, .inl hblock.1⟩
  have hsofar := Program.Reworks.refl scope made
  have hfit := hfit.after h
  refine ensures_get_bind.mpr ?_
  refine hsofar.next (Cursor.stays_define hfit) fun _ _ hsofar _ ↦ ?_
  refine hsofar.next ((hfit.after hsofar).forM fun _ _ _ hfit ↦ stays_emitFieldDuplicate hfit)
    fun _ _ hsofar _ ↦ ?_
  refine hsofar.next (Cursor.stays_ret (hfit.after hsofar)) fun _ _ hsofar _ ↦ .stay ?_
  exact hsofar.loose hfit.calm hloose

theorem ensures_destroyBody {function : FnId} {record : SymId} {fields : List FieldDef}
    (hfit : scope.Fits program) :
    Ensures (destroyBody function record fields) program (program.Reworks scope)
      fun body final ↦ final.Loose scope body := by
  unfold destroyBody
  refine Ensures.seq (Program.ensures_newPlain hfit .none) fun block made h hblock ↦ ?_
  have hloose : made.Loose scope block := ⟨hblock.2.1.has, hblock.2.1.owner, .inl hblock.1⟩
  have hsofar := Program.Reworks.refl scope made
  have hfit := hfit.after h
  refine ensures_get_bind.mpr ?_
  refine hsofar.next (hfit.forM fun _ _ _ hfit ↦ stays_emitFieldDestroy hfit)
    fun _ _ hsofar _ ↦ ?_
  refine hsofar.next (Cursor.stays_ret (hfit.after hsofar)) fun _ _ hsofar _ ↦ .stay ?_
  exact hsofar.loose hfit.calm hloose

/-- Whether a function is a copy or destroy routine of an iterator record. -/
def Program.IsRoutine (program : Program) (function : FnId) : Prop :=
  ∃ record, (program.function function).formals = [record] ∧
    (program.type (program.valueType (program.symbolType record))).flags.iteratorRecord = true ∧
    ((program.function function).flags.autoCopy = true ∨
      (program.function function).flags.autoDestroy = true)

theorem Program.IsRoutine.has {function : FnId} (h : program.IsRoutine function) :
    program.HasFunction function := by
  obtain ⟨record, hformals, _⟩ := h
  by_contra hout
  rw [Program.function, Array.getD_eq_getD_getElem?,
    Array.getElem?_eq_none (Nat.not_lt.mp hout)] at hformals
  cases hformals

/-- A routine gets a new body, and its old one then stands nowhere. Other functions stay as they
are. -/
theorem ensures_rebuildRoutine {count : Nat} {function : FnId} (hfit : scope.Fits program) :
    Ensures (rebuildRoutine count function) program
      (program.Reworks (scope.adding (program.bodyOf function)).rooted) fun _ final ↦
        program.Reworks scope final ∨ program.IsRoutine function ∧
          final.parent (program.bodyOf function) = none ∧
          (final.stmt (program.bodyOf function)).bodyOf = none := by
  have hle := scope.le_adding_rooted (program.bodyOf function)
  -- The same is done with the new body of either kind of routine.
  have hreplace : ∀ {make : Build StmtId}, program.IsRoutine function →
      Ensures make program (program.Reworks scope) (fun body final ↦ final.Loose scope body) →
      Ensures (do
        let body ← make
        Edit.replace (program.bodyOf function) body
        return count + 1 : Pass Nat) program
        (program.Reworks (scope.adding (program.bodyOf function)).rooted) fun _ final ↦
          program.Reworks scope final ∨ program.IsRoutine function ∧
            final.parent (program.bodyOf function) = none ∧
            (final.stmt (program.bodyOf function)).bodyOf = none := by
    intro make hroutine hmake
    refine Ensures.seq (.within hle (.build hmake)) fun body middle _ hbody ↦ ?_
    have hhas := hbody.1.has (hfit.wellLinked.has_body hroutine.has)
    have hloose : middle.Loose (scope.adding (program.bodyOf function)).rooted body :=
      ⟨hbody.2.has, hbody.2.owner, hbody.2.movable.imp_left .inl⟩
    refine Ensures.seq (Edit.ensures_replace (hbody.1.wellLinked hfit.wellLinked) hloose (.inl hhas)
      (.inl (.inr rfl)) (.inl trivial)).edit fun _ final h hfinal ↦ .stay ?_
    exact .inr ⟨hroutine, hfinal.1, hfinal.2.1⟩
  unfold rebuildRoutine
  refine ensures_get_bind.mpr ?_
  dsimp only
  split
  · rename_i record hformals
    split
    · rename_i hcopy
      rw [Bool.and_eq_true] at hcopy
      exact hreplace ⟨record, hformals, hcopy.1, .inl hcopy.2⟩ (ensures_copyBody hfit)
    · split
      · rename_i hdestroy
        rw [Bool.and_eq_true] at hdestroy
        exact hreplace ⟨record, hformals, hdestroy.1, .inr hdestroy.2⟩ (ensures_destroyBody hfit)
      · exact .stay (.inl (.refl scope program))
  · exact .stay (.inl (.refl scope program))

end IteratorLowering
