import IteratorLowering.Program.Cursor
import IteratorLowering.Proofs.Forest.Updating
import IteratorLowering.Proofs.Forest.Renaming
import IteratorLowering.Proofs.Outcome

/-!
# Edits leave the tables alone

Edits and emitters change statements, and edits may give a function another body. All else is what
it was before (`Program.SameTables`): the symbols, the types, and what functions are apart from
their bodies.
-/

set_option autoImplicit false
set_option relaxedAutoImplicit false

namespace IteratorLowering

namespace Program

variable {program middle final : Program}

/-- Whether two programs differ in their statements and the bodies of their functions only. -/
structure SameTables (program final : Program) : Prop where
  symbols : final.symbols = program.symbols
  types : final.types = program.types
  functions : final.functions.size = program.functions.size
  function : ∀ id, final.function id = { program.function id with body := final.bodyOf id }

namespace SameTables

theorem refl (program : Program) : program.SameTables program := ⟨rfl, rfl, rfl, fun _ ↦ rfl⟩

theorem trans (first : program.SameTables middle) (second : middle.SameTables final) :
    program.SameTables final where
  symbols := second.symbols.trans first.symbols
  types := second.types.trans first.types
  functions := second.functions.trans first.functions
  function id := by rw [second.function id, first.function id]

instance : IsPreorder Program SameTables where
  refl := refl
  trans _ _ _ := trans

theorem of_functions (hsymbols : final.symbols = program.symbols)
    (htypes : final.types = program.types) (hfunctions : final.functions = program.functions) :
    program.SameTables final := by
  have hsame (id : FnId) : final.function id = program.function id := by
    rw [Program.function, hfunctions, Program.function]
  exact ⟨hsymbols, htypes, by rw [hfunctions], fun id ↦ by rw [bodyOf, hsame]⟩

theorem modifyStmt (program : Program) (id : StmtId) (change : Stmt → Stmt) :
    program.SameTables (program.modifyStmt id change) :=
  of_functions rfl rfl rfl

theorem newStmt (program : Program) (kind : StmtKind) (span : Span) :
    program.SameTables (program.newStmt kind span).2 := by
  obtain ⟨statements, heq⟩ := program.newStmt_arenas kind span
  rw [heq]
  exact of_functions rfl rfl rfl

theorem adopt (program : Program) (children : List StmtId) (parent : Option StmtId) :
    program.SameTables (program.adopt children parent) := by
  obtain ⟨statements, heq⟩ := program.adopt_arenas children parent
  rw [heq]
  exact of_functions rfl rfl rfl

theorem setBody (program : Program) (id : FnId) (body : StmtId) :
    program.SameTables (program.modifyFunction id fun definition ↦ { definition with body }) where
  symbols := rfl
  types := rfl
  functions := by simp [modifyFunction]
  function other := by
    rw [bodyOf, function_modifyFunction]
    split
    · rename_i heq
      rw [heq.1]
    · rfl

theorem appendMember (program : Program) (block new : StmtId) :
    program.SameTables (program.appendMember block new) := by
  unfold Program.appendMember
  split
  · exact of_functions rfl rfl rfl
  · exact refl program
  · exact refl program

theorem setBlockInfo (program : Program) (id : StmtId) (info : Option BlockInfo) :
    program.SameTables (program.setBlockInfo id info) := by
  unfold Program.setBlockInfo
  split
  · exact of_functions rfl rfl rfl
  · exact refl program
  · exact refl program

theorem mapSymbolsIn (program : Program) (root : StmtId) (f : SymId → SymId) :
    program.SameTables (program.mapSymbolsIn root f) := by
  obtain ⟨statements, -, heq⟩ := @mapSymbolsIn_arenas program root f
  rw [heq]
  exact of_functions rfl rfl rfl

end SameTables

/-- Whether a computation that starts at a program leaves the tables alone. -/
abbrev LeavesTables {m : Type → Type} [Monad m] [MonadStateOf Program m] [Runs m Program] {α : Type}
    (program : Program) (computation : m α) : Prop :=
  Ensures computation program program.SameTables fun _ _ ↦ True

end Program

variable {program : Program} {id block anchor new old scratch : StmtId} {position : Nat}

theorem Cursor.leavesTables_emit {cursor : Cursor} {kind : StmtKind} :
    program.LeavesTables (cursor.emit kind) := by
  refine ensures_modifyGet_bind.mpr (ensures_modify_bind.mpr (ensures_pure.mpr ⟨?_, trivial⟩))
  exact (Program.SameTables.newStmt ..).trans (.appendMember ..)

namespace Edit

open Program

theorem leavesTables_position : program.LeavesTables (Edit.position id) := by
  refine ensures_get_bind.mpr ?_
  split
  · exact .stay trivial
  · exact ensures_throw.mpr (.refl program)

theorem leavesTables_modifyBody {change : List StmtId → List StmtId} :
    program.LeavesTables (Edit.modifyBody block change) := by
  refine ensures_get_bind.mpr ?_
  split
  · exact ensures_modify.mpr ⟨.modifyStmt .., trivial⟩
  · exact ensures_throw.mpr (.refl program)
  · exact ensures_throw.mpr (.refl program)

theorem leavesTables_setParent {parent : Option StmtId} :
    program.LeavesTables (modify fun program ↦ program.setParent id parent : Edit PUnit) :=
  ensures_modify.mpr ⟨.modifyStmt .., trivial⟩

theorem leavesTables_remove : program.LeavesTables (Edit.remove id) := by
  unfold Edit.remove
  refine leavesTables_position.seq fun found _ _ _ ↦ ?_
  exact leavesTables_modifyBody.seq fun _ _ _ _ ↦ leavesTables_setParent

theorem leavesTables_detach : program.LeavesTables (Edit.detach id) :=
  ensures_get_bind.mpr (ensures_ite (fun _ ↦ leavesTables_remove) fun _ ↦ .stay trivial)

theorem leavesTables_insertAt : program.LeavesTables (Edit.insertAt block position new) := by
  unfold Edit.insertAt
  refine leavesTables_detach.seq fun _ _ _ _ ↦ ?_
  exact leavesTables_modifyBody.seq fun _ _ _ _ ↦ leavesTables_setParent

theorem leavesTables_insertBefore : program.LeavesTables (Edit.insertBefore anchor new) := by
  unfold Edit.insertBefore
  refine leavesTables_detach.seq fun _ _ _ _ ↦ ?_
  exact leavesTables_position.seq fun _ _ _ _ ↦ leavesTables_insertAt

theorem leavesTables_insertAtHead : program.LeavesTables (Edit.insertAtHead block new) :=
  leavesTables_detach.seq fun _ _ _ _ ↦ leavesTables_insertAt

theorem leavesTables_insertAtTail : program.LeavesTables (Edit.insertAtTail block new) :=
  leavesTables_detach.seq fun _ _ _ _ ↦ ensures_get_bind.mpr leavesTables_insertAt

theorem leavesTables_push {kind : StmtKind} {span : Span} :
    program.LeavesTables (Edit.push block kind span) := by
  unfold Edit.push
  refine ensures_modifyGet_bind.mpr (.after (.newStmt ..) ?_)
  exact leavesTables_insertAtTail.seq fun _ _ _ _ ↦ .stay trivial

theorem leavesTables_replace : program.LeavesTables (Edit.replace old new) := by
  unfold Edit.replace
  refine leavesTables_detach.seq fun _ middle _ _ ↦ ensures_get_bind.mpr ?_
  have hkind (parent : StmtId) (kind : StmtKind) :
      middle.LeavesTables (set (middle.setKind parent kind) >>= fun _ ↦ modify fun program ↦
        (program.setParent new (some parent)).setParent old none : Edit PUnit) :=
    ensures_set_bind.mpr (ensures_modify.mpr ⟨.of_functions rfl rfl rfl, trivial⟩)
  cases hparent : middle.parent old with
  | none =>
    cases howner : (middle.stmt old).bodyOf with
    | none => simpa [howner] using Program.SameTables.refl middle
    | some function =>
      refine ensures_set.mpr ⟨?_, trivial⟩
      exact ((Program.SameTables.modifyStmt ..).trans (.modifyStmt ..)).trans (.setBody ..)
  | some parent =>
    cases hkindOf : middle.kind parent with
    | action => simpa [hkindOf] using Program.SameTables.refl middle
    | branch condition thenBlock elseBlock =>
      cases hbranch : replaceBranch thenBlock elseBlock old new with
      | none => simpa [hkindOf, hbranch] using Program.SameTables.refl middle
      | some branches =>
        simp only [hkindOf, hbranch]
        exact hkind _ _
    | block info body =>
      cases hposition : body.idxOf? old with
      | none => simpa [hkindOf, hposition] using Program.SameTables.refl middle
      | some position =>
        simp only [hkindOf, hposition]
        exact hkind _ _

theorem leavesTables_takeBody : program.LeavesTables (Edit.takeBody block) := by
  refine ensures_get_bind.mpr ?_
  split
  · refine ensures_modify_bind.mpr (ensures_pure.mpr ⟨?_, trivial⟩)
    exact (Program.SameTables.modifyStmt ..).trans (.adopt ..)
  · exact ensures_throw.mpr (.refl program)
  · exact ensures_throw.mpr (.refl program)

theorem leavesTables_spliceBefore : program.LeavesTables (Edit.spliceBefore anchor scratch) :=
  leavesTables_takeBody.seq fun _ _ _ _ ↦ .forM fun _ _ _ _ ↦ leavesTables_insertBefore

theorem leavesTables_insertFrom {members : List StmtId} :
    program.LeavesTables (Edit.insertFrom block position members) := by
  induction members generalizing program position with
  | nil => exact .stay trivial
  | cons new rest ih => exact leavesTables_insertAt.seq fun _ _ _ _ ↦ ih

theorem leavesTables_spliceAtHead : program.LeavesTables (Edit.spliceAtHead block scratch) :=
  leavesTables_takeBody.seq fun _ _ _ _ ↦ leavesTables_insertFrom

theorem leavesTables_spliceAtTail : program.LeavesTables (Edit.spliceAtTail block scratch) :=
  leavesTables_takeBody.seq fun _ _ _ _ ↦ .forM fun _ _ _ _ ↦ leavesTables_insertAtTail

end Edit

end IteratorLowering
