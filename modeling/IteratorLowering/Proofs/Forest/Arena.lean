import IteratorLowering.Program.Edit
import Mathlib.Tactic.Common

/-!
# Reading a program after an update

Every update of a program changes one arena at one handle, and every reader looks at one arena.
The lemmas here say what a reader sees after an update, so that no later proof opens an arena.
A handle is in use (`Program.Has`) once its entry has been made; reading any other handle gives
the default entry, which has no parent and is no block.
-/

set_option autoImplicit false
set_option relaxedAutoImplicit false

namespace IteratorLowering

namespace Program

/-- Whether the handle of a statement has been given out. -/
def Has (program : Program) (id : StmtId) : Prop := id.index < program.statements.size

instance (program : Program) (id : StmtId) : Decidable (program.Has id) :=
  inferInstanceAs (Decidable (_ < _))

/-- The handle of the statement that is made next. -/
def nextStmt (program : Program) : StmtId := ⟨program.statements.size⟩

theorem not_has_nextStmt (program : Program) : ¬ program.Has program.nextStmt :=
  Nat.lt_irrefl _

theorem size_le_of_has {program program' : Program}
    (h : ∀ id, program.Has id → program'.Has id) :
    program.statements.size ≤ program'.statements.size := by
  by_contra hlt
  exact Nat.lt_irrefl _ (h ⟨program'.statements.size⟩ (Nat.not_le.mp hlt))

theorem stmt_of_not_has {program : Program} {id : StmtId} (h : ¬ program.Has id) :
    program.stmt id = default := by
  simp only [stmt, Array.getD_eq_getD_getElem?]
  rw [Array.getElem?_eq_none (Nat.not_lt.mp h)]
  rfl

theorem has_of_parent {program : Program} {id parent : StmtId}
    (h : program.parent id = some parent) : program.Has id := by
  by_contra hout
  rw [Program.parent, stmt_of_not_has hout] at h
  cases h

theorem has_of_bodyOf {program : Program} {id : StmtId} {function : FnId}
    (h : (program.stmt id).bodyOf = some function) : program.Has id := by
  by_contra hout
  rw [stmt_of_not_has hout] at h
  cases h

theorem has_of_kind_block {program : Program} {id : StmtId} {info : Option BlockInfo}
    {body : List StmtId} (h : program.kind id = .block info body) : program.Has id := by
  by_contra hout
  rw [Program.kind, stmt_of_not_has hout] at h
  cases h

theorem has_of_mem_children {program : Program} {id child : StmtId}
    (h : child ∈ (program.kind id).children) : program.Has id := by
  by_contra hout
  rw [Program.kind, stmt_of_not_has hout] at h
  cases h

theorem mem_children_of_mem_blockBody {program : Program} {id member : StmtId}
    (h : member ∈ program.blockBody id) : member ∈ (program.kind id).children := by
  unfold blockBody at h
  split at h
  · rename_i hkind
    rwa [hkind]
  · cases h
  · cases h

/-! ### Changing an entry -/

theorem stmt_modifyStmt (program : Program) (id other : StmtId) (change : Stmt → Stmt) :
    (program.modifyStmt id change).stmt other =
      if other = id ∧ program.Has id then change (program.stmt other) else program.stmt other := by
  obtain ⟨i⟩ := id
  obtain ⟨j⟩ := other
  simp only [stmt, modifyStmt, Has, StmtId.mk.injEq, Array.getD_eq_getD_getElem?,
    Array.getElem?_modify]
  by_cases hij : j = i
  · subst hij
    by_cases hi : j < program.statements.size <;> simp [hi]
  · simp [hij, Ne.symm hij]

@[simp] theorem has_modifyStmt (program : Program) (id other : StmtId) (change : Stmt → Stmt) :
    (program.modifyStmt id change).Has other ↔ program.Has other := by
  simp [Has, modifyStmt]

@[simp] theorem has_setKind (program : Program) (id other : StmtId) (kind : StmtKind) :
    (program.setKind id kind).Has other ↔ program.Has other := has_modifyStmt ..

@[simp] theorem has_setParent (program : Program) (id other : StmtId) (parent : Option StmtId) :
    (program.setParent id parent).Has other ↔ program.Has other := has_modifyStmt ..

@[simp] theorem has_setBodyOf (program : Program) (id other : StmtId) (function : Option FnId) :
    (program.setBodyOf id function).Has other ↔ program.Has other := has_modifyStmt ..

theorem kind_setKind (program : Program) (id other : StmtId) (kind : StmtKind) :
    (program.setKind id kind).kind other =
      if other = id ∧ program.Has id then kind else program.kind other := by
  simp only [Program.kind, setKind, stmt_modifyStmt]
  split <;> rfl

@[simp] theorem kind_setParent (program : Program) (id other : StmtId) (parent : Option StmtId) :
    (program.setParent id parent).kind other = program.kind other := by
  simp only [Program.kind, setParent, stmt_modifyStmt]
  split <;> rfl

@[simp] theorem kind_setBodyOf (program : Program) (id other : StmtId) (function : Option FnId) :
    (program.setBodyOf id function).kind other = program.kind other := by
  simp only [Program.kind, setBodyOf, stmt_modifyStmt]
  split <;> rfl

theorem parent_setParent (program : Program) (id other : StmtId) (parent : Option StmtId) :
    (program.setParent id parent).parent other =
      if other = id ∧ program.Has id then parent else program.parent other := by
  simp only [Program.parent, setParent, stmt_modifyStmt]
  split <;> rfl

@[simp] theorem parent_setKind (program : Program) (id other : StmtId) (kind : StmtKind) :
    (program.setKind id kind).parent other = program.parent other := by
  simp only [Program.parent, setKind, stmt_modifyStmt]
  split <;> rfl

@[simp] theorem parent_setBodyOf (program : Program) (id other : StmtId)
    (function : Option FnId) :
    (program.setBodyOf id function).parent other = program.parent other := by
  simp only [Program.parent, setBodyOf, stmt_modifyStmt]
  split <;> rfl

@[simp] theorem owner_setKind (program : Program) (id other : StmtId) (kind : StmtKind) :
    ((program.setKind id kind).stmt other).bodyOf = (program.stmt other).bodyOf := by
  simp only [setKind, stmt_modifyStmt]
  split <;> rfl

@[simp] theorem owner_setParent (program : Program) (id other : StmtId) (parent : Option StmtId) :
    ((program.setParent id parent).stmt other).bodyOf = (program.stmt other).bodyOf := by
  simp only [setParent, stmt_modifyStmt]
  split <;> rfl

theorem owner_setBodyOf (program : Program) (id other : StmtId) (function : Option FnId) :
    ((program.setBodyOf id function).stmt other).bodyOf =
      if other = id ∧ program.Has id then function else (program.stmt other).bodyOf := by
  simp only [setBodyOf, stmt_modifyStmt]
  split <;> rfl

theorem stmt_setBodyOf {program : Program} {id : StmtId} (h : program.Has id) (other : StmtId)
    (owner : Option FnId) :
    (program.setBodyOf other owner).stmt id =
      { program.stmt id with
        bodyOf := if id = other then owner else (program.stmt id).bodyOf } := by
  rw [setBodyOf, stmt_modifyStmt]
  by_cases heq : id = other
  · subst heq
    simp [h]
  · simp [heq]

/-! ### Making statements -/

/-- The program with the statement made next, before it takes its children. -/
def pushStmt (program : Program) (kind : StmtKind) (span : Span) : Program :=
  { program with statements := program.statements.push { kind, span } }

/-- Give every listed statement the same parent. -/
def adopt (program : Program) (children : List StmtId) (parent : Option StmtId) : Program :=
  children.foldl (fun program child ↦ program.setParent child parent) program

theorem newStmt_eq (program : Program) (kind : StmtKind) (span : Span) :
    program.newStmt kind span =
      (program.nextStmt, (program.pushStmt kind span).adopt kind.children
        (some program.nextStmt)) := rfl

@[simp] theorem newStmt_fst (program : Program) (kind : StmtKind) (span : Span) :
    (program.newStmt kind span).1 = program.nextStmt := rfl

theorem has_pushStmt (program : Program) (kind : StmtKind) (span : Span) (other : StmtId) :
    (program.pushStmt kind span).Has other ↔ program.Has other ∨ other = program.nextStmt := by
  obtain ⟨j⟩ := other
  simp only [Has, pushStmt, Array.size_push, nextStmt, StmtId.mk.injEq]
  omega

theorem stmt_pushStmt (program : Program) (kind : StmtKind) (span : Span) (other : StmtId) :
    (program.pushStmt kind span).stmt other =
      if other = program.nextStmt then { kind, span } else program.stmt other := by
  obtain ⟨j⟩ := other
  simp only [stmt, pushStmt, nextStmt, StmtId.mk.injEq, Array.getD_eq_getD_getElem?,
    Array.getElem?_push]
  split <;> simp

@[simp] theorem has_adopt (program : Program) (children : List StmtId)
    (parent : Option StmtId) (other : StmtId) :
    (program.adopt children parent).Has other ↔ program.Has other := by
  induction children generalizing program with
  | nil => rfl
  | cons child rest ih => exact (ih _).trans (has_setParent ..)

@[simp] theorem kind_adopt (program : Program) (children : List StmtId)
    (parent : Option StmtId) (other : StmtId) :
    (program.adopt children parent).kind other = program.kind other := by
  induction children generalizing program with
  | nil => rfl
  | cons child rest ih => exact (ih _).trans (kind_setParent ..)

theorem parent_adopt (program : Program) (children : List StmtId) (parent : Option StmtId)
    (other : StmtId) :
    (program.adopt children parent).parent other =
      if other ∈ children ∧ program.Has other then parent else program.parent other := by
  induction children generalizing program with
  | nil => simp [adopt]
  | cons child rest ih =>
    have hrest := ih (program.setParent child parent)
    simp only [adopt, List.foldl_cons] at hrest ⊢
    simp only [hrest, parent_setParent, has_setParent, List.mem_cons]
    by_cases hother : other = child
    · subst hother
      by_cases hin : program.Has other <;> simp [hin]
    · simp [hother]

@[simp] theorem owner_adopt (program : Program) (children : List StmtId)
    (parent : Option StmtId) (other : StmtId) :
    ((program.adopt children parent).stmt other).bodyOf = (program.stmt other).bodyOf := by
  induction children generalizing program with
  | nil => rfl
  | cons child rest ih => exact (ih _).trans (owner_setParent ..)

/-- A statement keeps its entry while others take their places. -/
theorem stmt_adopt_of_not_mem (program : Program) {children : List StmtId}
    (parent : Option StmtId) {other : StmtId} (h : other ∉ children) :
    (program.adopt children parent).stmt other = program.stmt other := by
  induction children generalizing program with
  | nil => rfl
  | cons child rest ih =>
    rw [List.mem_cons, not_or] at h
    exact (ih _ h.2).trans ((stmt_modifyStmt ..).trans (if_neg fun hand ↦ h.1 hand.1))

theorem adopt_arenas (program : Program) (children : List StmtId) (parent : Option StmtId) :
    ∃ statements, program.adopt children parent = { program with statements } := by
  induction children generalizing program with
  | nil => exact ⟨_, rfl⟩
  | cons child rest ih => exact ih (program.setParent child parent)

theorem has_newStmt (program : Program) (kind : StmtKind) (span : Span) (other : StmtId) :
    (program.newStmt kind span).2.Has other ↔ program.Has other ∨ other = program.nextStmt := by
  rw [newStmt_eq, has_adopt, has_pushStmt]

theorem stmt_newStmt_of_not_mem (program : Program) {kind : StmtKind} (span : Span)
    {other : StmtId} (hother : program.Has other) (h : other ∉ kind.children) :
    (program.newStmt kind span).2.stmt other = program.stmt other := by
  rw [newStmt_eq, stmt_adopt_of_not_mem _ _ h, stmt_pushStmt, if_neg]
  rintro rfl
  exact program.not_has_nextStmt hother

theorem kind_newStmt (program : Program) (kind : StmtKind) (span : Span) (other : StmtId) :
    (program.newStmt kind span).2.kind other =
      if other = program.nextStmt then kind else program.kind other := by
  rw [newStmt_eq, kind_adopt, Program.kind, stmt_pushStmt]
  split <;> rfl

theorem parent_newStmt (program : Program) (kind : StmtKind) (span : Span) (other : StmtId)
    (hchildren : ∀ child ∈ kind.children, program.Has child) :
    (program.newStmt kind span).2.parent other =
      if other ∈ kind.children then some program.nextStmt
      else if other = program.nextStmt then none else program.parent other := by
  simp only [newStmt_eq, parent_adopt, has_pushStmt]
  have hparent : (program.pushStmt kind span).parent other =
      if other = program.nextStmt then none else program.parent other := by
    rw [Program.parent, stmt_pushStmt]
    split <;> rfl
  by_cases hmem : other ∈ kind.children
  · simp [hmem, hchildren other hmem]
  · simp [hmem, hparent]

theorem owner_newStmt (program : Program) (kind : StmtKind) (span : Span) (other : StmtId) :
    ((program.newStmt kind span).2.stmt other).bodyOf =
      if other = program.nextStmt then none else (program.stmt other).bodyOf := by
  rw [newStmt_eq, owner_adopt, stmt_pushStmt]
  split <;> rfl

/-- Only the statements of a program change when one is made. -/
theorem newStmt_arenas (program : Program) (kind : StmtKind) (span : Span) :
    ∃ statements, (program.newStmt kind span).2 = { program with statements } :=
  adopt_arenas ..

/-! ### Functions -/

theorem function_modifyFunction (program : Program) (id other : FnId)
    (change : FnDef → FnDef) :
    (program.modifyFunction id change).function other =
      if other = id ∧ id.index < program.functions.size then change (program.function other)
      else program.function other := by
  obtain ⟨i⟩ := id
  obtain ⟨j⟩ := other
  simp only [function, modifyFunction, FnId.mk.injEq, Array.getD_eq_getD_getElem?,
    Array.getElem?_modify]
  by_cases hij : j = i
  · subst hij
    by_cases hi : j < program.functions.size <;> simp [hi]
  · simp [hij, Ne.symm hij]

/-! ### Types -/

theorem type_modifyType (program : Program) (id other : TypeId) (change : TypeDef → TypeDef) :
    (program.modifyType id change).type other =
      if other = id ∧ id.index < program.types.size then change (program.type other)
      else program.type other := by
  obtain ⟨i⟩ := id
  obtain ⟨j⟩ := other
  simp only [type, modifyType, TypeId.mk.injEq, Array.getD_eq_getD_getElem?, Array.getElem?_modify]
  by_cases hij : j = i
  · subst hij
    by_cases hi : j < program.types.size <;> simp [hi]
  · simp [hij, Ne.symm hij]

end Program

end IteratorLowering
