import IteratorLowering.Program.Copy
import IteratorLowering.Program.Cursor
import IteratorLowering.Proofs.Forest.Editing

/-!
# Emitting and copying within a scope

Statements that are emitted at a cursor, and copies of trees, are new, so that every scope allows
them, with one exception: a tree can only be copied where for-loops may be made. A copy stands
nowhere and leaves all older statements as they are (`ensures_copyTree`).
-/

set_option autoImplicit false
set_option relaxedAutoImplicit false

namespace IteratorLowering

variable {scope : Scope} {program : Program}

namespace Program

/-- The second program has all statements of the first one as they were. -/
def Keeps (program program' : Program) : Prop :=
  ∀ id, program.Has id → program'.Has id ∧ program'.stmt id = program.stmt id

theorem Keeps.detached {program' : Program} (h : program.Keeps program') {id : StmtId}
    (hid : program.Detached id) : program'.Detached id := by
  obtain ⟨hhas, hstmt⟩ := h id hid.has
  exact ⟨hhas, by rw [parent, hstmt]; exact hid.parent, by rw [hstmt]; exact hid.owner⟩

theorem Keeps.trans {program' program'' : Program} (first : program.Keeps program')
    (second : program'.Keeps program'') : program.Keeps program'' := fun id h ↦
  ⟨(second id (first id h).1).1, (second id (first id h).1).2.trans (first id h).2⟩

theorem keeps_newStmt {kind : StmtKind} (span : Span)
    (h : ∀ child ∈ kind.children, ¬ program.Has child) :
    program.Keeps (program.newStmt kind span).2 := fun _ hhas ↦
  ⟨(has_newStmt ..).mpr (.inl hhas),
    stmt_newStmt_of_not_mem program span hhas fun hmem ↦ h _ hmem hhas⟩

theorem Reworks.appendMember {block new : StmtId} (hnew : program.Detached new)
    (hmovable : program.Movable scope new) :
    program.Reworks scope (program.appendMember block new) := by
  unfold Program.appendMember
  split
  · rename_i info body hkind
    rw [← List.append_nil body] at hkind
    exact .attach hkind hnew hmovable
  · exact .refl scope program
  · exact .refl scope program

/-- A plain block that was just made may be moved, and so may what it is given. -/
theorem ensures_newPlain {m : Type → Type} [Monad m] [MonadStateOf Program m]
    [Runs m Program] (hfit : scope.Fits program) (span : Span) :
    Ensures (modifyGet fun program ↦ program.newStmt (.plain []) span : m StmtId) program
      (program.Reworks scope) fun id final ↦
        scope.moved id ∧ final.Detached id ∧ ¬ program.Has id ∧ program.Keeps final :=
  ensures_modifyGet.mpr ⟨.newBlock none span nofun, hfit.new program.not_has_nextStmt,
    WellLinked.detached_newStmt program span nofun, program.not_has_nextStmt,
    keeps_newStmt span nofun⟩

end Program

section

variable {m : Type → Type} [Monad m] [MonadStateOf Program m] [Runs m Program]

theorem stays_modify {change : Program → Program} (h : program.Reworks scope (change program)) :
    Stays scope program (modify change : m PUnit) :=
  ensures_modify.mpr ⟨h, trivial⟩

theorem stays_modifyGet {α : Type} {change : Program → α × Program}
    (h : program.Reworks scope (change program).2) :
    Stays scope program (modifyGet change : m α) :=
  ensures_modifyGet.mpr ⟨h, trivial⟩

end

theorem stays_mapM {m : Type → Type} [Monad m] [MonadStateOf Program m] [Runs m Program]
    [LawfulMonad m] {α β : Type} {items : List α} {step : α → m β}
    (hstep : ∀ item ∈ items, ∀ middle, program.Reworks scope middle →
      Stays scope middle (step item)) : Stays scope program (items.mapM step) :=
  Ensures.stays (Ensures.mapM hstep fun _ _ _ _ _ ↦ trivial)

/-
Where a scope fits, it still fits after each step of a computation that stays within it.
-/
namespace Scope.Fits

variable {m : Type → Type} [Monad m] [MonadStateOf Program m] [Runs m Program] {α β : Type}

theorem seq {first : m α} {next : α → m β} {result : β → Program → Prop}
    (hfit : scope.Fits program) (h : Stays scope program first)
    (hnext : ∀ value middle, scope.Fits middle →
      Ensures (next value) middle (middle.Reworks scope) result) :
    Ensures (first >>= next) program (program.Reworks scope) result :=
  Ensures.seq h fun value middle h _ ↦ hnext value middle (hfit.after h)

theorem forM {items : List α} {step : α → m PUnit} (hfit : scope.Fits program)
    (hstep : ∀ item ∈ items, ∀ middle, scope.Fits middle → Stays scope middle (step item)) :
    Stays scope program (items.forM step) :=
  Ensures.forM fun item hitem middle h ↦ hstep item hitem middle (hfit.after h)

theorem foldlM {items : List α} {step : β → α → m β} {start : β} (hfit : scope.Fits program)
    (hstep : ∀ item ∈ items, ∀ value middle, scope.Fits middle →
      Stays scope middle (step value item)) :
    Stays scope program (items.foldlM step start) :=
  Ensures.foldlM fun item hitem value middle h ↦ hstep item hitem value middle (hfit.after h)

theorem mapM [LawfulMonad m] {items : List α} {step : α → m β} (hfit : scope.Fits program)
    (hstep : ∀ item ∈ items, ∀ middle, scope.Fits middle → Stays scope middle (step item)) :
    Stays scope program (items.mapM step) :=
  stays_mapM fun item hitem middle h ↦ hstep item hitem middle (hfit.after h)

end Scope.Fits

theorem stays_require {α : Type} {value : Option α} {absent : Fault} {span : Span} :
    Stays scope program (Pass.require value absent span) :=
  ensures_require (.refl scope program) fun _ _ ↦ trivial

theorem Scope.Fits.substitute {root : StmtId} {old new : SymId} (hfit : scope.Fits program)
    (hroot : scope.Renames root) : program.Reworks scope (program.substitute root old new) :=
  .substitute root old new fun _ ↦ hfit.marked_of_mem_walk hroot

/-- What a computation gives may be left unused. -/
theorem Ensures.ignore {m : Type → Type} [Monad m] [MonadStateOf Program m] [Runs m Program]
    {α : Type} {computation : m α} {result : α → Program → Prop}
    (h : Ensures computation program (program.Reworks scope) result) :
    Stays scope program (do let _ ← computation : m PUnit) :=
  h.seq fun _ _ _ _ ↦ .stay trivial

/-- A block that lost its marker is no for-loop. -/
theorem ensures_unmark {m : Type → Type} [Monad m] [MonadStateOf Program m] [Runs m Program]
    {block : StmtId} {info : Option BlockInfo} (hinfo : (StmtKind.block info []).isForLoop = false)
    (hmarked : scope.marked block) :
    Ensures (modify fun program ↦ program.setBlockInfo block info : m PUnit) program
      (program.Reworks scope) fun _ final ↦ (final.kind block).isForLoop = false := by
  refine ensures_modify.mpr ⟨.setBlockInfo block hinfo fun _ ↦ hmarked, ?_⟩
  unfold Program.setBlockInfo
  split
  · rename_i old body hkind
    rw [Program.kind_setKind, if_pos ⟨rfl, Program.has_of_kind_block hkind⟩, ← hinfo]
    exact StmtKind.isForLoop_congr (StmtKind.loopHeader?_block ..)
  · rename_i hkind
    rw [hkind]
    rfl
  · rename_i hkind
    rw [hkind]
    rfl

namespace Cursor

variable {cursor : Cursor}

/-- A statement with detached children is emitted at any place. -/
theorem stays_emit {kind : StmtKind} (hfit : scope.Fits program)
    (hchildren : ∀ child ∈ kind.children, program.Detached child ∧ program.Movable scope child)
    (hnodup : kind.children.Nodup) (hloop : kind.isForLoop = true → scope.looping) :
    Stays scope program (cursor.emit kind) := by
  unfold emit
  have hnew := hfit.new program.not_has_nextStmt
  refine (Edit.ensures_newStmt hchildren hnodup hloop (.inr hnew)).seq fun id middle h hid ↦ ?_
  rw [ensures_modify_bind, ensures_pure]
  exact ⟨.appendMember hid.1 hid.2.1, trivial⟩

theorem stays_action {action : Action} (hfit : scope.Fits program) :
    Stays scope program (cursor.emit (.action action)) :=
  stays_emit hfit nofun .nil nofun

theorem stays_define {symbol : SymId} (hfit : scope.Fits program) :
    Stays scope program (cursor.define symbol) := stays_action hfit

theorem stays_assign {target : SymId} {value : Expr} (hfit : scope.Fits program) :
    Stays scope program (cursor.assign target value) := stays_action hfit

theorem stays_evaluate {value : Expr} (hfit : scope.Fits program) :
    Stays scope program (cursor.evaluate value) := stays_action hfit

theorem stays_call {callee : FnId} {args : List Operand} (hfit : scope.Fits program) :
    Stays scope program (cursor.call callee args) := stays_action hfit

theorem stays_store {reference : SymId} {value : Operand} (hfit : scope.Fits program) :
    Stays scope program (cursor.store reference value) := stays_action hfit

theorem stays_setField {base : SymId} {field : FieldRef} {value : Operand}
    (hfit : scope.Fits program) :
    Stays scope program (cursor.setField base field value) := stays_action hfit

theorem stays_ret {value : Operand} (hfit : scope.Fits program) :
    Stays scope program (cursor.ret value) := stays_action hfit

theorem stays_fail {message : String} (hfit : scope.Fits program) :
    Stays scope program (cursor.fail message) := stays_action hfit

theorem stays_fresh {name : String} {type : TypeId} (hfit : scope.Fits program) :
    Stays scope program (cursor.fresh name type) := by
  unfold fresh
  refine (stays_modifyGet (.addSymbol _)).seq fun _ _ h _ ↦ ?_
  exact (stays_define (hfit.after h)).seq fun _ _ _ _ ↦ .stay trivial

theorem stays_openIf {condition : Operand} (hfit : scope.Fits program) :
    Stays scope program (cursor.openIf condition) := by
  unfold openIf
  refine (Program.ensures_newPlain hfit cursor.span).seq fun thenBlock middle h hthen ↦ ?_
  refine (stays_emit (hfit.after h) (fun child hchild ↦ ?_) ?_ ?_).seq fun _ _ _ _ ↦
    .stay trivial
  · obtain rfl : child = thenBlock := by simpa [StmtKind.children] using hchild
    exact ⟨hthen.2.1, .inl hthen.1⟩
  · simp [StmtKind.children]
  · exact fun h ↦ absurd h Bool.false_ne_true

theorem stays_openIfElse {condition : Operand} (hfit : scope.Fits program) :
    Stays scope program (cursor.openIfElse condition) := by
  unfold openIfElse
  refine (Program.ensures_newPlain hfit cursor.span).seq fun thenBlock first h hthen ↦ ?_
  refine (Program.ensures_newPlain (hfit.after h) cursor.span).seq
    fun elseBlock second h' helse ↦ ?_
  have hne : thenBlock ≠ elseBlock := by
    rintro rfl
    exact helse.2.2.1 hthen.2.1.has
  have hfit' := (hfit.after h).after h'
  refine (stays_emit hfit' (fun child hchild ↦ ?_) ?_ ?_).seq fun _ _ _ _ ↦ .stay trivial
  · rcases List.mem_cons.mp hchild with rfl | hchild
    · exact ⟨helse.2.2.2.detached hthen.2.1, .inl hthen.1⟩
    · obtain rfl := List.mem_singleton.mp hchild
      exact ⟨helse.2.1, .inl helse.1⟩
  · simp [StmtKind.children, hne]
  · exact fun h ↦ absurd h Bool.false_ne_true

end Cursor

/-! ### Copies -/

namespace SymbolMap

/-- Clones of symbols change no statement. -/
theorem ensures_cloneMissing (map : SymbolMap) (symbols : List SymId) :
    Ensures (map.cloneMissing symbols) program (program.Reworks scope) fun _ final ↦
      program.Keeps final := by
  induction symbols generalizing map program with
  | nil => exact .stay fun _ h ↦ ⟨h, rfl⟩
  | cons symbol rest ih =>
    unfold cloneMissing
    split
    · exact ih map
    · refine ensures_modifyGet_bind.mpr (.after (.addSymbol _) ((ih _).mono (fun _ h ↦ h) ?_))
      exact fun _ _ _ hkeeps ↦ Program.Keeps.trans (fun _ h ↦ ⟨h, rfl⟩) hkeeps

end SymbolMap

namespace Program

/-- What a copy leaves: a new statement that stands nowhere, and the older ones as they were. -/
structure Copied (program : Program) (copy : StmtId) (final : Program) : Prop where
  detached : final.Detached copy
  new : ¬ program.Has copy
  keeps : program.Keeps final

/-- Copies of children are put together to the copy of their parent. -/
theorem ensures_copyParent {kind : StmtKind} {span : Span} {f : SymId → SymId} {middle : Program}
    (hlooping : scope.looping) (hfit : scope.Fits program) (hkeeps : program.Keeps middle)
    (hchildren : ∀ child ∈ kind.children, middle.Detached child ∧ ¬ program.Has child)
    (hnodup : kind.children.Nodup) :
    Ensures (modifyGet fun program ↦ program.newStmt (kind.mapSymbols f) span : Build StmtId) middle
      (middle.Reworks scope) program.Copied := by
  rw [← StmtKind.children_mapSymbols f] at hchildren hnodup
  have hhas : ∀ child ∈ (kind.mapSymbols f).children, middle.Has child :=
    fun child hc ↦ (hchildren child hc).1.has
  refine ensures_modifyGet.mpr ⟨.newStmt span (fun child hc ↦ ?_) hnodup fun _ ↦ hlooping,
    WellLinked.detached_newStmt middle span hhas, ?_, fun id hid ↦ ?_⟩
  · exact ⟨(hchildren child hc).1, .inl (hfit.new (hchildren child hc).2)⟩
  · exact fun hnext ↦ middle.not_has_nextStmt (hkeeps _ hnext).1
  · obtain ⟨hmiddle, hstmt⟩ := hkeeps id hid
    have hnot : id ∉ (kind.mapSymbols f).children := fun hmem ↦ (hchildren id hmem).2 hid
    exact ⟨(has_newStmt ..).mpr (.inl hmiddle),
      (stmt_newStmt_of_not_mem middle span hmiddle hnot).trans hstmt⟩

theorem ensures_copyNodes {copyOne : StmtId → Build StmtId}
    (hcopy : ∀ {program : Program} (id : StmtId), scope.Fits program →
      Ensures (copyOne id) program (program.Reworks scope) program.Copied)
    {ids : List StmtId} (hfit : scope.Fits program) :
    Ensures (ids.mapM copyOne) program (program.Reworks scope) fun copies final ↦
      copies.Nodup ∧ (∀ copy ∈ copies, final.Detached copy ∧ ¬ program.Has copy) ∧
        program.Keeps final := by
  induction ids generalizing program with
  | nil => exact .stay ⟨.nil, nofun, fun _ h ↦ ⟨h, rfl⟩⟩
  | cons id rest ih =>
    rw [List.mapM_cons]
    refine (hcopy id hfit).seq fun copy middle h hcopied ↦ ?_
    refine (ih (hfit.after h)).seq fun copies final h' hcopies ↦ .stay ?_
    obtain ⟨hnodup, hrest, hkeeps⟩ := hcopies
    refine ⟨List.nodup_cons.mpr ⟨fun hmem ↦ ?_, hnodup⟩, fun other hother ↦ ?_,
      hcopied.keeps.trans hkeeps⟩
    · exact (hrest copy hmem).2 hcopied.detached.has
    · rcases List.mem_cons.mp hother with rfl | hother
      · exact ⟨hkeeps.detached hcopied.detached, hcopied.new⟩
      · exact ⟨(hrest other hother).1, fun hhas ↦ (hrest other hother).2 (h.has hhas)⟩

theorem ensures_copyNode {map : SymbolMap} {depth : Nat} (hlooping : scope.looping) (id : StmtId)
    (hfit : scope.Fits program) :
    Ensures (copyNode map depth id) program (program.Reworks scope) program.Copied := by
  induction depth generalizing program id with
  | zero =>
    exact ensures_modifyGet.mpr ⟨.newAction _ _, WellLinked.detached_newStmt program _ nofun,
      program.not_has_nextStmt, keeps_newStmt _ nofun⟩
  | succ depth ih =>
    unfold copyNode
    refine ensures_get_bind.mpr ?_
    dsimp only
    split
    · rw [pure_bind]
      exact ensures_copyParent hlooping hfit (fun _ h ↦ ⟨h, rfl⟩) nofun .nil
    · rename_i condition thenBlock elseBlock _
      refine (ih thenBlock hfit).seq fun thenCopy first h hthen ↦ ?_
      split
      · rename_i elseBlock _
        refine (ih elseBlock (hfit.after h)).seq fun elseCopy second h' helse ↦ ?_
        rw [pure_bind]
        refine ensures_copyParent hlooping hfit (hthen.keeps.trans helse.keeps)
          (fun child hchild ↦ ?_) ?_
        · rcases List.mem_cons.mp hchild with rfl | hchild
          · exact ⟨helse.keeps.detached hthen.detached, hthen.new⟩
          · obtain rfl := List.mem_singleton.mp hchild
            exact ⟨helse.detached, fun hhas ↦ helse.new (h.has hhas)⟩
        · have hne : thenCopy ≠ elseCopy := by
            rintro rfl
            exact helse.new hthen.detached.has
          simp [StmtKind.children, hne]
      · rw [pure_bind]
        refine ensures_copyParent hlooping hfit hthen.keeps (fun child hchild ↦ ?_) ?_
        · obtain rfl : child = thenCopy := by simpa [StmtKind.children] using hchild
          exact ⟨hthen.detached, hthen.new⟩
        · simp [StmtKind.children]
    · rename_i info body _
      refine (ensures_copyNodes ih hfit).seq fun members middle h hmembers ↦ ?_
      rw [pure_bind]
      exact ensures_copyParent hlooping hfit hmembers.2.2 hmembers.2.1 hmembers.1

/-- A copy of a tree is new and stands nowhere, and the older statements are as they were. -/
theorem ensures_copyTree {root : StmtId} {map : SymbolMap} (hlooping : scope.looping)
    (hfit : scope.Fits program) :
    Ensures (copyTree root map) program (program.Reworks scope) fun result final ↦
      program.Copied result.1 final := by
  unfold copyTree
  refine ensures_get_bind.mpr ?_
  refine (map.ensures_cloneMissing (program.definedSymbols root)).seq fun map first h hkeeps ↦ ?_
  refine (ensures_copyNode hlooping root (hfit.after h)).seq fun copy second h' hcopied ↦ .stay ?_
  exact ⟨hcopied.detached, fun hhas ↦ hcopied.new (h.has hhas), hkeeps.trans hcopied.keeps⟩

end Program

end IteratorLowering
