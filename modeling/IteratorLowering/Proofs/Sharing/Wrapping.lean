import IteratorLowering.Proofs.Callback.Scratches
import IteratorLowering.Proofs.Passes.Callback
import IteratorLowering.Proofs.Sharing.Making

/-!
# Loop bodies and their wrappers

Two functions are made for the body of a loop (`Program.MakesCallback`): the loop is moved into the
body of the first one, and the second one, which is put into the function table, calls the first.
That the loop stands where it was moved to follows from what passes leave in place
(`Program.MovesOut.exists_function`). The call is followed from where it is emitted: the body of the
wrapper stays a block that is only added to (`Program.Fills`).
-/

set_option autoImplicit false
set_option relaxedAutoImplicit false

namespace IteratorLowering

variable {program final : Program} {function : FnId} {body outer id : StmtId}
variable {action : Action} {members : List StmtId}

namespace Program

/-- An action stands in a block. -/
structure ActionIn (program : Program) (outer id : StmtId) (action : Action) : Prop where
  parent : program.parent id = some outer
  kind : program.kind id = .action action

theorem ActionIn.of_stmt_eq (h : program.ActionIn outer id action)
    (hstmt : final.stmt id = program.stmt id) : final.ActionIn outer id action where
  parent := by rw [Program.parent, hstmt, ← h.parent, Program.parent]
  kind := by rw [Program.kind, hstmt, ← h.kind, Program.kind]

namespace PutsAtEnd

variable {block : StmtId} {new : Action}

theorem actionIn (h : program.PutsAtEnd block members action final) :
    final.ActionIn block program.nextStmt action where
  parent := h.linked.parent_of_child (by
    rw [h.block]
    exact List.mem_append_right _ (List.mem_singleton_self _))
  kind := h.new

/-- An action that is there stays where it is. -/
theorem keeps (h : program.PutsAtEnd block members new final)
    (hin : program.ActionIn outer id action) (hblock : program.kind block = .plain members) :
    final.ActionIn outer id action := by
  refine hin.of_stmt_eq (h.stmt (has_of_parent hin.parent) ?_)
  rintro rfl
  cases hblock.symm.trans hin.kind

end PutsAtEnd

/-- Statements may be emitted into the body of a function. -/
structure Fills (program : Program) (function : FnId) (body : StmtId) : Prop where
  linked : program.WellLinked
  owner : program.bodyOf function = body
  plain : ∃ members, program.kind body = .plain members

namespace Fills

theorem of_tables (h : program.Fills function body)
    (hstatements : final.statements = program.statements)
    (hsize : final.functions.size = program.functions.size)
    (hbody : ∀ id, final.bodyOf id = program.bodyOf id) : final.Fills function body where
  linked := h.linked.of_tables hstatements hsize hbody
  owner := (hbody function).trans h.owner
  plain := by
    rw [kind, stmt, hstatements]
    exact h.plain

theorem addFormal (h : program.Fills function body) (owner : FnId) (name : String) (type : TypeId) :
    (program.addFormal owner name type).2.Fills function body := by
  refine h.of_tables rfl (by simp [Program.addFormal, modifyFunction, Program.addSymbol])
    fun id ↦ ?_
  rw [bodyOf, Program.addFormal, function_modifyFunction]
  split <;> rfl

theorem refOf (h : program.Fills function body) (type : TypeId) :
    (program.refOf type).2.Fills function body := by
  refine h.of_tables ?_ ?_ fun id ↦ ?_ <;> (unfold Program.refOf; dsimp only; split <;> rfl)

theorem putsAtEnd (h : program.Fills function body)
    (hputs : program.PutsAtEnd body members action final) : final.Fills function body where
  linked := hputs.linked
  owner := by
    obtain ⟨statements, rfl⟩ := hputs.arenas
    exact h.owner
  plain := ⟨members ++ [program.nextStmt], hputs.block⟩

/-- An action that is emitted stands in the body, and those that were emitted before it stay. -/
theorem emit (h : program.Fills function body) {cursor : Cursor} (hcursor : cursor.block = body) :
    Ensures (cursor.emit (.action action)) program (fun _ ↦ True) fun _ final ↦
      final.Fills function body ∧ (∃ id, final.ActionIn body id action) ∧
        ∀ {outer id action}, program.ActionIn outer id action → final.ActionIn outer id action := by
  obtain ⟨members, hmembers⟩ := h.plain
  subst hcursor
  refine (ensures_emitAction h.linked hmembers action).mono (fun _ _ ↦ trivial) ?_
  exact fun _ _ _ hputs ↦ ⟨h.putsAtEnd hputs, ⟨_, hputs.actionIn⟩, fun hin ↦
    hputs.keeps hin hmembers⟩

theorem fresh (h : program.Fills function body) {cursor : Cursor} (hcursor : cursor.block = body)
    {name : String} {type : TypeId} :
    Ensures (cursor.fresh name type) program (fun _ ↦ True) fun _ final ↦
      final.Fills function body := by
  unfold Cursor.fresh
  refine ensures_modifyGet_bind.mpr ?_
  have hnew : (program.newLocal cursor.function name type).2.Fills function body :=
    h.of_tables rfl rfl fun _ ↦ rfl
  exact Ensures.bind (hnew.emit hcursor) fun _ _ _ h ↦ .pure trivial h.1

theorem change (m : Type → Type) [Monad m] [MonadStateOf Program m] [Runs m Program] {α : Type}
    {change : Program → α × Program} (h : (change program).2.Fills function body) :
    Ensures (modifyGet change : m α) program (fun _ ↦ True) fun _ final ↦
      final.Fills function body :=
  ensures_modifyGet.mpr ⟨trivial, h⟩

end Fills

end Program

theorem fills_newGenerated (hlinked : program.WellLinked) {name : String} {span : Span} :
    Ensures (newGenerated name span) program (fun _ ↦ True) fun function final ↦
      final.Fills function program.nextStmt := by
  refine ensures_modifyGet_bind.mpr (ensures_modify_bind.mpr (ensures_pure.mpr ⟨trivial, ?_⟩))
  have hreworks : program.Reworks .everything _ :=
    .newFlagged name .void span fun flags ↦ { flags with generated := true }
  obtain ⟨-, hfunction⟩ := program.function_newFlagged name .void span
    fun flags ↦ { flags with generated := true }
  refine ⟨hreworks.wellLinked hlinked, congrArg FnDef.body hfunction, [], ?_⟩
  refine (Program.kind_setBodyOf ..).trans ((Program.kind_newStmt ..).trans (if_pos rfl))

theorem Program.Fills.readFields (h : program.Fills function body) {cursor : Cursor}
    (hcursor : cursor.block = body) {record : SymId} {fields : List FieldDef} :
    Ensures (readFields cursor record fields) program (fun _ ↦ True) fun _ final ↦
      final.Fills function body := by
  refine .mapM_result (fun _ ↦ trivial) (fun _ _ _ h ↦ ?_) h
  refine Ensures.bind (h.fresh hcursor) fun value _ _ h ↦ ?_
  exact Ensures.bind (h.emit hcursor) fun _ _ _ h ↦ .pure trivial h.1

/-- The wrapper calls the loop body. -/
theorem ensures_buildWrapper_calls (hlinked : program.WellLinked) {caller loopBody : FnId}
    {bundle : TypeId} {span : Span} :
    Ensures (buildWrapper caller loopBody bundle span) program (fun _ ↦ True) fun wrapper final ↦
      ∃ id args, final.ActionIn (final.bodyOf wrapper) id (.evaluate (.call loopBody args)) := by
  unfold buildWrapper
  refine ensures_get_bind.mpr ?_
  refine Ensures.bind (fills_newGenerated hlinked).build fun wrapper _ _ h ↦ ?_
  refine ensures_require_bind trivial fun indexType hindex ↦ ?_
  refine Ensures.bind (Program.Fills.change Pass (h.addFormal wrapper _ _))
    fun index _ _ h ↦ ?_
  refine Ensures.bind (Program.Fills.change Pass (h.refOf bundle)) fun reference _ _ h ↦ ?_
  refine Ensures.bind (Program.Fills.change Pass (h.addFormal wrapper _ reference))
    fun packed middle _ h ↦ ?_
  refine ensures_get_bind.mpr ?_
  have hcursor := h.owner
  refine Ensures.bind (h.fresh hcursor).build fun unpacked _ _ h ↦ ?_
  refine Ensures.bind (h.emit hcursor).build fun _ _ _ h ↦ ?_
  refine Ensures.bind (h.1.readFields hcursor).build fun values _ _ h ↦ ?_
  refine Ensures.bind (h.emit hcursor).build fun _ _ _ ⟨h, ⟨id, hcall⟩, _⟩ ↦ ?_
  refine Ensures.bind (h.emit hcursor).build fun _ _ _ ⟨h, _, hkeeps⟩ ↦ .pure trivial ?_
  exact ⟨id, _, h.owner.symm ▸ hkeeps hcall⟩

/-- A loop that was moved out stands in the body of a new function. -/
theorem Program.MovesOut.exists_function {block : StmtId} (h : program.MovesOut block final)
    (hlinked : program.WellLinked) (hhas : program.Has block)
    (hcompound : (program.kind block).isAction = false) :
    ∃ function, ¬ program.HasFunction function ∧ final.HasFunction function ∧
      final.parent block = some (final.bodyOf function) := by
  obtain ⟨middle, hextracted, hrenamed⟩ := h
  obtain ⟨function, hnew, hfunction, hparent⟩ := hextracted.inside
  have hmiddle := hextracted.reworks.wellLinked hlinked
  -- What was there already stays where it is while symbols are renamed.
  have hplace {id : StmtId} (hid : middle.Has id) (hcompound : (middle.kind id).isAction = false) :=
    hrenamed.place hid hcompound (not_not_intro hid)
  have hbody : (final.stmt (middle.bodyOf function)).bodyOf = some function := by
    rw [(hplace (hmiddle.has_body hfunction)
      (StmtKind.isAction_eq_false_of_mem (hmiddle.child_of_parent hparent))).2]
    exact hmiddle.bodyOf_body hfunction
  refine ⟨function, hnew, (hrenamed.grows.function hfunction).1, ?_⟩
  rw [((hrenamed.wellLinked hmiddle).body_of_bodyOf hbody).2, ← hparent]
  exact (hplace (hextracted.reworks.has hhas)
    ((hextracted.reworks.isAction hhas).trans hcompound)).1

/-- A loop body has become a function, and a function in the table calls it. -/
structure Program.MakesCallback (program : Program) (block : StmtId) (loopBody : FnId) (slot : Nat)
    (bundle : TypeId) (final : Program) : Prop where
  linked : final.WellLinked
  typed : program.TypedWith 2 final
  isNext : loopBody = ⟨program.functions.size⟩
  bundle : final.HasType bundle
  slot : final.table.get? slot = some ⟨program.functions.size + 1⟩
  moved : final.parent block = some (final.bodyOf loopBody)
  wraps : ∃ id args, final.ActionIn (final.bodyOf ⟨program.functions.size + 1⟩) id
    (.evaluate (.call loopBody args))

/-- The function that a loop is moved into is the only new one. -/
theorem moved_of_extractLoopBody (hlinked : program.WellLinked)
    (htyped : program.TypedWith 0 program)
    {block parent : StmtId} (hcompound : (program.kind block).isAction = false)
    (hparent : program.parent block = some parent) {caller loopBody : FnId} {index : SymId}
    {captures : List Capture}
    (h : extractLoopBody caller block index program = .ok (loopBody, captures) final) :
    final.HasFunction loopBody ∧ final.parent block = some (final.bodyOf loopBody) := by
  obtain ⟨-, hfinal, hnext⟩ := (typed_extractLoopBody htyped).of_eq_ok h
  obtain ⟨-, hmoved⟩ := (ensures_extractLoopBody trivial (.everything hlinked)
    (trivial : Scope.everything.moved block) (Program.has_of_parent hparent)
    (hlinked.ownerless_of_parent hparent)).of_eq_ok h
  obtain ⟨function, hnew, hfunction, hinside⟩ :=
    hmoved.exists_function hlinked (Program.has_of_parent hparent) hcompound
  have hsame : function = loopBody := by
    refine Eq.trans ?_ hnext.symm
    obtain ⟨index⟩ := function
    have hsize := hfinal.functions
    simp only [Program.HasFunction, FnId.mk.injEq] at hnew hfunction ⊢
    omega
  exact hsame ▸ ⟨hfunction, hinside⟩

theorem makesCallback_of_eq_ok (hlinked : program.WellLinked) (htyped : program.WellTyped)
    (hapart : program.BundlesApart) {block parent : StmtId}
    (hcompound : (program.kind block).isAction = false)
    (hparent : program.parent block = some parent)
    {caller loopBody : FnId} {index : SymId} {span : Span} {slot : Nat} {bundle : TypeId}
    {captures : List Capture}
    (h : buildCallback caller block index span program =
      .ok (loopBody, slot, bundle, captures) final) :
    program.MakesCallback block loopBody slot bundle final := by
  have hall : Scope.everything.Fits program := .everything hlinked
  have hsofar : program.TypedWith 0 program := .refl htyped hapart
  obtain ⟨-, htypedFinal, hloopBody, hbundle, hslot⟩ := (typed_buildCallback hsofar).of_eq_ok h
  obtain ⟨hreworks, -⟩ :=
    (ensures_buildCallback trivial hall trivial (Program.has_of_parent hparent)
    (hlinked.ownerless_of_parent hparent)).of_eq_ok h
  unfold buildCallback at h
  obtain ⟨⟨_, _⟩, captured, hextract, h⟩ := exists_of_bind_eq_ok h
  obtain ⟨_, bundled, hmakes, h⟩ := exists_of_bind_eq_ok h
  obtain ⟨wrapper, wrapped, hwrap, h⟩ := exists_of_bind_eq_ok h
  cases h
  obtain ⟨hextracted, -⟩ := (ensures_extractLoopBody trivial hall trivial
    (Program.has_of_parent hparent) (hlinked.ownerless_of_parent hparent)).of_eq_ok hextract
  have hlinkedCaptured := hextracted.wellLinked hlinked
  obtain ⟨hfunction, hinside⟩ :=
    moved_of_extractLoopBody hlinked hsofar hcompound hparent hextract
  -- The wrapper leaves the loop where it was moved to.
  have hfit := Scope.fits_relabeling hlinkedCaptured
  have hbundle' : Stays (Scope.relabeling captured) captured (newBundle loopBody) := stays_newBundle
  obtain ⟨hbundled, -⟩ := hbundle'.build.of_eq_ok hmakes
  obtain ⟨hwrapped, -⟩ := (stays_buildWrapper (hfit.after hbundled)).of_eq_ok hwrap
  have hstays := hbundled.trans hwrapped
  have hhas := hextracted.has (Program.has_of_parent hparent)
  have hstill := (hextracted.isAction (Program.has_of_parent hparent)).trans hcompound
  have hwrapper : wrapper = ⟨program.functions.size + 1⟩ :=
    Option.some.inj ((FunctionTable.get?_register_self ..).symm.trans hslot)
  obtain ⟨-, call, args, hwraps⟩ :=
    (ensures_buildWrapper_calls (hbundled.wellLinked hlinkedCaptured)).of_eq_ok hwrap
  exact {
    linked := hreworks.wellLinked hlinked
    typed := htypedFinal
    isNext := hloopBody
    bundle := hbundle
    slot := hslot
    moved := (hstays.place hhas hstill (not_not_intro hhas)).1.trans
      (hinside.trans (congrArg some (hstays.body not_false hfunction).symm))
    wraps := ⟨call, args, hwrapper ▸ hwraps.of_stmt_eq rfl⟩ }

end IteratorLowering
