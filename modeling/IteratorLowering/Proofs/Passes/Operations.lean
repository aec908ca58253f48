import IteratorLowering.Proofs.Passes.Pipeline

/-!
# Operations on programs

An `Operation` makes a statement, edits the statement forest, emits at a cursor, copies a tree, or
runs a pass of the lowering or all of it. It may fail, and `Operation.perform` is the program that
is left in either case. A program that is well linked stays so, whatever is done to it
(`wellLinked_of_reachable`), as long as the operations are admissible: a new statement takes
over only statements that stand nowhere, and a statement that is inserted somewhere is no body of
a function. It may be nested in the place where it is put, and the place where it is put may be
nested in it.

The hand-off of iterators to the state machines is a parameter of the lowering, and it must keep a
program well linked too.
-/

set_option autoImplicit false
set_option relaxedAutoImplicit false

namespace IteratorLowering

/-- The state that a computation leaves, with or without a result. -/
def leftBy {m : Type → Type} {State α : Type} [Monad m] [MonadStateOf State m] [Runs m State]
    (computation : m α) (state : State) : State :=
  (Runs.run computation state).2

/-- A pass of the lowering. -/
inductive LoweringPass where
  | fragmentConfined
  | collapseBlocks (function : FnId)
  | removeGotos (function : FnId)
  | forwardCopies (function : FnId)
  | removeDeadVariables (function : FnId)
  | removeDeadExpressions (function : FnId)
  | tidyIterator (config : LoweringConfig) (function : FnId)
  | inlineLoop (block : StmtId)
  | expandLoop (block : StmtId)
  | zipSetup (block : StmtId) (index iterator : SymId) (owner : FnId)
  | fuseLoop (block : StmtId) (setup : ZipSetup) (owner : FnId)
  | zipLoop (block : StmtId)
  | protocolCall (owner : FnId) (op : ProtocolOp) (source : SymId) (result : Option SymId)
  | lowerProtocol (config : LoweringConfig) (block : StmtId)
  | lowerWithCallback (block : StmtId)
  | lowerLoop (block : StmtId)
  | inlineMarkedLoops
  | lowerRemainingLoops
  | resolveOrdinals
  | readHelperArgs
  | addSubtypeDispatch
  | rebuildRoutines
  | finishInstances
  deriving DecidableEq, Repr, Inhabited

/-- Run a pass and leave its result unused. -/
def LoweringPass.run : LoweringPass → Lowering Unit
  | .fragmentConfined => do let _ ← IteratorLowering.fragmentConfined
  | .collapseBlocks function => do let _ ← IteratorLowering.collapseBlocks function
  | .removeGotos function => do let _ ← IteratorLowering.removeGotos function
  | .forwardCopies function =>
    (modify fun program => (program.forwardCopies function).2 : Pass Unit)
  | .removeDeadVariables function => do let _ ← IteratorLowering.removeDeadVariables function
  | .removeDeadExpressions function => do let _ ← IteratorLowering.removeDeadExpressions function
  | .tidyIterator config function => IteratorLowering.tidyIterator config function
  | .inlineLoop block => IteratorLowering.inlineLoop block
  | .expandLoop block => do let _ ← IteratorLowering.expandLoop block
  | .zipSetup block index iterator owner => do
    let _ ← IteratorLowering.zipSetup block index iterator owner
  | .fuseLoop block setup owner => IteratorLowering.fuseLoop block setup owner
  | .zipLoop block => IteratorLowering.zipLoop block
  | .protocolCall owner op source result => do
    let _ ← IteratorLowering.protocolCall owner op source result
  | .lowerProtocol config block => IteratorLowering.lowerProtocol config block
  | .lowerWithCallback block => IteratorLowering.lowerWithCallback block
  | .lowerLoop block => do let _ ← IteratorLowering.lowerLoop block
  | .inlineMarkedLoops => IteratorLowering.inlineMarkedLoops
  | .lowerRemainingLoops => IteratorLowering.lowerRemainingLoops
  | .resolveOrdinals => do let _ ← IteratorLowering.resolveOrdinals
  | .readHelperArgs => do let _ ← IteratorLowering.readHelperArgs
  | .addSubtypeDispatch => do let _ ← IteratorLowering.addSubtypeDispatch
  | .rebuildRoutines => do let _ ← IteratorLowering.rebuildRoutines
  | .finishInstances => IteratorLowering.finishInstances

/-- An operation on a program. -/
inductive Operation where
  | newStmt (kind : StmtKind) (span : Span)
  | push (block : StmtId) (kind : StmtKind) (span : Span)
  | insertBefore (anchor new : StmtId)
  | insertAfter (anchor new : StmtId)
  | insertAtHead (block new : StmtId)
  | insertAtTail (block new : StmtId)
  | remove (id : StmtId)
  | replace (old new : StmtId)
  | takeBody (block : StmtId)
  | spliceBefore (anchor scratch : StmtId)
  | spliceAfter (anchor scratch : StmtId)
  | spliceAtHead (block scratch : StmtId)
  | spliceAtTail (block scratch : StmtId)
  | newFunction (name : String) (retType : TypeId) (span : Span)
  | addSymbol (entry : Symbol)
  | addFormal (function : FnId) (name : String) (type : TypeId)
  | emit (cursor : Cursor) (kind : StmtKind)
  | fresh (cursor : Cursor) (name : String) (type : TypeId)
  | openIf (cursor : Cursor) (condition : Operand)
  | openIfElse (cursor : Cursor) (condition : Operand)
  | copyTree (root : StmtId) (map : SymbolMap)
  | runPass (context : LoweringContext) (pass : LoweringPass)
  | lower (config : LoweringConfig) (handOff : HandOff) (queue : DiagnosticQueue)

namespace Operation

/-- The program that is left after an operation, whether it failed or not. -/
def perform (program : Program) : Operation → Program
  | .newStmt kind span => (program.newStmt kind span).2
  | .push block kind span => leftBy (Edit.push block kind span) program
  | .insertBefore anchor new => leftBy (Edit.insertBefore anchor new) program
  | .insertAfter anchor new => leftBy (Edit.insertAfter anchor new) program
  | .insertAtHead block new => leftBy (Edit.insertAtHead block new) program
  | .insertAtTail block new => leftBy (Edit.insertAtTail block new) program
  | .remove id => leftBy (Edit.remove id) program
  | .replace old new => leftBy (Edit.replace old new) program
  | .takeBody block => leftBy (Edit.takeBody block) program
  | .spliceBefore anchor scratch => leftBy (Edit.spliceBefore anchor scratch) program
  | .spliceAfter anchor scratch => leftBy (Edit.spliceAfter anchor scratch) program
  | .spliceAtHead block scratch => leftBy (Edit.spliceAtHead block scratch) program
  | .spliceAtTail block scratch => leftBy (Edit.spliceAtTail block scratch) program
  | .newFunction name retType span => (program.newFunction name retType span).2
  | .addSymbol entry => (program.addSymbol entry).2
  | .addFormal function name type => (program.addFormal function name type).2
  | .emit cursor kind => leftBy (cursor.emit kind) program
  | .fresh cursor name type => leftBy (cursor.fresh name type) program
  | .openIf cursor condition => leftBy (cursor.openIf condition) program
  | .openIfElse cursor condition => leftBy (cursor.openIfElse condition) program
  | .copyTree root map => leftBy (Program.copyTree root map) program
  | .runPass context pass => (leftBy pass.run { program, context }).program
  | .lower config handOff queue => leftBy (lowersTo config handOff queue) program

/-- Whether the statements that an operation is given may be put where it puts them. -/
def Admissible (program : Program) : Operation → Prop
  | .newStmt kind _ | .push _ kind _ | .emit _ kind =>
    kind.children.Nodup ∧ ∀ child ∈ kind.children, program.Detached child
  | .insertBefore _ new | .insertAfter _ new | .insertAtHead _ new | .insertAtTail _ new |
    .replace _ new => program.Has new ∧ (program.stmt new).bodyOf = none
  | .lower _ handOff _ => handOff.KeepsLinks
  | .remove .. | .takeBody .. | .spliceBefore .. | .spliceAfter .. | .spliceAtHead .. |
    .spliceAtTail .. | .newFunction .. | .addSymbol .. | .addFormal .. | .fresh .. |
    .openIf .. | .openIfElse .. | .copyTree .. | .runPass .. => True

end Operation

/-- A program that is reached by admissible operations. -/
inductive Program.Reachable (start : Program) : Program → Prop
  | start : start.Reachable start
  | step {program : Program} (h : start.Reachable program) (operation : Operation)
      (hadmissible : operation.Admissible program) : start.Reachable (operation.perform program)

variable {program : Program}

theorem Stays.leftBy {m : Type → Type} {α : Type} [Monad m] [MonadStateOf Program m]
    [Runs m Program] {scope : Scope} {computation : m α} (h : Stays scope program computation)
    (hlinked : program.WellLinked) : (leftBy computation program).WellLinked :=
  h.1.wellLinked hlinked

/-! ### Passes -/

section

variable {state : LoweringState} {scope : Scope}

theorem Stays.runs {pass : Pass Unit} (h : Stays scope state.program pass)
    (hlinked : state.program.WellLinked) :
    Ensures (liftM pass : Lowering Unit) state (fun final ↦ final.program.WellLinked)
      fun _ _ ↦ True :=
  (h.wellLinked hlinked).loweringLinked.mono (fun _ h ↦ h) fun _ _ _ _ ↦ trivial

theorem Stays.runsIgnoring {α : Type} {pass : Pass α} (h : Stays scope state.program pass)
    (hlinked : state.program.WellLinked) :
    Ensures (do let _ ← (liftM pass : Lowering α)) state (fun final ↦ final.program.WellLinked)
      fun _ _ ↦ True :=
  (h.wellLinked hlinked).loweringLinked.bind fun _ _ _ h ↦ .pure h trivial

theorem LoweringState.Reworks.runs {computation : Lowering Unit}
    {result : Unit → LoweringState → Prop}
    (h : Ensures computation state (state.Reworks scope) result)
    (hlinked : state.program.WellLinked) :
    Ensures computation state (fun final ↦ final.program.WellLinked) fun _ _ ↦ True :=
  h.mono (fun _ h ↦ h.program.wellLinked hlinked) fun _ _ _ _ ↦ trivial

theorem LoweringPass.ensures_run (pass : LoweringPass) (hlinked : state.program.WellLinked) :
    Ensures pass.run state (fun final ↦ final.program.WellLinked) fun _ _ ↦ True := by
  have hfit := Scope.Fits.everything hlinked
  cases pass with
  | fragmentConfined => exact (stays_fragmentConfined hlinked).runsIgnoring hlinked
  | collapseBlocks function => exact (stays_collapseBlocks hlinked).runsIgnoring hlinked
  | removeGotos function =>
    exact (stays_removeGotos : Stays Scope.everything _ _).runsIgnoring hlinked
  | forwardCopies function =>
    have hforward := @Program.reworks_forwardCopies Scope.everything state.program function
    exact Stays.runs (stays_modify hforward) hlinked
  | removeDeadVariables function =>
    exact (stays_removeDeadVariables : Stays Scope.everything _ _).runsIgnoring hlinked
  | removeDeadExpressions function =>
    exact (stays_removeDeadExpressions : Stays Scope.everything _ _).runsIgnoring hlinked
  | tidyIterator config function => exact (stays_tidyIterator hlinked).runs hlinked
  | inlineLoop block => exact (ensures_inlineLoop trivial hfit trivial).stays.runs hlinked
  | expandLoop block =>
    refine Ensures.bind ((ensures_expandLoop hlinked).tagged.mono
      (fun _ h ↦ h.program.wellLinked hlinked) fun _ _ _ h ↦ h.1.program.wellLinked hlinked)
      fun _ _ _ h ↦ .pure h trivial
  | zipSetup block index iterator owner =>
    exact (stays_zipSetup : Stays Scope.everything _ _).runsIgnoring hlinked
  | fuseLoop block setup owner => exact (ensures_fuseLoop trivial hfit trivial).stays.runs hlinked
  | zipLoop block => exact (ensures_zipLoop hfit trivial trivial).stays.runs hlinked
  | protocolCall owner op source result =>
    exact (ensures_protocolCall hfit).stays.runsIgnoring hlinked
  | lowerProtocol config block => exact (ensures_lowerProtocol hfit trivial).stays.runs hlinked
  | lowerWithCallback block =>
    exact LoweringState.Reworks.runs (ensures_lowerWithCallback trivial hfit trivial) hlinked
  | lowerLoop block =>
    exact Ensures.bind ((ensures_lowerLoop hlinked).tagged.mono
      (fun _ h ↦ h.wellLinked hlinked) fun _ _ _ h ↦ h.1.wellLinked hlinked)
      fun _ _ _ h ↦ .pure h trivial
  | inlineMarkedLoops =>
    exact LoweringState.Reworks.runs (ensures_inlineMarkedLoops hlinked) hlinked
  | lowerRemainingLoops =>
    exact (ensures_lowerRemainingLoops hlinked).mono (fun _ h ↦ h.wellLinked hlinked)
      fun _ _ _ _ ↦ trivial
  | resolveOrdinals =>
    exact (stays_resolveOrdinals : Stays Scope.everything _ _).runsIgnoring hlinked
  | readHelperArgs =>
    exact (stays_readHelperArgs : Stays Scope.everything _ _).runsIgnoring hlinked
  | addSubtypeDispatch => exact (stays_addSubtypeDispatch hfit).runsIgnoring hlinked
  | rebuildRoutines => exact (ensures_rebuildRoutines hlinked).runsIgnoring hlinked
  | finishInstances => exact (stays_finishInstances hlinked).runs hlinked

end

/-! ### All operations -/

namespace Operation

/-- One operation keeps a program well linked. -/
theorem wellLinked_perform {operation : Operation} (hlinked : program.WellLinked)
    (hadmissible : operation.Admissible program) : (operation.perform program).WellLinked := by
  have hfit := Scope.Fits.everything hlinked
  have hloose : ∀ {new}, program.Has new ∧ (program.stmt new).bodyOf = none →
      program.Loose Scope.everything.rooted new := fun h ↦ ⟨h.1, h.2, .inl trivial⟩
  have hchildren : ∀ {kind : StmtKind}, (∀ child ∈ kind.children, program.Detached child) →
      ∀ child ∈ kind.children, program.Detached child ∧ program.Movable Scope.everything child :=
    fun h child hchild ↦ ⟨h child hchild, .inl trivial⟩
  cases operation with
  | newStmt kind span =>
    exact (Program.Reworks.newStmt span (hchildren hadmissible.2) hadmissible.1
      fun _ ↦ trivial).wellLinked hlinked
  | push block kind span =>
    exact (Edit.ensures_push (hchildren hadmissible.2) hadmissible.1 (fun _ ↦ trivial)
      (.inr trivial)).leftBy hlinked
  | insertBefore anchor new =>
    exact (Edit.ensures_insertBefore (hloose hadmissible)).stays.leftBy hlinked
  | insertAfter anchor new => exact (Edit.stays_insertAfter (hloose hadmissible)).leftBy hlinked
  | insertAtHead block new =>
    exact (Edit.ensures_insertAtHead (hloose hadmissible)).stays.leftBy hlinked
  | insertAtTail block new =>
    exact (Edit.ensures_insertAtTail (hloose hadmissible)).stays.leftBy hlinked
  | remove id =>
    have hremove := @Edit.ensures_remove Scope.everything program id (.inl trivial)
    exact hremove.stays.leftBy hlinked
  | replace old new =>
    exact (Edit.ensures_replace hlinked (hloose hadmissible) (.inr ⟨trivial, trivial⟩)
      (.inl trivial) (.inl trivial)).stays.leftBy hlinked
  | takeBody block =>
    have htake := @Edit.ensures_takeBody Scope.everything program block hlinked
      fun _ _ ↦ .inl trivial
    exact htake.stays.leftBy hlinked
  | spliceBefore anchor scratch => exact (Edit.fits_spliceBefore hfit trivial).leftBy hlinked
  | spliceAfter anchor scratch => exact (Edit.fits_spliceAfter hfit trivial).leftBy hlinked
  | spliceAtHead block scratch => exact (Edit.fits_spliceAtHead hfit trivial).leftBy hlinked
  | spliceAtTail block scratch => exact (Edit.fits_spliceAtTail hfit trivial).leftBy hlinked
  | newFunction name retType span =>
    have hreworks : program.Reworks Scope.everything _ := .newFunction name retType span
    exact hreworks.wellLinked hlinked
  | addSymbol entry =>
    exact (Program.Reworks.addSymbol entry : program.Reworks Scope.everything _).wellLinked hlinked
  | addFormal function name type =>
    refine hlinked.of_tables rfl ?_ fun other ↦ ?_
    · simp [perform, Program.addFormal, Program.modifyFunction, Program.addSymbol]
    · rw [perform, Program.addFormal, Program.bodyOf, Program.function_modifyFunction]
      split <;> rfl
  | emit cursor kind =>
    exact (Cursor.stays_emit hfit (hchildren hadmissible.2) hadmissible.1 fun _ ↦ trivial).leftBy
      hlinked
  | fresh cursor name type => exact (Cursor.stays_fresh hfit).leftBy hlinked
  | openIf cursor condition => exact (Cursor.stays_openIf hfit).leftBy hlinked
  | openIfElse cursor condition => exact (Cursor.stays_openIfElse hfit).leftBy hlinked
  | copyTree root map => exact (Program.ensures_copyTree trivial hfit).stays.leftBy hlinked
  | runPass context pass => exact (pass.ensures_run hlinked).1
  | lower config handOff queue => exact (ensures_lowersToLinked hadmissible hlinked).1

end Operation

/-- Every program that is reached from a well-linked one is well linked, whatever failed on the
way. -/
theorem wellLinked_of_reachable {start : Program} (hlinked : start.WellLinked)
    (hreachable : start.Reachable program) : program.WellLinked := by
  induction hreachable with
  | start => exact hlinked
  | step _ operation hadmissible ih => exact operation.wellLinked_perform ih hadmissible

/-- A function that holds a block with a statement in it and an empty block. -/
def adjacentBlocks : Program where
  types := builtinTypes
  statements := #[
    { kind := .plain [⟨1⟩, ⟨3⟩], bodyOf := some ⟨0⟩, span := .none },
    { kind := .plain [⟨2⟩], parent := some ⟨0⟩, span := .none },
    { kind := .action .noop, parent := some ⟨1⟩, span := .none },
    { kind := .plain [], parent := some ⟨0⟩, span := .none }]
  functions := #[{ name := "main", retType := .void, body := ⟨0⟩ }]

/-- A block is moved into the other one and takes its place, removing the body of the function
fails, and what is left is lowered. -/
theorem wellLinked_adjacentBlocks :
    let moved := (Operation.insertAtTail ⟨3⟩ ⟨1⟩).perform adjacentBlocks
    let replaced := (Operation.replace ⟨3⟩ ⟨1⟩).perform moved
    let removed := (Operation.remove ⟨0⟩).perform replaced
    let lowered := (Operation.lower {} (fun _ ↦ pure ()) {}).perform removed
    adjacentBlocks.WellLinked ∧ moved.blockBody ⟨3⟩ = [⟨1⟩] ∧ removed.blockBody ⟨0⟩ = [⟨1⟩] ∧
      lowered.WellLinked := by
  intro moved replaced removed lowered
  have hlinked : adjacentBlocks.WellLinked := by decide
  have hedited : adjacentBlocks.Reachable removed :=
    ((Program.Reachable.start.step (.insertAtTail ⟨3⟩ ⟨1⟩) (.intro (by decide) (by decide))).step
      (.replace ⟨3⟩ ⟨1⟩) (.intro (by decide) (by decide))).step (.remove ⟨0⟩) trivial
  refine ⟨hlinked, by decide, by decide, wellLinked_of_reachable hlinked (hedited.step _ ?_)⟩
  exact fun _ _ h ↦ .pure h trivial

end IteratorLowering
