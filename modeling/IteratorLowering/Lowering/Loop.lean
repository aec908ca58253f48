import IteratorLowering.Lowering.Fault
import IteratorLowering.Program.Copy
import IteratorLowering.Program.Cursor

/-!
# What every strategy needs of a loop

A for-loop is a block whose marker names an index and an iterator instance. `loopHeader`,
`loopOwner` and `instanceIterator` find the pieces, or stop with a fault that says what is wrong
with the loop.

A copied iterator body mentions the formals of the iterator. `rebindFormals` gives each of them a
local of the new function, read from the field of the instance that holds the formal's value. The
fields are named by ordinal, since their positions may still change.
-/

set_option autoImplicit false
set_option relaxedAutoImplicit false

namespace IteratorLowering

/-- The index and the iterator of a for-loop. -/
def loopHeader (block : StmtId) : Pass (SymId × SymId) := do
  let program ← get
  Pass.require (program.kind block).forHeader? .malformedHeader (program.span block)

/-- The function that contains a loop. -/
def loopOwner (block : StmtId) : Pass FnId := do
  let program ← get
  Pass.require (program.enclosingFunction? block) .loopOutsideFunction (program.span block)

/-- The iterator function behind an instance, or the given fault. -/
def instanceIterator (source : SymId) (absent : Fault) (span : Span) : Pass FnId := do
  let program ← get
  Pass.require (program.iteratorFnOf (program.symbolType source)) absent span

/-- Make a detached statement. -/
def newAction (action : Action) (span : Span) : Build StmtId :=
  modifyGet fun program => program.newStmt (.action action) span

/-- If a formal is mentioned in the subtree, replace it by a new local that is read from the field
of the instance with the ordinal. The declaration and the read go to the cursor. -/
def rebindFormal (cursor : Cursor) (root : StmtId) (source formal : SymId) (ordinal : Nat) :
    Build Unit := do
  let program ← get
  if (program.statementsMentioning root formal).isEmpty then return
  let copy ← cursor.fresh (program.symbolName formal) (program.symbolType formal)
  modify fun program => program.substitute root formal copy
  let _ ← cursor.assign copy (.fieldAddress source (.ordinal ordinal))

/-- Replace every formal of an iterator that is mentioned in a copy of its body by a local of the
owner, and read these locals from the instance at the head of the copy. -/
def rebindFormals (root : StmtId) (iterator : FnId) (source : SymId) (owner : FnId) :
    Pass Unit := do
  let program ← get
  let formals := (program.function iterator).formals
  let scratch ← modifyGet Program.newScratch
  let cursor : Cursor := { function := owner, block := scratch, span := program.span root }
  (formals.zipIdx 1).forM fun (formal, ordinal) =>
    (rebindFormal cursor root source formal ordinal : Build Unit)
  Edit.spliceAtHead root scratch

end IteratorLowering
