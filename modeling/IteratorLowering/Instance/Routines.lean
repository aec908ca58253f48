import IteratorLowering.Lowering.Fault
import IteratorLowering.Program.Cursor

/-!
# Copy and destroy routines of iterator records

The layout of an iterator record is final only when no loop is left. `rebuildRoutines` gives the
copy and destroy routines of iterator records new bodies, which go through the fields in order
and use the routine registered for a field's type where there is one.
-/

set_option autoImplicit false
set_option relaxedAutoImplicit false

namespace IteratorLowering

/-- Emit a read of a field into a new local. -/
def emitFieldRead (cursor : Cursor) (record : SymId) (position : Nat) (type : TypeId) :
    Build SymId := do
  let value ← cursor.fresh "_field" type
  let _ ← cursor.assign value (.fieldValue record (.index position))
  return value

/-- Emit the copy of a field from one record to another. -/
def emitFieldDuplicate (cursor : Cursor) (record result : SymId) (position : Nat)
    (type : TypeId) : Build Unit := do
  let value ← emitFieldRead cursor record position type
  let program ← get
  match program.autoCopy.find? type with
  | some routine =>
    let copied ← cursor.fresh "_copy" (program.function routine).retType
    let _ ← cursor.assign copied (.call routine [.sym value])
    let _ ← cursor.setField result (.index position) (.sym copied)
  | none =>
    let _ ← cursor.setField result (.index position) (.sym value)

/-- Emit the destruction of a field, if there is a routine for its type. -/
def emitFieldDestroy (cursor : Cursor) (record : SymId) (position : Nat) (type : TypeId) :
    Build Unit := do
  match (← get).autoDestroy.find? type with
  | some routine =>
    let value ← emitFieldRead cursor record position type
    let _ ← cursor.call routine [.sym value]
  | none => return

/-- The symbol that holds the result of a function, a new local if it has none. -/
def resultSymbol (function : FnId) : Build SymId := do
  let definition := (← get).function function
  match definition.retSym with
  | some result => return result
  | none => modifyGet fun program => program.newLocal function "_ret" definition.retType

/-- A detached body for a copy routine. -/
def copyBody (function : FnId) (record : SymId) (fields : List FieldDef) : Build StmtId := do
  let result ← resultSymbol function
  let block ← modifyGet Program.newScratch
  let cursor : Cursor := { function, block, span := ((← get).function function).span }
  let _ ← cursor.define result
  fields.zipIdx.forM fun (field, position) =>
    emitFieldDuplicate cursor record result position field.type
  let _ ← cursor.ret (.sym result)
  return block

/-- A detached body for a destroy routine. -/
def destroyBody (function : FnId) (record : SymId) (fields : List FieldDef) : Build StmtId := do
  let block ← modifyGet Program.newScratch
  let cursor : Cursor := { function, block, span := ((← get).function function).span }
  fields.zipIdx.forM fun (field, position) => emitFieldDestroy cursor record position field.type
  let _ ← cursor.ret .void
  return block

/-- Give a function a new body if it is a copy or destroy routine of an iterator record, and count
it. -/
def rebuildRoutine (count : Nat) (function : FnId) : Pass Nat := do
  let program ← get
  let definition := program.function function
  match definition.formals with
  | [record] =>
    let type := program.type (program.valueType (program.symbolType record))
    if type.flags.iteratorRecord && definition.flags.autoCopy then
      let body ← copyBody function record type.fields
      Edit.replace definition.body body
      return count + 1
    else if type.flags.iteratorRecord && definition.flags.autoDestroy then
      let body ← destroyBody function record type.fields
      Edit.replace definition.body body
      return count + 1
    else return count
  | _ => return count

/-- Rebuild all copy and destroy routines of iterator records, and tell how many. -/
def rebuildRoutines : Pass Nat := do
  ((← get).functionIds).foldlM rebuildRoutine 0

end IteratorLowering
