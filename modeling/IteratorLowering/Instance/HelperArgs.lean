import IteratorLowering.Analysis.CallGraph
import IteratorLowering.Lowering.Loop

/-!
# Arguments in dispatch helpers

A leader or follower helper may still call an iterator with formals of the iterator that it was
made from. The values of those formals are in the fields of the helper's own first parameter.
`readHelperArgs` replaces each of them by a local that is read from there right before the
call, one field after the other from the end of the header on.
-/

set_option autoImplicit false
set_option relaxedAutoImplicit false

namespace IteratorLowering

/-- The arguments of a direct call. -/
def StmtKind.callArgs? : StmtKind → Option (List Operand)
  | .action (.assign _ (.call _ args)) => some args
  | .action (.evaluate (.call _ args)) => some args
  | _ => none

/-- A direct call with other arguments. -/
def StmtKind.withCallArgs (args : List Operand) : StmtKind → StmtKind
  | .action (.assign target (.call callee _)) => .action (.assign target (.call callee args))
  | .action (.evaluate (.call callee _)) => .action (.evaluate (.call callee args))
  | kind => kind

namespace Program

/-- Whether a type is an iterator record, seen through a reference. -/
def isIteratorRecord (program : Program) (type : TypeId) : Bool :=
  (program.type (program.valueType type)).flags.iteratorRecord

/-- Whether a function returns an iterator record, directly or through a trailing parameter for
the result. -/
def returnsIteratorRecord (program : Program) (callee : FnId) : Bool :=
  let definition := program.function callee
  program.isIteratorRecord definition.retType ||
    definition.formals.getLast?.any fun formal =>
      let entry := program.symbol formal
      entry.flags.retArg && program.isIteratorRecord entry.type

/-- Whether a function helps to dispatch to leaders or followers. -/
def isDispatchHelper (program : Program) (function : FnId) : Bool :=
  let flags := (program.function function).flags
  flags.toLeader || flags.toFollower

/-- The formal of another function that an operand is. -/
def foreignFormal? (program : Program) (function : FnId) (operand : Operand) : Option SymId :=
  operand.symbol?.filter fun symbol =>
    let entry := program.symbol symbol
    entry.kind == .arg && entry.owner != some function

/-- The calls in a function that return an iterator record. -/
def recordCalls (program : Program) (function : FnId) : List StmtId :=
  (program.functionStmts function).filter fun id =>
    (program.kind id).directCallee?.any program.returnsIteratorRecord

end Program

/-- Read the field of the iterator that holds a foreign formal into a new local before the call.
The field is read by value or by address, as the formal's type demands. -/
def readFormalField (helper : FnId) (iterator : SymId) (call : StmtId) (formal : SymId)
    (position : Nat) : Pass SymId := do
  let program ← get
  let span := program.span call
  let iteratorType := program.type (program.valueType (program.symbolType iterator))
  let field ← Pass.require (iteratorType.field? position) .tooFewHelperFields span
  let formalType := program.symbolType formal
  let value ←
    if field.type = formalType then
      pure (Expr.fieldValue iterator (.index position))
    else if (program.type field.type).refType = some formalType then
      pure (Expr.fieldAddress iterator (.index position))
    else Pass.fault (.helperFieldMismatch (program.symbolName formal)) span
  let copy ← modifyGet fun program => program.newLocal helper "_field" formalType
  let declaration ← newAction (.define copy) span
  Edit.insertBefore call declaration
  let read ← newAction (.assign copy value) span
  Edit.insertBefore call read
  return copy

/-- The arguments of a call with the foreign formals replaced, given the position of the next
field to read, and the number of replaced ones. -/
def replaceForeign (helper : FnId) (iterator : SymId) (call : StmtId) :
    Nat → List Operand → Pass (List Operand × Nat)
  | _, [] => return ([], 0)
  | position, arg :: rest => do
    match (← get).foreignFormal? helper arg with
    | some formal =>
      let copy ← readFormalField helper iterator call formal position
      let (args, count) ← replaceForeign helper iterator call (position + 1) rest
      return (.sym copy :: args, count + 1)
    | none =>
      let (args, count) ← replaceForeign helper iterator call position rest
      return (arg :: args, count)

/-- Replace the foreign formals among the arguments of a call, and count them. -/
def readHelperCall (helper : FnId) (iterator : SymId) (count : Nat) (call : StmtId) :
    Pass Nat := do
  let program ← get
  match (program.kind call).callArgs? with
  | none => return count
  | some args =>
    let iteratorType := program.type (program.valueType (program.symbolType iterator))
    let (args, replaced) ← replaceForeign helper iterator call iteratorType.headerFields args
    modify fun program => program.setKind call ((program.kind call).withCallArgs args)
    return count + replaced

/-- Replace the foreign formals in the calls of a dispatch helper, and count them. -/
def readHelper (count : Nat) (helper : FnId) : Pass Nat := do
  let program ← get
  match (program.function helper).formals.head? with
  | none => return count
  | some iterator => (program.recordCalls helper).foldlM (readHelperCall helper iterator) count

/-- Replace the foreign formals in all dispatch helpers, and tell how many there were. -/
def readHelperArgs : Pass Nat := do
  let program ← get
  (program.functionIds.filter program.isDispatchHelper).foldlM readHelper 0

end IteratorLowering
