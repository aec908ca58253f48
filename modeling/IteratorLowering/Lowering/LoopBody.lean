import IteratorLowering.Lowering.Loop

/-!
# Loop bodies as functions

`extractLoopBody` moves the body of a loop into a function of its own, which takes the index and
every symbol that the body mentions but does not declare. A captured symbol that the body assigns
or takes the address of is passed by reference: the function works on a local that is loaded at
its entry and stored back at its end.

`Program.captures?` lists the captured symbols. A body with a return, or with a jump to a label
that it does not place, cannot be moved.
-/

set_option autoImplicit false
set_option relaxedAutoImplicit false

namespace IteratorLowering

/-- A symbol from outside that a loop body uses. -/
structure Capture where
  symbol : SymId
  /-- Whether the body may change the symbol. -/
  byReference : Bool
  deriving DecidableEq, Repr, Inhabited

/-- The symbols that a statement assigns or takes the address of. -/
def StmtKind.mayChange : StmtKind → List SymId
  | .action (.assign target (.addressOf symbol)) => [target, symbol]
  | .action (.assign target _) => [target]
  | .action (.evaluate (.addressOf symbol)) => [symbol]
  | _ => []

namespace Program

/-- Why a statement cannot be part of an extracted body that places the given labels. -/
def extractionFault? (program : Program) (placed : List SymId) (id : StmtId) : Option Fault :=
  match program.kind id with
  | .action (.ret _) => some .returnInLoopBody
  | .action (.goto label) => if placed.contains label then none else some .gotoOutOfLoopBody
  | _ => none

/-- The symbols that a function's body mentions, apart from labels, from the function's formals
and from what the body declares itself, in order of first mention. -/
def freeSymbols (program : Program) (function : FnId) : List SymId :=
  let body := program.bodyOf function
  let defined := program.definedSymbols body
  let formals := (program.function function).formals
  let mentioned := (program.walk body).flatMap fun id => (program.kind id).symbols
  (mentioned.filter fun symbol =>
    !defined.contains symbol && !formals.contains symbol &&
      !(program.symbol symbol).isLabel).eraseDups

/-- The captured symbols of a function's body, in order of first mention. -/
def captures (program : Program) (function : FnId) : List Capture :=
  let changed := (program.functionStmts function).flatMap fun id => (program.kind id).mayChange
  (program.freeSymbols function).map fun symbol =>
    { symbol, byReference := changed.contains symbol }

end Program

/-- The captured symbols of a function's body, or the fault of the first statement that cannot be
moved out of its function. -/
def freeCaptures (function : FnId) : Pass (List Capture) := do
  let program ← get
  let body := program.bodyOf function
  let placed := program.definedSymbols body
  (program.walk body).forM fun id =>
    match program.extractionFault? placed id with
    | some fault => Pass.fault fault (program.span id)
    | none => return
  return program.captures function

/-- Give a function a formal for a captured symbol and let its body use it. A symbol passed by
reference is loaded into a local by the first cursor and stored back by the second. -/
def bindCapture (load store : Cursor) (body : StmtId) (capture : Capture) : Build Unit := do
  let function := load.function
  let program ← get
  let name := program.symbolName capture.symbol
  let type := program.symbolType capture.symbol
  if capture.byReference then
    let reference ← modifyGet fun program => program.refOf type
    let formal ← modifyGet fun program => program.addFormal function name reference
    let copy ← modifyGet fun program => program.newLocal function name type
    modify fun program => program.substitute body capture.symbol copy
    let _ ← load.define copy
    let _ ← load.assign copy (.deref formal)
    let _ ← store.store formal (.sym copy)
  else
    let formal ← modifyGet fun program => program.addFormal function name type
    modify fun program => program.substitute body capture.symbol formal

/-- Close the body of a function over the symbols that it captures, and tell which these are. -/
def closeBody (function : FnId) : Pass (List Capture) := do
  let captures ← freeCaptures function
  let program ← get
  let body := program.bodyOf function
  let span := program.span body
  let entry ← modifyGet Program.newScratch
  let exit ← modifyGet Program.newScratch
  captures.forM fun capture =>
    (bindCapture { function, block := entry, span } { function, block := exit, span } body
      capture : Build Unit)
  Edit.spliceAtHead body entry
  Edit.spliceAtTail body exit
  return captures

/-- A new function that is marked as made by the lowering. -/
def newGenerated (name : String) (span : Span) : Build FnId := do
  let function ← modifyGet fun program => program.newFunction name .void span
  modify fun program => program.modifyFunction function fun definition =>
    { definition with flags := { definition.flags with generated := true } }
  return function

/-- Move the body of a loop into a function that takes the index and the captured symbols. -/
def extractLoopBody (caller : FnId) (block : StmtId) (index : SymId) :
    Pass (FnId × List Capture) := do
  let program ← get
  let span := program.span block
  let function ← newGenerated ("_rec_iter_loop_" ++ program.functionName caller) span
  let formal ← modifyGet fun program =>
    program.addFormal function "_index" (program.symbolType index)
  let program ← get
  if let some declaration := program.findDefinition? (program.bodyOf caller) index then
    Edit.remove declaration
  let body := (← get).bodyOf function
  let _ ← Edit.push body (.action (.define index)) span
  let _ ← Edit.push body (.action (.assign index (.use (.sym formal)))) span
  modify fun program => program.setBlockInfo block none
  Edit.insertAtTail body block
  let captures ← closeBody function
  let _ ← Edit.push body (.action (.ret .void)) span
  modify fun program => program.claimLocals function body
  return (function, captures)

end IteratorLowering
