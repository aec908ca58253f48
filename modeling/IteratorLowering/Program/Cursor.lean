import IteratorLowering.Program.Basic

/-!
# Emitting statements

A `Cursor` names a block to append to, the function that new locals belong to, and the span that
emitted statements carry. Each emitter makes one statement and appends it to the cursor's block.
Nested blocks and conditionals come out empty, and `Cursor.into` moves the cursor there. A
statement emitted at something that is no block exists but stays detached.
-/

set_option autoImplicit false
set_option relaxedAutoImplicit false

namespace IteratorLowering

namespace Program

/-- Put a statement at the tail of a block; nothing happens if the target is no block. -/
def appendMember (program : Program) (block new : StmtId) : Program :=
  match program.kind block with
  | .block info body =>
    (program.setKind block (.block info (body ++ [new]))).setParent new (some block)
  | .action _ | .branch .. => program

end Program

/-- A place to emit statements at. -/
structure Cursor where
  /-- The function that new locals and labels belong to. -/
  function : FnId
  /-- The block that is appended to. -/
  block : StmtId
  /-- The span of the emitted statements. -/
  span : Span := .none
  deriving DecidableEq, Repr, Inhabited

namespace Cursor

/-- The cursor at the tail of a function's body. -/
def ofFunction (program : Program) (function : FnId) : Cursor :=
  { function, block := program.bodyOf function }

/-- The same cursor in another block. -/
def into (cursor : Cursor) (block : StmtId) : Cursor := { cursor with block }

/-- Emit a statement. -/
def emit (cursor : Cursor) (kind : StmtKind) : Build StmtId := do
  let id ← modifyGet fun program => program.newStmt kind cursor.span
  modify fun program => program.appendMember cursor.block id
  return id

/-- Emit a declaration of a local, or place a label. -/
def define (cursor : Cursor) (symbol : SymId) : Build StmtId :=
  cursor.emit (.action (.define symbol))

/-- Make a new local and declare it here. -/
def fresh (cursor : Cursor) (name : String) (type : TypeId) : Build SymId := do
  let symbol ← modifyGet fun program => program.newLocal cursor.function name type
  let _ ← cursor.define symbol
  return symbol

/-- Emit an assignment. -/
def assign (cursor : Cursor) (target : SymId) (value : Expr) : Build StmtId :=
  cursor.emit (.action (.assign target value))

/-- Emit an expression statement. -/
def evaluate (cursor : Cursor) (value : Expr) : Build StmtId :=
  cursor.emit (.action (.evaluate value))

/-- Emit a direct call for its effect. -/
def call (cursor : Cursor) (callee : FnId) (args : List Operand) : Build StmtId :=
  cursor.evaluate (.call callee args)

/-- Emit a write through a reference. -/
def store (cursor : Cursor) (reference : SymId) (value : Operand) : Build StmtId :=
  cursor.emit (.action (.store reference value))

/-- Emit a write to a field. -/
def setField (cursor : Cursor) (base : SymId) (field : FieldRef) (value : Operand) :
    Build StmtId :=
  cursor.emit (.action (.setField base field value))

/-- Emit a yield. -/
def yield (cursor : Cursor) (value : Operand) : Build StmtId :=
  cursor.emit (.action (.yield value))

/-- Emit a return. -/
def ret (cursor : Cursor) (value : Operand) : Build StmtId :=
  cursor.emit (.action (.ret value))

/-- Emit a jump. -/
def goto (cursor : Cursor) (label : SymId) : Build StmtId :=
  cursor.emit (.action (.goto label))

/-- Emit a statement that ends execution with a message. -/
def fail (cursor : Cursor) (message : String) : Build StmtId :=
  cursor.emit (.action (.fail message))

/-- Emit an empty block. -/
def openBlock (cursor : Cursor) (info : Option BlockInfo) : Build StmtId :=
  cursor.emit (.block info [])

/-- Emit an empty loop over an iterator instance. -/
def openFor (cursor : Cursor) (index iterator : SymId) : Build StmtId :=
  cursor.openBlock (some (.forEach index iterator))

/-- Emit a conditional with an empty then-branch and no else-branch, and tell the branch. -/
def openIf (cursor : Cursor) (condition : Operand) : Build StmtId := do
  let thenBlock ← modifyGet fun program => program.newStmt (.plain []) cursor.span
  let _ ← cursor.emit (.branch condition thenBlock none)
  return thenBlock

/-- Emit a conditional with two empty branches, and tell the branches. -/
def openIfElse (cursor : Cursor) (condition : Operand) : Build (StmtId × StmtId) := do
  let thenBlock ← modifyGet fun program => program.newStmt (.plain []) cursor.span
  let elseBlock ← modifyGet fun program => program.newStmt (.plain []) cursor.span
  let _ ← cursor.emit (.branch condition thenBlock (some elseBlock))
  return (thenBlock, elseBlock)

end Cursor

end IteratorLowering
