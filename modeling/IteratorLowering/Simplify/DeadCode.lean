import IteratorLowering.Simplify.Gotos

/-!
# Removing dead code

`removeDeadVariables` removes the locals of a function that are never read, together with the
assignments to them; an assigned expression that has an effect stays behind as an expression
statement. Since that can leave other locals unread, it goes on until every local is read.
`removeDeadExpressions` removes expression statements without effect and empty statements.
-/

set_option autoImplicit false
set_option relaxedAutoImplicit false

namespace IteratorLowering

namespace Program

/-- The local variables that are declared in a function but never read in it, except for the one
that holds its result. -/
def unreadLocals (program : Program) (function : FnId) : List SymId :=
  let body := program.functionStmts function
  let read := body.flatMap fun id => (program.kind id).reads
  let declared := body.filterMap fun id => (program.kind id).defined?
  (declared.filter fun symbol =>
    (program.symbol symbol).kind == .var && some symbol != (program.function function).retSym &&
      !read.contains symbol).eraseDups

/-- Whether a statement does nothing but evaluate a pure expression, or nothing at all. -/
def isIdle (program : Program) (id : StmtId) : Bool :=
  match program.kind id with
  | .action (.evaluate value) => value.isPure
  | .action .noop => true
  | _ => false

end Program

/-- Remove a declaration of a dead variable, or an assignment to one; an expression with an
effect stays. -/
def removeDeadUse (dead : List SymId) (id : StmtId) : Pass Unit := do
  match (← get).kind id with
  | .action (.define symbol) =>
    if dead.contains symbol then Edit.remove id
  | .action (.assign target value) =>
    if dead.contains target then
      if value.isPure then Edit.remove id
      else modify fun program => program.setKind id (.action (.evaluate value))
  | _ => return

/-- Remove unread locals for at most the given number of rounds, or until every local is read. -/
def removeDeadRounds (function : FnId) : Nat → Nat → Pass Nat
  | 0, count => return count
  | rounds + 1, count => do
    let program ← get
    let dead := program.unreadLocals function
    if dead.isEmpty then return count
    (program.functionStmts function).forM (removeDeadUse dead)
    removeDeadRounds function rounds (count + dead.length)

/-- Remove the locals of a function that are never read, and tell how many. Each round takes a
declaration out of the body, so one round for each statement of the body is enough. -/
def removeDeadVariables (function : FnId) : Pass Nat := do
  removeDeadRounds function (((← get).functionStmts function).length + 1) 0

/-- Remove the statements of a function that do nothing, and tell how many. -/
def removeDeadExpressions (function : FnId) : Pass Nat := do
  ((← get).functionStmts function).foldlM (removeIf Program.isIdle) 0

end IteratorLowering
