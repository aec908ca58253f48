import IteratorLowering.Lowering.Loop

/-!
# Inlining an iterator into a loop

`inlineLoop` replaces a loop by a copy of the iterator's body in which every yield is replaced by
a copy of the loop's body. A new local takes the place of the loop's index in each copy and
receives the yielded value; where the iterator computes that value right before the yield and
uses it for nothing else, the computation goes straight into the new local.
-/

set_option autoImplicit false
set_option relaxedAutoImplicit false

namespace IteratorLowering

namespace Program

/-- The assignment right before a yield that computes the yielded local, if that local is
mentioned nowhere else in the subtree but in declarations of it. -/
def reusableMove? (program : Program) (root yieldStmt : StmtId) (value : Operand) :
    Option StmtId := do
  let symbol ← value.symbol?
  guard ((program.symbol symbol).kind == .var)
  let previous ← program.prevSibling? yieldStmt
  guard ((program.kind previous).written? == some symbol)
  guard ((program.statementsMentioning root symbol).all fun id =>
    id == previous || id == yieldStmt || (program.kind id).defined? == some symbol)
  return previous

/-- Let an assignment write to another local. -/
def retarget (program : Program) (id : StmtId) (target : SymId) : Program :=
  match program.kind id with
  | .action (.assign _ value) => program.setKind id (.action (.assign target value))
  | _ => program

end Program

/-- A loop that is being inlined: its block, its index, its span, the function that holds it, and
the copy of the iterator's body. -/
structure InlinedLoop where
  block : StmtId
  index : SymId
  span : Span
  owner : FnId
  copy : StmtId
  deriving DecidableEq, Repr, Inhabited

/-- Replace a yield of the copied iterator by a copy of the loop's body. -/
def inlineYield (loop : InlinedLoop) (yieldStmt : StmtId) : Pass Unit := do
  match (← get).kind yieldStmt with
  | .action (.yield value) =>
    let index ← modifyGet fun program =>
      program.newLocal loop.owner "_yieldedIndex" (program.symbolType loop.index)
    let renamed : SymbolMap := FiniteMap.empty.insert loop.index index
    let (body, _) ← Program.copyTree loop.block renamed
    let declaration ← newAction (.define index) loop.span
    match (← get).reusableMove? loop.copy yieldStmt value with
    | some move =>
      modify fun program => program.retarget move index
      Edit.insertBefore move declaration
    | none =>
      let move ← newAction (.assign index (.use value)) loop.span
      Edit.insertAtHead body move
      Edit.insertAtHead body declaration
    Edit.replace yieldStmt body
  | _ => return

/-- Replace a loop by a copy of its iterator's body, with the loop's body for every yield. -/
def inlineLoop (block : StmtId) : Pass Unit := do
  let (index, source) ← loopHeader block
  let span := (← get).span block
  let iterator ← instanceIterator source .inlinedNonIterator span
  let owner ← loopOwner block
  modify fun program => program.setBlockInfo block none
  let (copy, _) ← Program.copyTree ((← get).bodyOf iterator) .empty
  Edit.replace block copy
  let program ← get
  let returns := (program.walk copy).filter fun id => (program.kind id).isReturn
  (program.yieldsIn copy).forM (inlineYield { block, index, span, owner, copy })
  returns.forM fun id => (Edit.remove id : Edit Unit)
  rebindFormals copy iterator source owner
  modify fun program => program.claimLocals owner copy

end IteratorLowering
