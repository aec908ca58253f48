import IteratorLowering.Lowering.Fault

/-!
# Collapsing plain blocks

A block without a marker that is a direct member of another block is only a pair of braces.
`collapseBlocks` puts its members in its place. Branches of conditionals and the bodies of
functions stay blocks.
-/

set_option autoImplicit false
set_option relaxedAutoImplicit false

namespace IteratorLowering

/-- Whether a statement is a plain block that stands directly in a block. -/
def Program.isCollapsible (program : Program) (id : StmtId) : Bool :=
  (program.kind id).isBlock && (program.blockInfo? id).isNone &&
    (program.parent id).any fun parent => (program.kind parent).isBlock

/-- Put the members of a block in its place, if it is a plain block in a block. -/
def collapseBlock (count : Nat) (id : StmtId) : Pass Nat := do
  if (← get).isCollapsible id then
    Edit.spliceBefore id id
    Edit.remove id
    return count + 1
  else
    return count

/-- Collapse the plain blocks in the body of a function, inner ones first, and tell how many. -/
def collapseBlocks (function : FnId) : Pass Nat := do
  ((← get).functionStmts function).reverse.foldlM collapseBlock 0

end IteratorLowering
