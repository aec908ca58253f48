import IteratorLowering.Program.Edit

/-!
# Statements as trees

A `StmtTree` is a statement with everything nested in it, free of handles. `Program.tree` reads
the tree below a handle. In the other direction a tree can be written into the arena in two
orders, which give different handles: `StmtTree.build` makes children before their parents and
leaves the result detached, and `StmtTree.appendTo` grows a block from the top down.
-/

set_option autoImplicit false
set_option relaxedAutoImplicit false

namespace IteratorLowering

/-- A statement with everything nested in it. -/
inductive StmtTree where
  | action (span : Span) (action : Action)
  | branch (span : Span) (condition : Operand) (thenTree : StmtTree)
      (elseTree : Option StmtTree)
  | block (span : Span) (info : Option BlockInfo) (members : List StmtTree)
  deriving Repr, Inhabited

namespace Program

/-- The tree below a statement, down to the given number of levels. -/
def treeTo (program : Program) : Nat → StmtId → StmtTree
  | 0, id => .action (program.span id) .noop
  | depth + 1, id =>
    let stmt := program.stmt id
    match stmt.kind with
    | .action action => .action stmt.span action
    | .branch condition thenBlock elseBlock =>
      .branch stmt.span condition (program.treeTo depth thenBlock)
        (elseBlock.map (program.treeTo depth))
    | .block info body => .block stmt.span info (body.map (program.treeTo depth))

/-- The tree below a statement. -/
def tree (program : Program) (id : StmtId) : StmtTree :=
  program.treeTo program.statements.size id

end Program

namespace StmtTree

mutual

/-- Write the tree into the arena, children before their parents. -/
def build : StmtTree → Build StmtId
  | .action span inner => modifyGet fun program => program.newStmt (.action inner) span
  | .branch span condition thenTree elseTree => do
    let thenBlock ← thenTree.build
    let elseBlock ← buildOption elseTree
    modifyGet fun program => program.newStmt (.branch condition thenBlock elseBlock) span
  | .block span info members => do
    let body ← buildAll members
    modifyGet fun program => program.newStmt (.block info body) span

/-- Write the trees into the arena one after the other. -/
def buildAll : List StmtTree → Build (List StmtId)
  | [] => return []
  | tree :: rest => do
    let id ← tree.build
    let ids ← buildAll rest
    return id :: ids

/-- Write the tree into the arena, if there is one. -/
def buildOption : Option StmtTree → Build (Option StmtId)
  | none => return none
  | some tree => do
    let id ← tree.build
    return some id

end

mutual

/-- Grow a block at its tail by the tree, from the top down. The branches of a conditional are
made as empty blocks before the conditional, with its span, and are filled afterwards. -/
def appendTo (block : StmtId) : StmtTree → Edit Unit
  | .action span inner => do
    let _ ← Edit.push block (.action inner) span
  | .branch span condition thenTree elseTree => do
    let thenBlock ← modifyGet fun program => program.newStmt (.plain []) span
    let elseBlock ← if elseTree.isSome then
        some <$> modifyGet fun program => program.newStmt (.plain []) span
      else pure none
    let _ ← Edit.push block (.branch condition thenBlock elseBlock) span
    fill thenBlock thenTree
    fillOption elseBlock elseTree
  | .block span info members => do
    let inner ← Edit.push block (.block info []) span
    appendAllTo inner members

/-- Grow a block at its tail by the trees, one after the other. -/
def appendAllTo (block : StmtId) : List StmtTree → Edit Unit
  | [] => return
  | tree :: rest => do
    tree.appendTo block
    appendAllTo block rest

/-- Put a tree in the place of an empty block: a block's members go into the empty block, and
any other tree is built from the bottom up and replaces it. -/
def fill (empty : StmtId) : StmtTree → Edit Unit
  | .action span inner => do
    let id ← (StmtTree.action span inner).build
    Edit.replace empty id
  | .branch span condition thenTree elseTree => do
    let id ← (StmtTree.branch span condition thenTree elseTree).build
    Edit.replace empty id
  | .block _ info members => do
    modify fun program => program.setBlockInfo empty info
    appendAllTo empty members

/-- Put a tree in the place of an empty block, if there are both. -/
def fillOption (empty : Option StmtId) : Option StmtTree → Edit Unit
  | none => return
  | some tree => do
    match empty with
    | none => return
    | some empty => tree.fill empty

end

end StmtTree

end IteratorLowering
