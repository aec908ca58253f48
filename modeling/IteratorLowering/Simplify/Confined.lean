import IteratorLowering.Lowering.Fault

/-!
# Breaking up confined regions

A confined block must not span a yield, a transfer of control or a label, because later stages
move code across exactly those. `fragmentConfined` breaks up every confined block that holds one
of them at any depth: its straight runs of statements become smaller confined blocks, the
declarations of a run move in front of its block, and the block that was broken up loses its
marker. Nested blocks and branches are treated the same way, outer ones first.
-/

set_option autoImplicit false
set_option relaxedAutoImplicit false

namespace IteratorLowering

namespace Program

/-- Whether a statement yields, returns, jumps or places a label. -/
def isEscape (program : Program) (id : StmtId) : Bool :=
  match program.kind id with
  | .action (.yield _) | .action (.ret _) | .action (.goto _) => true
  | .action (.define symbol) => (program.symbol symbol).isLabel
  | _ => false

/-- Whether a statement ends a straight run: an escape, a conditional or a block. -/
def isBoundary (program : Program) (id : StmtId) : Bool :=
  match program.kind id with
  | .branch .. | .block .. => true
  | .action _ => program.isEscape id

/-- Whether a statement is a confined block that holds an escape at any depth. -/
def needsFragmenting (program : Program) (id : StmtId) : Bool :=
  program.blockInfo? id == some .confined && (program.walk id).any program.isEscape

/-- The blocks and branches directly inside a block, in order. -/
def nestedBlocks (program : Program) (block : StmtId) : List StmtId :=
  (program.blockBody block).flatMap fun id =>
    match program.kind id with
    | .block .. => [id]
    | .branch _ thenBlock elseBlock => thenBlock :: elseBlock.toList
    | .action _ => []

/-- The blocks of a queue and what is nested in them, breadth first and without repeats, for at
most the given number of steps. -/
def breadthFirst (program : Program) : Nat → List StmtId → List StmtId → List StmtId
  | 0, _, _ => []
  | _ + 1, _, [] => []
  | steps + 1, visited, block :: queue =>
    if visited.contains block then program.breadthFirst steps visited queue
    else
      block :: program.breadthFirst steps (block :: visited)
        (queue ++ program.nestedBlocks block)

end Program

/-- Make a confined block in front of a statement, with the declarations before it and the other
statements inside. -/
def emitFragment (anchor : StmtId) (declarations members : List StmtId) : Pass Unit := do
  let span := (← get).span anchor
  let fragment ← modifyGet fun program => program.newStmt (.block (some .confined) []) span
  Edit.insertBefore anchor fragment
  declarations.forM fun declaration => (Edit.insertBefore fragment declaration : Edit Unit)
  members.forM fun member => (Edit.insertAtTail fragment member : Edit Unit)

/-- Break up the members of a block, given the declarations and the other statements of the run
so far. A run ends before a boundary and at the end of the block. -/
def fragmentMembers : List StmtId → List StmtId → List StmtId → Pass Unit
  | [], _, _ => return
  | id :: rest, declarations, members => do
    let program ← get
    let boundary := program.isBoundary id
    let declares := (program.kind id).defined?.isSome
    let declarations := if !boundary && declares then declarations ++ [id] else declarations
    let members := if !boundary && !declares then members ++ [id] else members
    if (boundary || rest.isEmpty) && !(declarations.isEmpty && members.isEmpty) then
      emitFragment id declarations members
      fragmentMembers rest [] []
    else
      fragmentMembers rest declarations members

/-- Break up the confined blocks that hold an escape, in all functions, and tell how many. -/
def fragmentConfined : Pass Nat := do
  let program ← get
  let regions := (program.functionIds.flatMap program.functionStmts).filter
    program.needsFragmenting
  let steps := regions.length + program.statements.size + 1
  (program.breadthFirst steps [] regions).forM fun block => do
    fragmentMembers ((← get).blockBody block) [] []
  modify fun program =>
    regions.foldl (fun program block => program.setBlockInfo block none) program
  return regions.length

end IteratorLowering
