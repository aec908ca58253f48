import IteratorLowering.Program.Walk

/-!
# Editing the statement forest

Every edit names statements by handle and keeps block bodies, branches and parent links in step.
A statement that is inserted somewhere is taken out of its old place first. Statements are never
freed: one that was taken out merely has no parent.

Edits run in the monad `Edit`, which keeps the program as it is when an edit fails. A failing
edit has therefore detached what it was about to move, and nothing else. `EditError` gives the
three ways to fail.
-/

set_option autoImplicit false
set_option relaxedAutoImplicit false

namespace IteratorLowering

/-- Why an edit failed. -/
inductive EditError where
  /-- The statement stands in no block. -/
  | detached (statement : StmtId)
  /-- The statement is not a block. -/
  | notABlock (statement : StmtId)
  /-- The statement is a branch of a conditional and cannot be unlinked. -/
  | branchRemoval (statement : StmtId)
  deriving DecidableEq, Repr, Inhabited

/-- The text of an edit error. -/
def EditError.message : EditError → String
  | .detached statement => s!"statement {statement.text} is not inside a block"
  | .notABlock statement => s!"statement {statement.text} is not a block"
  | .branchRemoval statement =>
    s!"statement {statement.text} is a conditional branch and cannot be removed"

/-- A change of a program that may fail, keeping what it had changed. -/
abbrev Edit := EStateM EditError Program

/-- A change that cannot fail, as one that may. -/
def Build.lift {Error α : Type} (build : Build α) : EStateM Error Program α := fun program =>
  let (result, program) := build program
  .ok result program

instance {Error : Type} : MonadLift Build (EStateM Error Program) := ⟨Build.lift⟩

namespace Program

/-- The block around a statement and the statement's position in it. -/
def positionInParent (program : Program) (id : StmtId) : Except EditError (StmtId × Nat) :=
  match program.parent id with
  | none => .error (.detached id)
  | some parent =>
    match program.kind parent with
    | .block _ body =>
      match body.idxOf? id with
      | some position => .ok (parent, position)
      | none => .error (.detached id)
    | .action _ | .branch .. => .error (.branchRemoval id)

/-- The statement after a block member. -/
def nextSibling? (program : Program) (id : StmtId) : Option StmtId :=
  match program.positionInParent id with
  | .ok (parent, position) => (program.blockBody parent)[position + 1]?
  | .error _ => none

/-- The statement before a block member. -/
def prevSibling? (program : Program) (id : StmtId) : Option StmtId :=
  match program.positionInParent id with
  | .ok (parent, position + 1) => (program.blockBody parent)[position]?
  | .ok (_, 0) | .error _ => none

end Program

namespace Edit

/-- The block around a statement and the statement's position in it. -/
def position (id : StmtId) : Edit (StmtId × Nat) := do
  match (← get).positionInParent id with
  | .ok found => return found
  | .error error => throw error

/-- Change the member list of a block. -/
def modifyBody (block : StmtId) (change : List StmtId → List StmtId) : Edit Unit := do
  match (← get).kind block with
  | .block info body => modify fun program => program.setKind block (.block info (change body))
  | .action _ | .branch .. => throw (.notABlock block)

/-- Take a block member out of its block. -/
def remove (id : StmtId) : Edit Unit := do
  let (parent, position) ← position id
  modifyBody parent fun body => body.eraseIdx position
  modify fun program => program.setParent id none

/-- Take a statement out of its block, if it stands in one. -/
def detach (id : StmtId) : Edit Unit := do
  if ((← get).parent id).isSome then remove id

/-- Put a statement into a block at a position, moving it if it is attached. -/
def insertAt (block : StmtId) (position : Nat) (new : StmtId) : Edit Unit := do
  detach new
  modifyBody block fun body => body.insertIdx position new
  modify fun program => program.setParent new (some block)

/-- Put a statement right before a block member. -/
def insertBefore (anchor new : StmtId) : Edit Unit := do
  detach new
  let (parent, position) ← position anchor
  insertAt parent position new

/-- Put a statement right after a block member. -/
def insertAfter (anchor new : StmtId) : Edit Unit := do
  detach new
  let (parent, position) ← position anchor
  insertAt parent (position + 1) new

/-- Put a statement at the head of a block. -/
def insertAtHead (block new : StmtId) : Edit Unit := do
  detach new
  insertAt block 0 new

/-- Put a statement at the tail of a block. -/
def insertAtTail (block new : StmtId) : Edit Unit := do
  detach new
  insertAt block ((← get).blockBody block).length new

/-- Make a statement and put it at the tail of a block. The statement exists afterwards even if
the target turns out to be no block. -/
def push (block : StmtId) (kind : StmtKind) (span : Span) : Edit StmtId := do
  let id ← modifyGet fun program => program.newStmt kind span
  insertAtTail block id
  return id

/-- The branches of a conditional with one statement exchanged for another. -/
def replaceBranch (thenBlock : StmtId) (elseBlock : Option StmtId) (old new : StmtId) :
    Option (StmtId × Option StmtId) :=
  if thenBlock = old then some (new, elseBlock)
  else if elseBlock = some old then some (thenBlock, some new)
  else none

/-- Put a statement where another one is: in a block, a branch, or as a function body. -/
def replace (old new : StmtId) : Edit Unit := do
  detach new
  let program ← get
  match program.parent old with
  | some parent =>
    match program.kind parent with
    | .block info body =>
      match body.idxOf? old with
      | some position => set (program.setKind parent (.block info (body.set position new)))
      | none => throw (.detached old)
    | .branch condition thenBlock elseBlock =>
      match replaceBranch thenBlock elseBlock old new with
      | some (thenBlock, elseBlock) =>
        set (program.setKind parent (.branch condition thenBlock elseBlock))
      | none => throw (.detached old)
    | .action _ => throw (.detached old)
    modify fun program => (program.setParent new (some parent)).setParent old none
  | none =>
    match (program.stmt old).bodyOf with
    | some function =>
      set (((program.setBodyOf old none).setBodyOf new (some function)).modifyFunction function
        fun definition => { definition with body := new })
    | none => throw (.detached old)

/-- Empty a block and tell what was in it. -/
def takeBody (block : StmtId) : Edit (List StmtId) := do
  match (← get).kind block with
  | .block info body =>
    modify fun program =>
      body.foldl (fun program id => program.setParent id none)
        (program.setKind block (.block info []))
    return body
  | .action _ | .branch .. => throw (.notABlock block)

/-- Move the members of a block in front of a block member, keeping their order. -/
def spliceBefore (anchor scratch : StmtId) : Edit Unit := do
  (← takeBody scratch).forM (insertBefore anchor)

/-- Put statements after a block member, each after the one before it. -/
def insertChain (anchor : StmtId) : List StmtId → Edit Unit
  | [] => return
  | new :: rest => do
    insertAfter anchor new
    insertChain new rest

/-- Move the members of a block right after a block member, keeping their order. -/
def spliceAfter (anchor scratch : StmtId) : Edit Unit := do
  insertChain anchor (← takeBody scratch)

/-- Put statements into a block from a position on. -/
def insertFrom (block : StmtId) (position : Nat) : List StmtId → Edit Unit
  | [] => return
  | new :: rest => do
    insertAt block position new
    insertFrom block (position + 1) rest

/-- Move the members of a block to the head of another, keeping their order. -/
def spliceAtHead (block scratch : StmtId) : Edit Unit := do
  insertFrom block 0 (← takeBody scratch)

/-- Move the members of a block to the tail of another, keeping their order. -/
def spliceAtTail (block scratch : StmtId) : Edit Unit := do
  (← takeBody scratch).forM (insertAtTail block)

end Edit

end IteratorLowering
