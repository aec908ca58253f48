import IteratorLowering.Lowering.Config
import IteratorLowering.Lowering.Zip

/-!
# Driving a loop through the iterator protocol

`lowerProtocol` works for any iterators, in any number. Every iterator is started before the
loop, advanced and asked for its value at the head of each round, finished with the round at its
tail, and ended after the loop. The loop goes on while every iterator has more. With bounds
checks, a bounded component whose flag differs from that of the first bounded one is a run-time
error.

Every protocol call tests the runtime class of the instance first, and calls the operation of the
first subtype that it is an instance of, or else the operation of the static type:
`protocolCall`.
-/

set_option autoImplicit false
set_option relaxedAutoImplicit false

namespace IteratorLowering

/-- The message for zippered iterators of which one ends before another. -/
def nonEqualLengths : String := "zippered iterations have non-equal lengths"

/-- The function behind a protocol operation of an iterator type. -/
def protocolFnFor (owner : FnId) (op : ProtocolOp) (type : TypeId) : Pass FnId := do
  let program ← get
  let info := (program.iteratorFnOf type).bind fun iterator =>
    (program.function iterator).iteratorInfo
  Pass.require (info.map fun info => info.protocolFn op) (.noProtocol (program.typeName type))
    (program.function owner).span

/-- Emit a call of a protocol function, storing the result where one is wanted. A result of
another type than the target is cast. -/
def emitProtocolCall (cursor : Cursor) (callee : FnId) (instanceSym : SymId)
    (result : Option SymId) : Build Unit := do
  let call : Expr := .call callee [.sym instanceSym]
  match result with
  | none =>
    let _ ← cursor.evaluate call
  | some result =>
    let program ← get
    let resultType := program.symbolType result
    let returned := (program.function callee).retType
    if returned = resultType then
      let _ ← cursor.assign result call
    else
      let value ← cursor.fresh "_ret" returned
      let _ ← cursor.assign value call
      let _ ← cursor.assign result (.cast resultType (.sym value))

/-- Emit the tests of the runtime class, each in the else-branch of the one before, and the call
for the static type in the innermost. -/
def emitDispatch (instanceSym : SymId) (result : Option SymId) (base : FnId) :
    Cursor → List (TypeId × FnId) → Build Unit
  | cursor, [] => emitProtocolCall cursor base instanceSym result
  | cursor, (subtype, callee) :: rest => do
    let isSubtype ← cursor.fresh "_cid" .bool
    let _ ← cursor.assign isSubtype (.hasClass instanceSym subtype)
    let (thenBlock, elseBlock) ← cursor.openIfElse (.sym isSubtype)
    let inner := cursor.into thenBlock
    let child ← inner.fresh "_child_it" subtype
    let _ ← inner.assign child (.cast subtype (.sym instanceSym))
    emitProtocolCall inner callee child result
    emitDispatch instanceSym result base (cursor.into elseBlock) rest

/-- A detached block that performs a protocol operation on an instance, by its runtime class, and
stores the result where one is wanted. -/
def protocolCall (owner : FnId) (op : ProtocolOp) (instanceSym : SymId) (result : Option SymId) :
    Pass StmtId := do
  let program ← get
  let baseType := program.valueType (program.symbolType instanceSym)
  let targets ← (program.runtimeSubtypes baseType).mapM fun subtype => do
    return (subtype, ← protocolFnFor owner op subtype)
  let base ← protocolFnFor owner op baseType
  let block ← modifyGet Program.newScratch
  emitDispatch instanceSym result base { function := owner, block } targets
  return block

/-- Emit a check that a flag equals the flag of the reference component. -/
def emitLengthCheck (cursor : Cursor) (reference flag : SymId) : Build Unit := do
  let mismatch ← cursor.fresh "_mismatch" .bool
  let _ ← cursor.assign mismatch (.prim .ne [.sym flag, .sym reference])
  let thenBlock ← cursor.openIf (.sym mismatch)
  let _ ← (cursor.into thenBlock).fail nonEqualLengths

/-- Emit the comparisons of the checked flags with the reference, and set the last symbol to the
conjunction of all flags. -/
def emitFlags (cursor : Cursor) (checked : List SymId) (reference : SymId) (flags : List SymId)
    (more : SymId) : Build Unit := do
  checked.forM (emitLengthCheck cursor reference)
  match flags with
  | [] => return
  | first :: rest =>
    let _ ← cursor.assign more (.use (.sym first))
    rest.forM fun flag => do
      let _ ← cursor.assign more (.prim .and [.sym more, .sym flag])

/-- Append a protocol call to a block. -/
def appendCall (block : StmtId) (owner : FnId) (op : ProtocolOp) (instanceSym : SymId)
    (result : Option SymId) : Pass Unit := do
  let call ← protocolCall owner op instanceSym result
  Edit.insertAtTail block call

/-- A loop that is driven through the protocol: its block, its index, the function that holds it,
its span, and its header opened into leaves. -/
structure DrivenLoop where
  block : StmtId
  index : SymId
  owner : FnId
  span : Span
  setup : ZipSetup
  deriving DecidableEq, Repr, Inhabited

namespace DrivenLoop

/-- Whether each component is bounded. What is not an instance counts as bounded. -/
def bounded (loop : DrivenLoop) (program : Program) : List Bool :=
  loop.setup.components.map fun (iterator, _) =>
    (program.iteratorFnOf (program.symbolType iterator)).all program.isBounded

/-- The position of the component that the others are compared with. -/
def reference (loop : DrivenLoop) (program : Program) : Nat :=
  ((loop.bounded program).idxOf? true).getD 0

/-- The flags that are compared with the reference: those of the other bounded components. -/
def checkedFlags (loop : DrivenLoop) (program : Program) (flags : List SymId) : List SymId :=
  let numbered := (flags.zip (loop.bounded program)).zipIdx
  (numbered.filter fun ((_, bounded), position) =>
    bounded && position != loop.reference program).map fun ((flag, _), _) => flag

/-- Start every iterator and ask whether it has an element, in a block that goes in front of the
loop. Gives the flags of the components. -/
def start (loop : DrivenLoop) (block : StmtId) : Pass (List SymId) :=
  loop.setup.components.mapM fun (iterator, _) => do
    appendCall block loop.owner .zip1 iterator none
    let flag ← modifyGet fun program => program.newLocal loop.owner "_hasMore" .bool
    let _ ← Edit.push block (.action (.define flag)) loop.span
    appendCall block loop.owner .hasMore iterator (some flag)
    return flag

/-- Declare the indices, advance every iterator, fetch its value and put the index together, in a
block that goes to the head of the loop. -/
def head (loop : DrivenLoop) (block : StmtId) : Pass Unit := do
  let program ← get
  if let some declaration := program.findDefinition? (program.bodyOf loop.owner) loop.index then
    Edit.insertAtTail block declaration
  loop.setup.indexDefs.forM fun index => do
    let _ ← Edit.push block (.action (.define index)) loop.span
  loop.setup.components.forM fun (iterator, index) => do
    appendCall block loop.owner .zip2 iterator none
    appendCall block loop.owner .getValue iterator (some index)
  loop.setup.indexStores.forM fun store => do
    let action : Action := .setField store.tuple (.index store.field) (.sym store.value)
    let _ ← Edit.push block (.action action) loop.span

/-- Finish the round of every iterator and ask whether it has another element, in a block that
goes to the tail of the loop. -/
def tail (loop : DrivenLoop) (block : StmtId) (flags : List SymId) : Pass Unit :=
  (loop.setup.components.zip flags).forM fun ((iterator, _), flag) => do
    appendCall block loop.owner .zip3 iterator none
    appendCall block loop.owner .hasMore iterator (some flag)

/-- End every iterator, in a block that goes after the loop. -/
def finish (loop : DrivenLoop) (block : StmtId) : Pass Unit :=
  loop.setup.components.forM fun (iterator, _) =>
    appendCall block loop.owner .zip4 iterator none

end DrivenLoop

/-- Lower a loop to protocol calls around a loop with a condition. -/
def lowerProtocol (config : LoweringConfig) (block : StmtId) : Pass Unit := do
  let (index, iterator) ← loopHeader block
  let span := (← get).span block
  let owner ← loopOwner block
  let setup ← zipSetup block index iterator owner
  let loop : DrivenLoop := { block, index, owner, span, setup }
  if setup.components.isEmpty then Pass.fault .emptyZip span
  let program ← get
  let before ← modifyGet Program.newScratch
  let flags ← loop.start before
  let more ← modifyGet fun program => program.newLocal owner "_more" .bool
  let _ ← Edit.push before (.action (.define more)) span
  let checked := if config.boundsChecks then loop.checkedFlags program flags else []
  let reference := flags.getD (loop.reference program) more
  emitFlags { function := owner, block := before } checked reference flags more
  Edit.spliceBefore block before
  let head ← modifyGet Program.newScratch
  loop.head head
  Edit.spliceAtHead block head
  let tail ← modifyGet Program.newScratch
  loop.tail tail flags
  emitFlags { function := owner, block := tail } checked reference flags more
  Edit.spliceAtTail block tail
  modify fun program => program.setBlockInfo block (some (.whileLoop (.sym more)))
  let after ← modifyGet Program.newScratch
  loop.finish after
  Edit.spliceAfter block after

end IteratorLowering
