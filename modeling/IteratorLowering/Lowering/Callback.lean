import IteratorLowering.Lowering.Context
import IteratorLowering.Lowering.LoopBody

/-!
# Loops over recursive iterators

A recursive iterator cannot be copied into a loop. Instead the loop's body is passed to it:
`lowerWithCallback` turns the body into a function, puts a wrapper for that function into the
function table, and calls a copy of the iterator that calls the wrapper at every yield.

The wrapper has the same formals for all loops over one type of index: the index, and a bundle of
the values that the body captures. The copy of the iterator takes the instance, the slot of the
wrapper and the bundle. A loop of the iterator over itself that only yields on becomes a direct
call of the copy: `forwardLoops`. Copies are shared by loops whose bodies take equivalent
formals.
-/

set_option autoImplicit false
set_option relaxedAutoImplicit false

namespace IteratorLowering

/-! ### The wrapper of a loop body -/

/-- A record type with one field for each captured formal of a loop body, that is, for each
formal after the index. -/
def newBundle (loopBody : FnId) : Build TypeId := do
  let types := ((← get).formalTypes loopBody).drop 1
  let fields : List FieldDef := (types.zipIdx 1).map fun (type, number) =>
    { name := s!"_arg{number}", type }
  modifyGet fun program => program.addType
    { name := "_fn_arg_bundle", kind := .record, flags := { argBundle := true }, fields }

/-- Emit reads of all fields of a record into new locals, and tell the locals. -/
def readFields (cursor : Cursor) (record : SymId) (fields : List FieldDef) : Build (List SymId) :=
  fields.zipIdx.mapM fun (field, position) => do
    let value ← cursor.fresh "_arg" field.type
    let _ ← cursor.assign value (.fieldValue record (.index position))
    return value

/-- A function that takes an index and a reference to a bundle, and calls the loop body with the
index and the fields of the bundle. -/
def buildWrapper (caller loopBody : FnId) (bundle : TypeId) (span : Span) : Pass FnId := do
  let program ← get
  let wrapper ← newGenerated ("_rec_iter_loop_wrapper_" ++ program.functionName caller) span
  let indexType ← Pass.require (program.formalTypes loopBody).head? .lostIndex span
  let index ← modifyGet fun program => program.addFormal wrapper "_index" indexType
  let reference ← modifyGet fun program => program.refOf bundle
  let packed ← modifyGet fun program => program.addFormal wrapper "fn_args" reference
  let program ← get
  let cursor : Cursor := { Cursor.ofFunction program wrapper with span }
  let unpacked ← cursor.fresh "fn_args_tmp" bundle
  let _ ← cursor.assign unpacked (.cast bundle (.sym packed))
  let values ← readFields cursor unpacked (program.type bundle).fields
  let _ ← cursor.call loopBody ((index :: values).map Operand.sym)
  let _ ← cursor.ret .void
  return wrapper

/-- The symbol that is passed for a captured one: the symbol itself, or its address. -/
def passCapture (cursor : Cursor) (capture : Capture) : Build SymId := do
  if capture.byReference then
    let type := (← get).symbolType capture.symbol
    let reference ← modifyGet fun program => program.refOf type
    let address ← cursor.fresh "_ref" reference
    let _ ← cursor.assign address (.addressOf capture.symbol)
    return address
  else
    return capture.symbol

/-- Emit the bundle of the captured symbols of a loop body. -/
def packCaptures (cursor : Cursor) (captures : List Capture) (bundle : TypeId) :
    Build SymId := do
  let values ← captures.mapM (passCapture cursor)
  let packed ← cursor.fresh "_fn_args" bundle
  values.zipIdx.forM fun (value, position) => do
    let _ ← cursor.setField packed (.index position) (.sym value)
  return packed

/-! ### The copy of the iterator -/

/-- A copy of a recursive iterator that is being made: the function, the iterator, and the formals
for the instance, the slot of the callback and the bundle. -/
structure RecursiveCopy where
  function : FnId
  iterator : FnId
  source : SymId
  callback : SymId
  bundle : SymId
  deriving DecidableEq, Repr, Inhabited

/-- The iterator of a loop that does nothing but yield every element on. -/
def Program.reyieldedIterator? (program : Program) (block : StmtId) : Option SymId := do
  let (index, iterator) ← (program.kind block).forHeader?
  let [only] := program.blockBody block | none
  guard (program.kind only == .action (.yield (.sym index)))
  return iterator

/-- The instance in the type that the copy of the iterator takes. -/
def castInstance (cursor : Cursor) (copy : RecursiveCopy) (inner : SymId) : Build SymId := do
  let program ← get
  let expected := program.symbolType copy.source
  if program.valueType (program.symbolType inner) = expected then return inner
  let cast ← cursor.fresh "_ic" expected
  let _ ← cursor.assign cast (.cast expected (.sym inner))
  return cast

/-- If a statement is a loop over the iterator itself that only yields on, replace it by a call of
the copy with the same callback. -/
def forwardLoop (copy : RecursiveCopy) (id : StmtId) : Pass Unit := do
  let program ← get
  match program.reyieldedIterator? id with
  | none => return
  | some inner =>
    if program.iteratorFnOf (program.symbolType inner) = some copy.iterator then
      let scratch ← modifyGet Program.newScratch
      let cursor : Cursor :=
        { function := copy.function, block := scratch, span := program.span id }
      let source ← castInstance cursor copy inner
      let _ ← cursor.call copy.function [.sym source, .sym copy.callback, .sym copy.bundle]
      Edit.spliceBefore id scratch
      Edit.remove id

/-- Replace the loops of the copy over the iterator itself that only yield on. -/
def forwardLoops (copy : RecursiveCopy) : Pass Unit := do
  ((← get).functionStmts copy.function).forM (forwardLoop copy)

/-- The local that stands for the result symbol in a block, made at the head of the block on first
request. -/
def localResult (owner : FnId) (result : SymId) (made : FiniteMap StmtId SymId)
    (block : StmtId) : Pass (SymId × FiniteMap StmtId SymId) := do
  match made.find? block with
  | some existing => return (existing, made)
  | none =>
    let program ← get
    let copy ← modifyGet fun program =>
      program.newLocal owner (program.symbolName result) (program.symbolType result)
    let span := program.span block
    let seed ← newAction (.assign copy (.use (.sym result))) span
    Edit.insertAtHead block seed
    let declaration ← newAction (.define copy) span
    Edit.insertAtHead block declaration
    return (copy, made.insert block copy)

/-- Let a statement use the local of its block in the place of the result symbol, unless the block
is the one that declares the symbol. -/
def localizeIn (owner : FnId) (result : SymId) (home : Option StmtId)
    (made : FiniteMap StmtId SymId) (id : StmtId) : Pass (FiniteMap StmtId SymId) := do
  match (← get).enclosingBlock? id with
  | none => return made
  | some block =>
    if some block = home then return made
    let (copy, made) ← localResult owner result made block
    modify fun program => program.setKind id ((program.kind id).mapSymbols fun symbol =>
      if symbol = result then copy else symbol)
    return made

/-- Give every block that uses the result symbol, other than the one that declares it, a local of
its own that starts with the symbol's value. -/
def localizeResult (owner : FnId) (root : StmtId) (result : SymId) : Pass Unit := do
  let program ← get
  let home := (program.findDefinition? root result).bind program.enclosingBlock?
  let _ ← (program.statementsMentioning root result).foldlM (localizeIn owner result home) .empty

/-- Replace a yield by a call of the callback with the yielded value. -/
def callBack (copy : RecursiveCopy) (valueType : TypeId) (id : StmtId) : Pass Unit := do
  let program ← get
  match program.kind id with
  | .action (.yield value) =>
    let yielded ← modifyGet fun program =>
      program.newLocal copy.function "_yieldedIndex" valueType
    let scratch ← modifyGet Program.newScratch
    let cursor : Cursor :=
      { function := copy.function, block := scratch, span := program.span id }
    let _ ← cursor.define yielded
    let _ ← cursor.assign yielded (.use value)
    let _ ← cursor.evaluate (.tableCall (.sym copy.callback) [.sym yielded, .sym copy.bundle])
    Edit.spliceBefore id scratch
    Edit.remove id
  | _ => return

/-- Make the copy of a recursive iterator that calls back at every yield. -/
def buildRecursiveCopy (iterator : FnId) (bundle : TypeId) (span : Span) : Pass FnId := do
  let definition := (← get).function iterator
  let info ← Pass.require definition.iteratorInfo .noInstanceClass span
  let function ← newGenerated ("_rec_iter_fn_" ++ definition.name) span
  let source ← modifyGet fun program => program.addFormal function "_ic" info.classType
  let callback ← modifyGet fun program => program.addFormal function "_loopBodyFn" .int
  let packed ← modifyGet fun program => program.addFormal function "_loopBodyFnArgs" bundle
  let copy : RecursiveCopy := { function, iterator, source, callback, bundle := packed }
  let (body, renamed) ← Program.copyTree definition.body .empty
  Edit.replace ((← get).bodyOf function) body
  forwardLoops copy
  rebindFormals body iterator source function
  if let some result := definition.retSym then
    localizeResult function body (renamed.resolve result)
  ((← get).yieldsIn body).forM (callBack copy definition.retType)
  let program ← get
  ((program.walk body).filter fun id => (program.kind id).isReturn).forM fun id =>
    (Edit.remove id : Edit Unit)
  let _ ← Edit.push body (.action (.ret .void)) span
  modify fun program => program.claimLocals function body
  return function

/-! ### The loop -/

/-- The function to call for a loop over a recursive iterator and the bundle to pass: a function
made earlier for an equivalent loop body, which takes the bundle as its own type, or else a new
one. -/
def recursiveCallee (cursor : Cursor) (iterator loopBody : FnId) (bundle : TypeId)
    (packed : SymId) : Lowering (FnId × SymId) := do
  let state ← get
  match state.context.findGenerated? state.program iterator loopBody with
  | some generated =>
    let expected ← Pass.require ((state.program.formalTypes generated)[2]?) .lostBundle
      cursor.span
    let build : Build SymId := do
      let cast ← cursor.fresh "_fn_args_cast" expected
      let _ ← cursor.assign cast (.cast expected (.sym packed))
      return cast
    return (generated, ← (build : Pass SymId))
  | none =>
    let generated ← buildRecursiveCopy iterator bundle cursor.span
    Lowering.remember { iterator, generated, loopBody }
    Lowering.count fun summary =>
      { summary with generatedFunctions := summary.generatedFunctions + 1 }
    return (generated, packed)

/-- Turn the body of a loop into a function with a wrapper in the function table. Gives the
function, the slot of the wrapper, the type of the bundle and the captured symbols. -/
def buildCallback (caller : FnId) (block : StmtId) (index : SymId) (span : Span) :
    Pass (FnId × Nat × TypeId × List Capture) := do
  let (loopBody, captures) ← extractLoopBody caller block index
  let bundle ← newBundle loopBody
  let wrapper ← buildWrapper caller loopBody bundle span
  let slot ← modifyGet fun program =>
    let (slot, table) := program.table.register wrapper
    (slot, { program with table })
  return (loopBody, slot, bundle, captures)

/-- Replace a statement by the members of a block. -/
def replaceByMembers (anchor scratch : StmtId) : Pass Unit := do
  Edit.spliceBefore anchor scratch
  Edit.remove anchor

/-- Lower a loop over a recursive iterator to a call with the loop's body as callback. -/
def lowerWithCallback (block : StmtId) : Lowering Unit := do
  let (index, source) ← loopHeader block
  let span := (← get).program.span block
  let caller ← loopOwner block
  let iterator ← instanceIterator source .recursiveNonIterator span
  let anchor ← (newAction .noop span : Pass StmtId)
  (Edit.insertBefore block anchor : Pass Unit)
  let (loopBody, slot, bundle, captures) ← buildCallback caller block index span
  let site ← (modifyGet Program.newScratch : Pass StmtId)
  let cursor : Cursor := { function := caller, block := site, span }
  let packed ← (packCaptures cursor captures bundle : Pass SymId)
  let (callee, argument) ← recursiveCallee cursor iterator loopBody bundle packed
  let _ ← (cursor.call callee [.sym source, .int (Int64.ofNat slot), .sym argument] :
    Pass StmtId)
  replaceByMembers anchor site

end IteratorLowering
