import IteratorLowering.Lowering.Callback
import IteratorLowering.Lowering.Inline
import IteratorLowering.Lowering.Protocol

/-!
# Choosing a strategy for a loop

Each loop is lowered in the cheapest way that applies to it. `classify` chooses: an iterator with
a single yield and no runtime subtypes is copied into the loop; zippered iterators that yield
exactly once are fused; everything else is driven through the iterator protocol. A loop over a
recursive iterator becomes a call with a callback, unless it stands in a recursive iterator
itself; then it is left alone.
-/

set_option autoImplicit false
set_option relaxedAutoImplicit false

namespace IteratorLowering

/-- A way to lower a loop. -/
inductive Strategy where
  /-- Copy the iterator's body in the place of the loop. -/
  | directInline
  /-- Run every iterator once, without protocol calls. -/
  | zipFusion
  /-- Drive the iterators through the protocol. -/
  | protocol
  /-- Pass the loop's body to a copy of the recursive iterator. -/
  | recursiveCallback
  /-- Leave the loop to the state machines. -/
  | skip
  deriving DecidableEq, Repr, Inhabited

/-- The name of a strategy. -/
def Strategy.text : Strategy → String
  | .directInline => "direct inline"
  | .zipFusion => "zip fusion"
  | .protocol => "protocol"
  | .recursiveCallback => "recursive cps"
  | .skip => "skip"

/-- The strategy for a loop over a single iterator whose body may be copied. -/
def inlineStrategy (context : LoweringContext) (block : StmtId) : Pass Strategy := do
  let (_, source) ← loopHeader block
  let span := (← get).span block
  let iterator ← instanceIterator source .inlinedNonIterator span
  let owner ← loopOwner block
  if !context.isRecursive iterator then return .directInline
  else if context.isRecursive owner then return .skip
  else return .recursiveCallback

/-- Whether a header type is an instance of an iterator with a protocol, exactly one yield and no
runtime subtypes. -/
def Program.hasSinglePath (program : Program) (type : TypeId) : Bool :=
  (program.iteratorFnOf type).any fun iterator =>
    let definition := program.function iterator
    definition.iteratorInfo.isSome && (program.yieldsIn definition.body).length == 1 &&
      program.isLeafClass (program.valueType type)

/-- The cheapest strategy that applies to a loop. -/
def classify (context : LoweringContext) (block : StmtId) : Pass Strategy := do
  let (_, source) ← loopHeader block
  let program ← get
  let type := program.symbolType source
  if !context.config.inlineIterators then return .protocol
  else if program.hasSinglePath type then inlineStrategy context block
  else if program.canFuse type then return .zipFusion
  else return .protocol

/-- Lower a loop over a single iterator by copying the iterator's body or by a callback,
whichever applies, and tell which it was. -/
def expandLoop (block : StmtId) : Lowering Strategy := do
  let strategy ← inlineStrategy (← get).context block
  match strategy with
  | .directInline => inlineLoop block
  | .recursiveCallback => lowerWithCallback block
  | .zipFusion | .protocol | .skip => pure ()
  return strategy

/-- Fuse a zippered loop. -/
def zipLoop (block : StmtId) : Pass Unit := do
  let (index, iterator) ← loopHeader block
  let owner ← loopOwner block
  let setup ← zipSetup block index iterator owner
  fuseLoop block setup owner

/-- Count a loop that was lowered in some way, or left. -/
def Summary.add (summary : Summary) : Strategy → Summary
  | .directInline => { summary with inlined := summary.inlined + 1 }
  | .zipFusion => { summary with zipFused := summary.zipFused + 1 }
  | .protocol => { summary with protocol := summary.protocol + 1 }
  | .recursiveCallback => { summary with recursiveCallback := summary.recursiveCallback + 1 }
  | .skip => { summary with leftForStateMachine := summary.leftForStateMachine + 1 }

end IteratorLowering
