import IteratorLowering.Lowering.Strategy

/-!
# Lowering all loops

Lowering a loop can bring new loops into the program, since an iterator's body may hold loops
itself. Loops are therefore lowered in rounds: each round gathers the loops that are left and
lowers those that still stand in a function when their turn comes. `inlineMarkedLoops` does this
for the loops over iterators marked for unconditional inlining, and `lowerRemainingLoops` for all.
Loops that are passed over are remembered and not gathered again.

A round that gathers nothing is the last. An error is the outcome where every one of the granted
rounds has found new loops.
-/

set_option autoImplicit false
set_option relaxedAutoImplicit false

namespace IteratorLowering

namespace Program

/-- The for-loops of all functions, in program order. -/
def forLoops (program : Program) : List StmtId :=
  (program.functionIds.flatMap program.functionStmts).filter fun id =>
    (program.kind id).isForLoop

/-- Whether a loop that was gathered earlier still stands in a function. -/
def isPending (program : Program) (block : StmtId) : Bool :=
  (program.enclosingFunction? block).isSome && (program.kind block).isForLoop

/-- Whether a loop is over an iterator marked for unconditional inlining. -/
def isMarked (program : Program) (block : StmtId) : Bool :=
  match (program.kind block).forHeader? with
  | some (_, source) =>
    (program.iteratorFnOf (program.symbolType source)).any fun iterator =>
      (program.function iterator).flags.inlineIterator
  | none => false

end Program

/-- Lower gathered loops one after the other, as far as they are still pending, and add those
that were passed over to the given ones. -/
def lowerGathered (lower : StmtId → Lowering Strategy) (skipped : List StmtId) :
    List StmtId → Lowering (List StmtId)
  | [] => return skipped
  | block :: rest => do
    if (← get).program.isPending block then
      match ← lower block with
      | .skip => lowerGathered lower (block :: skipped) rest
      | .directInline | .zipFusion | .protocol | .recursiveCallback =>
        lowerGathered lower skipped rest
    else
      lowerGathered lower skipped rest

/-- Gather and lower loops, for at most the given number of rounds, until none is left but those
passed over. -/
def lowerRounds (gather : Program → List StmtId) (lower : StmtId → Lowering Strategy) :
    Nat → List StmtId → Lowering Unit
  | 0, _ => do throw (.roundLimit (← get).context.config.maxRounds)
  | rounds + 1, skipped => do
    let gathered := (gather (← get).program).filter fun block => !skipped.contains block
    if gathered.isEmpty then return
    lowerRounds gather lower rounds (← lowerGathered lower skipped gathered)

/-- Lower a loop over a marked iterator. Loops that are passed over are counted later. -/
def lowerMarkedLoop (block : StmtId) : Lowering Strategy := do
  let strategy ← expandLoop block
  if strategy != .skip then Lowering.count fun summary => summary.add strategy
  return strategy

/-- Lower a loop in the cheapest way that applies, and count it. -/
def lowerLoop (block : StmtId) : Lowering Strategy := do
  let context := (← get).context
  let strategy ← classify context block
  match strategy with
  | .directInline | .recursiveCallback =>
    let _ ← expandLoop block
  | .zipFusion => zipLoop block
  | .protocol => lowerProtocol context.config block
  | .skip => pure ()
  Lowering.count fun summary => summary.add strategy
  return strategy

/-- Lower every loop over an iterator marked for unconditional inlining. -/
def inlineMarkedLoops : Lowering Unit := do
  let marked (program : Program) : List StmtId := program.forLoops.filter program.isMarked
  lowerRounds marked lowerMarkedLoop (← get).context.config.maxRounds []

/-- Lower every loop that is left. -/
def lowerRemainingLoops : Lowering Unit := do
  lowerRounds Program.forLoops lowerLoop (← get).context.config.maxRounds []

end IteratorLowering
