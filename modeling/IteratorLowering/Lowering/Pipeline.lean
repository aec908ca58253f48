import IteratorLowering.Analysis.SerialIterators
import IteratorLowering.Instance.HelperArgs
import IteratorLowering.Instance.Ordinals
import IteratorLowering.Instance.Routines
import IteratorLowering.Instance.SubtypeDispatch
import IteratorLowering.Lowering.Rounds
import IteratorLowering.Simplify.Confined
import IteratorLowering.Simplify.Iterator

/-!
# The whole lowering

`lowerIterators` turns every for-loop of a program into plain control flow. It refuses programs
with parallel constructs in serial iterators before it changes anything. Then it inlines the
marked iterators, breaks up confined regions, lowers the loops that are left, tidies the iterators
that still are iterators, hands them off, and finishes the iterator instances.

The iterators that are left are handed to a `HandOff`, which is to turn them into state machines.
-/

set_option autoImplicit false
set_option relaxedAutoImplicit false

namespace IteratorLowering

/-- What is done with an iterator that no strategy could consume. -/
abbrev HandOff := FnId → Pass Unit

/-- What a lowering did: its counts, and the iterators that were handed off. -/
structure Lowered where
  summary : Summary
  handedOff : List FnId
  deriving Repr, Inhabited

/-- The functions that are iterators, in order. -/
def Program.iterators (program : Program) : List FnId :=
  program.functionIds.filter fun id => (program.function id).isIterator

/-- The context of a lowering that starts with a program. -/
def LoweringContext.ofProgram (config : LoweringConfig) (program : Program) : LoweringContext :=
  { config, recursive := program.recursiveIterators program.callGraph }

/-- Collapse blocks and drop idle jumps in an iterator. -/
def flattenIterator (iterator : FnId) : Pass Unit := do
  let _ ← collapseBlocks iterator
  let _ ← removeGotos iterator

/-- Hand the iterators that are left off, one after the other. -/
def handOffIterators (handOff : HandOff) : Lowering (List FnId) := do
  let iterators := (← get).program.iterators
  iterators.forM fun iterator => do
    handOff iterator
    Lowering.count fun summary => { summary with stateMachines := summary.stateMachines + 1 }
  return iterators

/-- Settle everything about iterator instances that needs all loops to be lowered: the positions of
fields, the arguments in dispatch helpers, the tests for runtime subtypes, and the routines of
instance records. -/
def finishInstances : Pass Unit := do
  let _ ← resolveOrdinals
  let _ ← readHelperArgs
  let _ ← addSubtypeDispatch
  let _ ← rebuildRoutines

/-- Lower every loop of a program that has passed the check of its serial iterators. -/
def lowerProgram (handOff : HandOff) : Lowering Lowered := do
  inlineMarkedLoops
  ((← get).program.iterators).forM fun iterator => (flattenIterator iterator : Pass Unit)
  let fragmented ← fragmentConfined
  Lowering.count fun summary => { summary with fragmentedBlocks := fragmented }
  lowerRemainingLoops
  let config := (← get).context.config
  ((← get).program.iterators).forM fun iterator => (tidyIterator config iterator : Pass Unit)
  let handedOff ← handOffIterators handOff
  finishInstances
  return { summary := (← get).context.summary, handedOff }

/-- Lower every loop of a program. Errors of the user go to the queue and stop the lowering before
anything is changed. -/
def lowerIterators (config : LoweringConfig) (handOff : HandOff) (queue : DiagnosticQueue)
    (program : Program) : EStateM.Result LoweringError Program Lowered × DiagnosticQueue :=
  let (reported, queue) := program.checkSerialIterators queue
  match reported with
  | some token => (.error (.stopped token) program, queue)
  | none =>
    let context := LoweringContext.ofProgram config program
    match lowerProgram handOff { program, context } with
    | .ok lowered state => (.ok lowered state.program, queue)
    | .error error state => (.error error state.program, queue)

end IteratorLowering
