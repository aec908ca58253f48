import IteratorLowering.Lowering.Config
import IteratorLowering.Lowering.Fault

/-!
# What one lowering knows and remembers

A `LoweringContext` holds the configuration, the set of recursive iterators, the functions that
were made for recursive iterators so far, and the `Summary`, which counts what was done. The
strategies run in the monad `Lowering`, which adds the context to the program.

A generated function serves every loop over its iterator whose body takes equivalent formals;
`Program.equivalentTypes` says which types are equivalent.
-/

set_option autoImplicit false
set_option relaxedAutoImplicit false

namespace IteratorLowering

/-- How many loops and functions were treated in which way. -/
structure Summary where
  inlined : Nat := 0
  zipFused : Nat := 0
  protocol : Nat := 0
  recursiveCallback : Nat := 0
  /-- Loops over recursive iterators that were left inside recursive iterators. -/
  leftForStateMachine : Nat := 0
  /-- Functions made for recursive iterators. -/
  generatedFunctions : Nat := 0
  fragmentedBlocks : Nat := 0
  stateMachines : Nat := 0
  deriving DecidableEq, Repr, Inhabited

/-- A function made for a recursive iterator, and the loop body that it was made for. -/
structure GeneratedIterator where
  iterator : FnId
  generated : FnId
  loopBody : FnId
  deriving DecidableEq, Repr, Inhabited

/-- What one lowering knows and remembers. -/
structure LoweringContext where
  config : LoweringConfig := {}
  /-- The iterators that can reach themselves through direct calls. -/
  recursive : List FnId := []
  /-- The functions made for recursive iterators, in order. -/
  generated : List GeneratedIterator := []
  summary : Summary := {}
  deriving Repr, Inhabited

namespace LoweringContext

/-- Whether a function is a recursive iterator. -/
def isRecursive (context : LoweringContext) (function : FnId) : Bool :=
  context.recursive.contains function

end LoweringContext

namespace Program

/-- Whether two types pass for the same in the formals of a loop body: identical types, function
references, argument bundles, and references to argument bundles, whatever is in the bundles. -/
def equivalentTypes (program : Program) (first second : TypeId) : Bool :=
  let firstType := program.type first
  let secondType := program.type second
  first == second || (firstType.kind == .fnRef && secondType.kind == .fnRef) ||
    (firstType.flags.argBundle && secondType.flags.argBundle) ||
    (firstType.flags.refArgBundle && secondType.flags.refArgBundle)

/-- The types of a function's formals. -/
def formalTypes (program : Program) (function : FnId) : List TypeId :=
  (program.function function).formals.map program.symbolType

/-- Whether two functions have the same number of formals and pairwise equivalent ones. -/
def equivalentFormals (program : Program) (first second : FnId) : Bool :=
  let firstTypes := program.formalTypes first
  let secondTypes := program.formalTypes second
  firstTypes.length == secondTypes.length &&
    (firstTypes.zip secondTypes).all fun types => program.equivalentTypes types.1 types.2

end Program

/-- The function made for an iterator and a loop body equivalent to the given one. -/
def LoweringContext.findGenerated? (context : LoweringContext) (program : Program)
    (iterator loopBody : FnId) : Option FnId :=
  (context.generated.find? fun entry =>
    entry.iterator == iterator && program.equivalentFormals entry.loopBody loopBody).map
    GeneratedIterator.generated

/-- A program together with the context of its lowering. -/
structure LoweringState where
  program : Program
  context : LoweringContext
  deriving Repr, Inhabited

/-- A change of a program that uses and changes the context. -/
abbrev Lowering := EStateM LoweringError LoweringState

/-- A pass as a lowering that leaves the context alone. -/
def Pass.asLowering {α : Type} (pass : Pass α) : Lowering α := fun state =>
  match pass state.program with
  | .ok result program => .ok result { state with program }
  | .error error program => .error error { state with program }

instance : MonadLift Pass Lowering := ⟨Pass.asLowering⟩

namespace Lowering

/-- Change the counts of what was done. -/
def count (change : Summary → Summary) : Lowering Unit :=
  modify fun state =>
    { state with context := { state.context with summary := change state.context.summary } }

/-- Remember a function that was made for a recursive iterator. -/
def remember (entry : GeneratedIterator) : Lowering Unit :=
  modify fun state =>
    { state with context := { state.context with generated := state.context.generated ++ [entry] } }

end Lowering

end IteratorLowering
