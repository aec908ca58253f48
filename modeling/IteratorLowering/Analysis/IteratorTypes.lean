import IteratorLowering.Program.Walk

/-!
# What an iterator type tells

A loop header is an iterator instance or a tuple of headers. `Program.leafIterators` lists the
instance types of a header, and `Program.canFuse` tells whether each of them yields exactly once
and at the top level of its body. `Program.runtimeSubtypes` lists the classes that an instance
may turn out to have when the program runs.
-/

set_option autoImplicit false
set_option relaxedAutoImplicit false

namespace IteratorLowering

namespace Program

/-! ### Runtime subtypes -/

/-- Add to the types found so far what lies below a type, depth first and down to the given
number of levels. The root class and types already found are passed over. -/
def addSubtypes (program : Program) : Nat → TypeId → List TypeId → List TypeId
  | 0, _, found => found
  | depth + 1, type, found =>
    (program.type type).subtypes.foldl
      (fun found child =>
        if child = TypeId.object ∨ child ∈ found then found
        else program.addSubtypes depth child (found ++ [child])) found

/-- The runtime subtypes of a type at any depth, in depth-first order, without the root class
and without repeats. Each level of the search finds a new type, so one level more than there are
types is enough. -/
def runtimeSubtypes (program : Program) (type : TypeId) : List TypeId :=
  program.addSubtypes (program.types.size + 1) (program.valueType type) []

/-- Whether a type has no runtime subtype of its own, which may be written as the root class
alone. -/
def isLeafClass (program : Program) (type : TypeId) : Bool :=
  let subtypes := (program.type type).subtypes
  subtypes.isEmpty || subtypes == [TypeId.object]

/-! ### Loop headers -/

/-- The instance types of a header type, from left to right, looking into tuples down to the
given number of levels. -/
def leafIteratorsTo (program : Program) : Nat → TypeId → List TypeId
  | 0, type => [program.valueType type]
  | depth + 1, type =>
    let type := program.valueType type
    let definition := program.type type
    if definition.isTuple then
      definition.fields.flatMap fun field => program.leafIteratorsTo depth field.type
    else [type]

/-- The instance types of a header type, from left to right. A tuple is made of types that exist
before it, so it nests no deeper than there are types. -/
def leafIterators (program : Program) (type : TypeId) : List TypeId :=
  program.leafIteratorsTo program.types.size type

/-- Whether an iterator has exactly one yield, as a direct member of its body. -/
def hasSingleTopLevelYield (program : Program) (iterator : FnId) : Bool :=
  let body := program.bodyOf iterator
  match program.yieldsIn body with
  | [only] => program.parent only == some body
  | _ => false

/-- Whether every instance type of a header type yields exactly once. -/
def canFuse (program : Program) (type : TypeId) : Bool :=
  (program.leafIterators type).all fun leaf =>
    (program.iteratorFnOf leaf).any program.hasSingleTopLevelYield

/-! ### Lengths -/

/-- Whether an iterator has a length that can be compared: all but those over a range that is
open at an end. -/
def isBounded (program : Program) (iterator : FnId) : Bool :=
  match (program.function iterator).receiver with
  | none => true
  | some receiver =>
    let range := (program.type (program.valueType (program.symbolType receiver))).range
    range.all fun bounds => bounds == .bounded

end Program

end IteratorLowering
