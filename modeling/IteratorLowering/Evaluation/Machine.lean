import IteratorLowering.Evaluation.Failure

/-!
# The machine that runs programs

A `Machine` is the state of a run: the heap, the stack of frames, the traced values, the number
of calls of each function and the steps taken. This module holds everything that runs no
statement: reading and writing variables, fields and places, allocating default values, and the
primitive operations. All of it lives in the monad `Eval`, which keeps the machine as it is when
a run fails.

A reference may name a local of a frame that is gone. Reading through such a reference fails if
the stack is too short for it, and so does writing; a frame that has since taken the depth
answers for it otherwise.
-/

set_option autoImplicit false
set_option relaxedAutoImplicit false

namespace IteratorLowering

/-- A heap object: its runtime class and its fields. -/
structure Object where
  type : TypeId
  fields : Array Value
  deriving DecidableEq, Repr, Inhabited

/-- Where the values yielded by an iterator frame go: into the index of a loop, whose body then
runs in the frame that holds the loop. -/
structure YieldTarget where
  frame : Nat
  index : SymId
  loop : StmtId
  deriving DecidableEq, Repr, Inhabited

/-- The locals of one active call. -/
structure Frame where
  function : FnId
  locals : FiniteMap SymId Value := .empty
  yieldTo : Option YieldTarget := none
  deriving Repr, Inhabited

/-- How far a run may go. -/
structure Limits where
  maxSteps : Nat := 1000000
  maxDepth : Nat := 512
  deriving DecidableEq, Repr, Inhabited

/-- The state of a run. -/
structure Machine where
  heap : Array Object := #[]
  frames : Array Frame := #[]
  output : Array Value := #[]
  calls : FiniteMap FnId Nat := .empty
  steps : Nat := 0
  deriving Repr, Inhabited

namespace Machine

/-- The machine before its first run. -/
def new : Machine := {}

/-- The traced values that are integers or truth values, as integers. -/
def outputInts (machine : Machine) : List Int64 := machine.output.toList.filterMap Value.asInt?

/-- How often a function was entered. -/
def callCount (machine : Machine) (function : FnId) : Nat :=
  (machine.calls.find? function).getD 0

/-- Count a call of a function. -/
def countCall (machine : Machine) (function : FnId) : Machine :=
  { machine with calls := machine.calls.insert function (machine.callCount function + 1) }

/-- The object behind a handle. -/
def object (machine : Machine) (id : ObjId) : Object := machine.heap.getD id.index default

/-- Add an object to the heap. -/
def allocate (machine : Machine) (type : TypeId) (fields : Array Value) : ObjId × Machine :=
  (⟨machine.heap.size⟩, { machine with heap := machine.heap.push { type, fields } })

/-- Write a field of an object. -/
def setField (machine : Machine) (id : ObjId) (index : Nat) (value : Value) : Machine :=
  { machine with
    heap := machine.heap.modify id.index fun object =>
      { object with fields := object.fields.setIfInBounds index value } }

/-- The value of a field of an object. -/
def fieldValue (machine : Machine) (id : ObjId) (index : Nat) : Value :=
  (machine.object id).fields.getD index .nil

/-- Write a local of the frame at a depth. -/
def setLocal (machine : Machine) (frame : Nat) (symbol : SymId) (value : Value) : Machine :=
  { machine with
    frames := machine.frames.modify frame fun held =>
      { held with locals := held.locals.insert symbol value } }

end Machine

/-- A computation of a run. -/
abbrev Eval := EStateM EvalError Machine

namespace Eval

/-- End the run in an unsupported situation. -/
def unsupported {α : Type} (situation : Unsupported) : Eval α := throw (.unsupported situation)

/-- Take one step of the budget. -/
def tick (limits : Limits) : Eval Unit := do
  modify fun machine => { machine with steps := machine.steps + 1 }
  if limits.maxSteps < (← get).steps then throw (.stepLimit limits.maxSteps)

/-! ### Storage -/

/-- The value of a local of the frame at a depth. -/
def read (program : Program) (frame : Nat) (symbol : SymId) : Eval Value := do
  match (← get).frames[frame]? with
  | none => unsupported .danglingRead
  | some held =>
    match held.locals.find? symbol with
    | some value => return value
    | none =>
      throw (.undefinedVariable (program.symbolName symbol) (program.functionName held.function))

/-- The value at a place. -/
def load (program : Program) : Place → Eval Value
  | .slot frame symbol => read program frame symbol
  | .field object index => return (← get).fieldValue object index

/-- Write the value at a place. -/
def store (place : Place) (value : Value) : Eval Unit := do
  match place with
  | .slot frame symbol =>
    if frame < (← get).frames.size then modify fun machine => machine.setLocal frame symbol value
    else unsupported .danglingStore
  | .field object index => modify fun machine => machine.setField object index value

/-- The object held by a local, seen through one reference. -/
def objectOf (program : Program) (frame : Nat) (symbol : SymId) : Eval ObjId := do
  match ← read program frame symbol with
  | .obj object => return object
  | .ref place =>
    match ← load program place with
    | .obj object => return object
    | other => throw (.typeMismatch "object" other)
  | other => throw (.typeMismatch "object" other)

/-- The position of the field that a selector names in an object. -/
def fieldIndex (program : Program) (id : ObjId) (field : FieldRef) : Eval Nat := do
  let object := (← get).object id
  let type := program.type object.type
  let found := match field with
    | .index position => if position < object.fields.size then some position else none
    | .ordinal number => type.ordinalField? number
  match found with
  | some index => return index
  | none => throw (.noSuchField field type.name)

/-- The value of an operand. -/
def operand (program : Program) (frame : Nat) : Operand → Eval Value
  | .sym symbol => read program frame symbol
  | .lit (.int value) => return .int value
  | .lit (.bool value) => return .bool value
  | .lit (.str value) => return .str value
  | .lit .void => return .void

/-- The truth value of an operand. -/
def truth (program : Program) (frame : Nat) (condition : Operand) : Eval Bool := do
  let value ← operand program frame condition
  match value.asBool? with
  | some holds => return holds
  | none => throw (.typeMismatch "bool" value)

/-! ### Default values -/

/-- The value that a field of the type starts with. Aggregates start unset. -/
def fieldDefault : TypeKind → Value
  | .void => .void
  | .bool => .bool false
  | .int => .int 0
  | .str => .str ""
  | .record | .heapClass | .ref _ | .fnRef => .nil

/-- The value that a variable of the type starts with. An aggregate starts as a new object. -/
def defaultValue (program : Program) (id : TypeId) : Eval Value := do
  let type := program.type id
  if type.isAggregate then
    let fields := type.fields.map fun field => fieldDefault (program.type field.type).kind
    let object ← modifyGet fun machine => machine.allocate id fields.toArray
    return .obj object
  else return fieldDefault type.kind

/-! ### Primitive operations -/

/-- An operand of a primitive as an integer. -/
def intOf (value : Value) : Except EvalError Int64 :=
  match value.asInt? with
  | some found => .ok found
  | none => .error (.typeMismatch "int" value)

/-- An operand of a primitive as a truth value. -/
def boolOf (value : Value) : Except EvalError Bool :=
  match value.asBool? with
  | some found => .ok found
  | none => .error (.typeMismatch "bool" value)

/-- An operation on two integers. The first operand is converted first. -/
def onInts (combine : Int64 → Int64 → Value) (first second : Value) : Except EvalError Value := do
  let left ← intOf first
  let right ← intOf second
  return combine left right

/-- The result of a primitive operation. Integers wrap at 64 bits, and the second operand of a
conjunction or disjunction is looked at only if the first does not settle it. -/
def primitive (op : PrimOp) (values : List Value) : Except EvalError Value :=
  match op, values with
  | .not, [first] => do return .bool (!(← boolOf first))
  | .add, [first, second] => onInts (fun left right => .int (left + right)) first second
  | .sub, [first, second] => onInts (fun left right => .int (left - right)) first second
  | .mul, [first, second] => onInts (fun left right => .int (left * right)) first second
  | .lt, [first, second] => onInts (fun left right => .bool (left < right)) first second
  | .le, [first, second] => onInts (fun left right => .bool (left ≤ right)) first second
  | .gt, [first, second] => onInts (fun left right => .bool (right < left)) first second
  | .ge, [first, second] => onInts (fun left right => .bool (right ≤ left)) first second
  | .eq, [first, second] => .ok (.bool (first.equal second))
  | .ne, [first, second] => .ok (.bool (!first.equal second))
  | .and, [first, second] => do
    if ← boolOf first then return .bool (← boolOf second) else return .bool false
  | .or, [first, second] => do
    if ← boolOf first then return .bool true else return .bool (← boolOf second)
  | op, values => .error (.arity op values.length)

/-- A value converted to a type. Only integers and truth values are converted. -/
def castTo (kind : TypeKind) (value : Value) : Value :=
  match kind with
  | .int => (value.asInt?.map Value.int).getD value
  | .bool => (value.asBool?.map Value.bool).getD value
  | .void | .str | .record | .heapClass | .ref _ | .fnRef => value

/-- Use the result of a computation that does not touch the machine. -/
def ofExcept {α : Type} : Except EvalError α → Eval α
  | .ok result => return result
  | .error error => throw error

/-! ### Frames -/

/-- Run a computation with a frame on top of the stack and take the frame off again, whether the
computation fails or not. Gives the result and the frame as it was left. -/
def withFrame {α : Type} (frame : Frame) (computation : Nat → Eval α) : Eval (α × Frame) :=
  fun machine =>
    let depth := machine.frames.size
    match computation depth { machine with frames := machine.frames.push frame } with
    | .ok result machine =>
      let left := machine.frames.back?.getD frame
      .ok (result, left) { machine with frames := machine.frames.pop }
    | .error error machine => .error error { machine with frames := machine.frames.pop }

end Eval

end IteratorLowering
