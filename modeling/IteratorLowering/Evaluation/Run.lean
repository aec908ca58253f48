import IteratorLowering.Evaluation.Machine

/-!
# Running programs

Each call pushes a frame of locals. A declaration binds its variable to the default value of its
type. A for-loop that has not been lowered runs naively: the iterator's body runs in a frame of
its own, and each yield stores the value in the loop's index and runs the loop's body in the
frame that holds the loop. Lowered programs are compared with this.

Every statement takes a step of the budget, and `execute` is a recursion on the steps that are
left. The one thing that goes on without taking steps is a loop without statements whose
condition holds; it is given up once it has gone round more often than there are steps, which
shows as `EvalError.endlessLoop`.

`Machine.run` runs a function on a machine and `Machine.runNamed` one that is found by its name.
-/

set_option autoImplicit false
set_option relaxedAutoImplicit false

namespace IteratorLowering

/-- How a statement hands on control. -/
inductive Flow where
  | normal
  | ret (value : Value)
  | goto (label : SymId)
  deriving DecidableEq, Repr, Inhabited

/-- How the statements inside another one are run: in a frame, one statement at a time. -/
abbrev Executor := Nat → StmtId → Eval Flow

namespace Program

/-- The members of a statement list after the place of a label. -/
def afterLabel? (program : Program) (label : SymId) : List StmtId → Option (List StmtId)
  | [] => none
  | id :: rest =>
    if (program.kind id).defined? = some label then some rest else program.afterLabel? label rest

end Program

namespace Eval

/-- Run the rest of a statement list. A jump to a label of the list goes on after the label, and
any other jump leaves the list. At most the given number of statements are run. -/
def runList (program : Program) (execute : StmtId → Eval Flow) (body : List StmtId) :
    Nat → List StmtId → Eval Flow
  | _, [] => return .normal
  | 0, _ :: _ => throw .endlessLoop
  | rounds + 1, id :: rest => do
    match ← execute id with
    | .normal => runList program execute body rounds rest
    | .ret value => return .ret value
    | .goto label =>
      match program.afterLabel? label body with
      | some next => runList program execute body rounds next
      | none => return .goto label

/-- Run a round as long as the test holds, at most the given number of times. -/
def runWhile (test : Eval Bool) (round : Eval Flow) : Nat → Eval Flow
  | 0 => throw .endlessLoop
  | rounds + 1 => do
    if ← test then
      match ← round with
      | .normal => runWhile test round rounds
      | .ret value => return .ret value
      | .goto label => return .goto label
    else return .normal

/-! ### Calls -/

/-- Bind formals to arguments, as far as both go. -/
def bindFormals (formals : List SymId) (args : List Value) : FiniteMap SymId Value :=
  (formals.zip args).foldl (fun locals binding => locals.insert binding.1 binding.2) .empty

/-- Call a function that the runtime provides. -/
def callExternal (name : String) (args : List Value) : Eval Value := do
  if name = "trace" then
    modify fun machine => { machine with output := machine.output ++ args }
    return .void
  else unsupported (.externalFunction name)

/-- Write values into consecutive fields of an object, as far as it has fields. -/
def fillFields (object : ObjId) (index : Nat) : List Value → Eval Unit
  | [] => return
  | value :: rest => do
    modify fun machine => machine.setField object index value
    fillFields object (index + 1) rest

/-- Call an iterator function, which captures the arguments in a new instance record. -/
def buildInstance (program : Program) (definition : FnDef) (args : List Value) : Eval Value := do
  match definition.iteratorInfo with
  | none => unsupported (.noInstanceRecord definition.name)
  | some info =>
    let record ← defaultValue program info.recordType
    match record with
    | .obj object =>
      fillFields object (program.type info.recordType).headerFields args
      return record
    | other => throw (.typeMismatch "record" other)

/-- Fail if no further frame fits on the stack. -/
def checkDepth (limits : Limits) : Eval Unit := do
  if limits.maxDepth ≤ (← get).frames.size then throw (.depthLimit limits.maxDepth)

/-- Call a function. A jump that leaves its body has no target. -/
def call (program : Program) (limits : Limits) (execute : Executor) (function : FnId)
    (args : List Value) : Eval Value := do
  modify fun machine => machine.countCall function
  let definition := program.function function
  if definition.flags.external then callExternal definition.name args
  else if definition.isIterator then buildInstance program definition args
  else
    checkDepth limits
    let frame : Frame := { function, locals := bindFormals definition.formals args }
    let (flow, left) ← withFrame frame fun depth => execute depth definition.body
    match flow with
    | .ret value => return value
    | .normal => return (definition.retSym.bind left.locals.find?).getD .void
    | .goto label => throw (.missingLabel (program.symbolName label))

/-! ### Expressions -/

/-- The function in a slot of the function table, the slot being given by a value. -/
def tableFunction (program : Program) (slot : Value) : Eval FnId := do
  match slot.asInt? with
  | none => throw (.typeMismatch "function table slot" slot)
  | some number =>
    match if 0 ≤ number then program.table.get? number.toInt.toNat else none with
    | some function => return function
    | none => throw (.emptySlot number)

/-- The runtime class of a value, seen through one reference. -/
def classOf? (program : Program) (value : Value) : Eval (Option TypeId) := do
  let seen ← match value with
    | .ref place => load program place
    | other => pure other
  match seen with
  | .obj object => return some ((← get).object object).type
  | _ => return none

/-- The value of an expression. -/
def expression (program : Program) (limits : Limits) (execute : Executor) (frame : Nat) :
    Expr → Eval Value
  | .use value => operand program frame value
  | .prim op args => do
    let values ← args.mapM (operand program frame)
    ofExcept (primitive op values)
  | .call callee args => do
    let values ← args.mapM (operand program frame)
    call program limits execute callee values
  | .tableCall slot args => do
    let callee ← tableFunction program (← operand program frame slot)
    let values ← args.mapM (operand program frame)
    call program limits execute callee values
  | .fieldAddress base field => do
    let object ← objectOf program frame base
    return .ref (.field object (← fieldIndex program object field))
  | .fieldValue base field => do
    let object ← objectOf program frame base
    let index ← fieldIndex program object field
    return (← get).fieldValue object index
  | .cast type value => do
    return castTo (program.type type).kind (← operand program frame value)
  | .hasClass symbol type => do
    let found ← classOf? program (← read program frame symbol)
    return .bool (found == some type)
  | .addressOf symbol => return .ref (.slot frame symbol)
  | .deref symbol => do
    match ← read program frame symbol with
    | .ref place => load program place
    | other => throw (.typeMismatch "reference" other)

/-! ### Statements -/

/-- Yield a value: store it in the index of the consuming loop and run the loop's body. -/
def yieldValue (program : Program) (execute : Executor) (rounds frame : Nat) (value : Value) :
    Eval Flow := do
  match (← get).frames[frame]?.bind Frame.yieldTo with
  | none => throw .yieldOutsideIterator
  | some target =>
    modify fun machine => machine.setLocal target.frame target.index value
    let body := program.blockBody target.loop
    match ← runList program (execute target.frame) body rounds body with
    | .normal => return .normal
    | .ret _ | .goto _ => unsupported .leavesLoopBody

/-- The values of an object's fields for the formals of an iterator; formals without a field are
unset. -/
def instanceArgs (object : Object) (headerFields : Nat) (formals : List SymId) : List Value :=
  (List.range formals.length).map fun position =>
    object.fields.getD (headerFields + position) .nil

/-- Run a for-loop by running the iterator's body with its yields sent to the loop. -/
def naiveFor (program : Program) (limits : Limits) (execute : Executor) (frame : Nat)
    (loop : StmtId) (info : BlockInfo) : Eval Flow := do
  match info.forHeader? with
  | none => unsupported .malformedHeader
  | some (index, iterator) =>
    let object := (← get).object (← objectOf program frame iterator)
    let type := program.type object.type
    if type.isTuple then unsupported .zipperedLoop
    else
      match type.iteratorFn with
      | none => unsupported .notAnIterator
      | some function =>
        checkDepth limits
        let definition := program.function function
        let args := instanceArgs object type.headerFields definition.formals
        let iteratorFrame : Frame :=
          { function
            locals := bindFormals definition.formals args
            yieldTo := some { frame, index, loop } }
        modify fun machine => machine.countCall function
        let (flow, _) ← withFrame iteratorFrame fun depth => execute depth definition.body
        match flow with
        | .normal | .ret _ => return .normal
        | .goto label => throw (.missingLabel (program.symbolName label))

/-- Run a statement without nested statements. -/
def action (program : Program) (limits : Limits) (execute : Executor) (rounds frame : Nat) :
    Action → Eval Flow
  | .define symbol => do
    if (program.symbol symbol).isLabel then return .normal
    else
      let value ← defaultValue program (program.symbolType symbol)
      modify fun machine => machine.setLocal frame symbol value
      return .normal
  | .assign target value => do
    let value ← expression program limits execute frame value
    modify fun machine => machine.setLocal frame target value
    return .normal
  | .store reference value => do
    let value ← operand program frame value
    match ← read program frame reference with
    | .ref place =>
      store place value
      return .normal
    | other => throw (.typeMismatch "reference" other)
  | .setField base field value => do
    let value ← operand program frame value
    let object ← objectOf program frame base
    let index ← fieldIndex program object field
    modify fun machine => machine.setField object index value
    return .normal
  | .evaluate value => do
    let _ ← expression program limits execute frame value
    return .normal
  | .yield value => do
    yieldValue program execute rounds frame (← operand program frame value)
  | .ret value => return .ret (← operand program frame value)
  | .goto label => return .goto label
  | .fail message => throw (.failed message)
  | .noop => return .normal

/-- Run a statement, with the statements inside it run as told. Lists and loops inside it go
round at most the given number of times. -/
def statement (program : Program) (limits : Limits) (execute : Executor) (rounds frame : Nat)
    (id : StmtId) : Eval Flow :=
  match program.kind id with
  | .action inner => action program limits execute rounds frame inner
  | .branch condition thenBlock elseBlock => do
    if ← truth program frame condition then execute frame thenBlock
    else
      match elseBlock with
      | some elseBlock => execute frame elseBlock
      | none => return .normal
  | .block (some (.whileLoop condition)) body =>
    runWhile (truth program frame condition)
      (runList program (execute frame) body rounds body) rounds
  | .block (some (.forLoop header)) _ =>
    naiveFor program limits execute frame id (.forLoop header)
  | .block _ body => runList program (execute frame) body rounds body

/-- Run a statement in a frame, with fuel for this many nested statements. Each one takes a step
first, so with more fuel than steps left the budget always ends a run before the fuel does. -/
def execute (program : Program) (limits : Limits) : Nat → Executor
  | 0 => fun _ _ => throw .endlessLoop
  | fuel + 1 => fun frame id => do
    tick limits
    statement program limits (execute program limits fuel) fuel frame id

end Eval

namespace Machine

/-- More fuel than there are steps left. -/
def fuel (machine : Machine) (limits : Limits) : Nat := limits.maxSteps - machine.steps + 1

/-- Run a function on arguments. -/
def run (machine : Machine) (program : Program) (limits : Limits) (function : FnId)
    (args : List Value) : EStateM.Result EvalError Machine Value :=
  Eval.call program limits (Eval.execute program limits (machine.fuel limits)) function args
    machine

/-- Run the function with a name, without arguments. -/
def runNamed (machine : Machine) (program : Program) (limits : Limits) (name : String) :
    EStateM.Result EvalError Machine Value :=
  match program.findFunction? name with
  | some function => machine.run program limits function []
  | none => .error (.unsupported (.noSuchFunction name)) machine

end Machine

end IteratorLowering
