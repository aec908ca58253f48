import IteratorLowering.Evaluation.Value
import IteratorLowering.Render

/-!
# Failures of a run

`EvalError` gives the causes for which a run ends without a value, and `EvalError.message` their
texts. `Unsupported` collects the situations that are legal in a program but have no meaning at
run time.
-/

set_option autoImplicit false
set_option relaxedAutoImplicit false

namespace IteratorLowering

/-- A situation without a meaning at run time. -/
inductive Unsupported where
  | noSuchFunction (name : String)
  | externalFunction (name : String)
  | noInstanceRecord (iterator : String)
  | leavesLoopBody
  | malformedHeader
  | zipperedLoop
  | notAnIterator
  | danglingStore
  | danglingRead
  deriving DecidableEq, Repr, Inhabited

/-- The text of an unsupported situation. -/
def Unsupported.text : Unsupported → String
  | .noSuchFunction name => "no function named `" ++ name ++ "`"
  | .externalFunction name => "extern function `" ++ name ++ "`"
  | .noInstanceRecord iterator => "iterator `" ++ iterator ++ "` has no instance record"
  | .leavesLoopBody => "control flow leaving a loop body during naive iteration"
  | .malformedHeader => "malformed for-loop header"
  | .zipperedLoop => "zippered for-loop must be lowered before evaluation"
  | .notAnIterator => "for-loop over a non-iterator value"
  | .danglingStore => "store through a dangling reference"
  | .danglingRead => "read through a dangling reference"

/-- Why a run ended without a value. -/
inductive EvalError where
  /-- A statement that ends execution was reached. -/
  | failed (message : String)
  | undefinedVariable (name function : String)
  /-- A value of another type was expected. -/
  | typeMismatch (expected : String) (found : Value)
  /-- A primitive operation had the wrong number of operands. -/
  | arity (op : PrimOp) (operands : Nat)
  | noSuchField (field : FieldRef) (type : String)
  | emptySlot (slot : Int64)
  | missingLabel (name : String)
  | yieldOutsideIterator
  | unsupported (situation : Unsupported)
  | stepLimit (limit : Nat)
  | depthLimit (limit : Nat)
  /-- A loop without statements went on for longer than the steps left, and so for ever. -/
  | endlessLoop
  deriving DecidableEq, Repr, Inhabited

/-- The written form of a field selector in messages. -/
def FieldRef.description : FieldRef → String
  | .ordinal number => s!"Ordinal({number})"
  | .index position => s!"Index({position})"

/-- The text of a failure. -/
def EvalError.message : EvalError → String
  | .failed message => "runtime error: " ++ message
  | .undefinedVariable name function =>
    "read of undefined variable `" ++ name ++ "` in `" ++ function ++ "`"
  | .typeMismatch expected found => "expected " ++ expected ++ ", found " ++ found.text
  | .arity op operands => op.text ++ " applied to " ++ toString operands ++ " operand(s)"
  | .noSuchField field type => "no field " ++ field.description ++ " on type `" ++ type ++ "`"
  | .emptySlot slot => "function table slot " ++ toString slot.toInt ++ " is empty"
  | .missingLabel name => "goto target `" ++ name ++ "` not found in any enclosing block"
  | .yieldOutsideIterator => "`yield` executed outside an iterator frame"
  | .unsupported situation => "unsupported during evaluation: " ++ situation.text
  | .stepLimit limit => s!"step limit of {limit} exceeded"
  | .depthLimit limit => s!"call depth limit of {limit} exceeded"
  | .endlessLoop => "a loop without statements never ends"

end IteratorLowering
